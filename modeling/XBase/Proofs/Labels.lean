import Mathlib.Data.List.Forall2
import XBase.Proofs.Casing
import XBase.Proofs.Compound
import XBase.Proofs.Ownership

/-!
# Labels and names

A scope takes two spellings for one name if their lowercase forms are equal, and a label addresses a
parameter if it is the name or the alias of the parameter up to the case of ASCII letters. The second
is the stricter of the two: labels tell apart letters beyond ASCII that names do not.
-/

namespace XBase

/-- Whether two texts are as long as each other and differ only where both have characters of
ASCII. -/
def Text.AgreeBeyondAscii (s t : String) : Prop :=
  List.Forall₂ (fun c d => c = d ∨ (c.toNat < 128 ∧ d.toNat < 128)) s.toList t.toList

def Text.IsAscii (s : String) : Prop :=
  ∀ c ∈ s.toList, c.toNat < 128

/-- The ways to write a parameter in a label, but for their case. -/
def Parameter.spellings (parameter : Parameter) : List String :=
  parameter.name.lexeme :: (parameter.otherName.map Token.lexeme).toList

/-- Whether a label is a spelling of the parameter as a name, written with the same characters
beyond ASCII. -/
def Parameter.Named (parameter : Parameter) (label : String) : Prop :=
  ∃ spelling ∈ parameter.spellings,
    Text.lower spelling = Text.lower label ∧ Text.AgreeBeyondAscii spelling label

namespace Proofs

open Text

section Characters

lemma toNat_toLower (c : Char) :
    c.toLower.toNat = if 65 ≤ c.toNat ∧ c.toNat ≤ 90 then c.toNat + 32 else c.toNat := by
  unfold Char.toLower
  split
  · next h =>
    have hbounds : 65 ≤ c.toNat ∧ c.toNat ≤ 90 := h
    rw [if_pos hbounds]
    change (c.val + 32).toNat = c.val.toNat + 32
    have hval : c.val.toNat ≤ 90 := hbounds.2
    rw [UInt32.toNat_add]
    exact Nat.mod_eq_of_lt (by change c.val.toNat + 32 < 2 ^ 32; omega)
  · next h =>
    have hbounds : ¬ (65 ≤ c.toNat ∧ c.toNat ≤ 90) := h
    rw [if_neg hbounds]

/-- Only characters of ASCII have a lowercase letter in common. -/
lemma near_of_toLower_eq {c d : Char} (h : c.toLower = d.toLower) :
    c = d ∨ (c.toNat < 128 ∧ d.toNat < 128) := by
  have hnat := congrArg Char.toNat h
  rw [toNat_toLower, toNat_toLower] at hnat
  by_cases heq : c.toNat = d.toNat
  · exact .inl (Char.toNat_inj.mp heq)
  · right
    split at hnat <;> split at hnat <;> omega

lemma toLower_beyond_ascii {c : Char} (h : ¬ c.toNat < 128) : c.toLower = c := by
  apply Char.toNat_inj.mp
  rw [toNat_toLower, if_neg (by omega)]

/-- What holds of the characters of ASCII and is not about the case of others holds of all. -/
lemma toLower_invariant {α : Type} (f : Char → α)
    (hascii : ∀ n : Fin 128, f (Char.ofNat n).toLower = f (Char.ofNat n)) (c : Char) :
    f c.toLower = f c := by
  by_cases h : c.toNat < 128
  · simpa only [Char.ofNat_toNat] using hascii ⟨c.toNat, h⟩
  · rw [toLower_beyond_ascii h]

lemma isCaseIgnored_toLower (c : Char) : isCaseIgnored c.toLower = isCaseIgnored c :=
  toLower_invariant isCaseIgnored (by decide +kernel) c

lemma isCased_toLower (c : Char) : isCased c.toLower = isCased c :=
  toLower_invariant isCased (by decide +kernel) c

lemma lowerChar_toLower (c : Char) : lowerChar c.toLower = lowerChar c :=
  toLower_invariant lowerChar (by decide +kernel) c

lemma isSigma_toLower (c : Char) : c.toLower.toNat = 0x3A3 ↔ c.toNat = 0x3A3 := by
  rw [toNat_toLower]
  split <;> omega

end Characters

section Texts

lemma meetsCased_map_toLower (cs : List Char) : meetsCased (cs.map Char.toLower) = meetsCased cs := by
  induction cs with
  | nil => rfl
  | cons c cs ih =>
    unfold meetsCased at ih ⊢
    rw [List.map_cons]
    by_cases h : isCaseIgnored c
    · rw [List.dropWhile_cons_of_pos (by rw [isCaseIgnored_toLower, h]),
        List.dropWhile_cons_of_pos h]
      exact ih
    · rw [List.dropWhile_cons_of_neg (by rw [isCaseIgnored_toLower]; exact h),
        List.dropWhile_cons_of_neg h]
      exact isCased_toLower c

/-- The lowercase form does not depend on the case of the letters of ASCII, nor does the place of a
sigma in its word. -/
lemma lowerFrom_map_toLower (before cs : List Char) :
    lowerFrom (before.map Char.toLower) (cs.map Char.toLower) = lowerFrom before cs := by
  induction cs generalizing before with
  | nil => rfl
  | cons c cs ih =>
    have hrest := ih (c :: before)
    rw [List.map_cons] at hrest
    rw [List.map_cons, lowerFrom, lowerFrom, hrest]
    by_cases hsigma : c.toNat = 0x3A3
    · rw [if_pos hsigma, if_pos ((isSigma_toLower c).mpr hsigma), meetsCased_map_toLower,
        meetsCased_map_toLower]
    · rw [if_neg hsigma, if_neg (mt (isSigma_toLower c).mp hsigma), lowerChar_toLower]

def lowerHere (before : List Char) (c : Char) (after : List Char) : List Char :=
  if c.toNat = 0x3A3 then
    [Char.ofNat (if meetsCased before && !meetsCased after then 0x3C2 else 0x3C3)]
  else lowerChar c

lemma lowerFrom_cons (before : List Char) (c : Char) (after : List Char) :
    lowerFrom before (c :: after) = lowerHere before c after ++ lowerFrom (c :: before) after := rfl

lemma lowerHere_ascii {c : Char} (h : c.toNat < 128) (before after : List Char) :
    lowerHere before c after = [c.toLower] := by
  unfold lowerHere lowerChar
  rw [if_neg (by omega), if_pos h]

lemma length_lowerHere (c : Char) (before after before' after' : List Char) :
    (lowerHere before c after).length = (lowerHere before' c after').length := by
  unfold lowerHere
  split <;> rfl

lemma lowerFrom_ascii {cs : List Char} (before : List Char) (h : ∀ c ∈ cs, c.toNat < 128) :
    lowerFrom before cs = cs.map Char.toLower := by
  induction cs generalizing before with
  | nil => rfl
  | cons c cs ih =>
    rw [lowerFrom_cons, lowerHere_ascii (h c List.mem_cons_self),
      ih _ fun d hd => h d (List.mem_cons_of_mem c hd)]
    rfl

/-- Texts that agree beyond ASCII and have one lowercase form are the same up to the case of the
letters of ASCII. -/
lemma map_toLower_of_lowerFrom_eq {s t : List Char}
    (hagree : List.Forall₂ (fun c d => c = d ∨ (c.toNat < 128 ∧ d.toNat < 128)) s t)
    {before before' : List Char} (h : lowerFrom before s = lowerFrom before' t) :
    s.map Char.toLower = t.map Char.toLower := by
  induction hagree generalizing before before' with
  | nil => rfl
  | @cons c d s t hnear _ ih =>
    rw [lowerFrom_cons, lowerFrom_cons] at h
    -- The two characters have lowercase forms of one length, so the rest can be compared by itself.
    rcases hnear with rfl | ⟨hc, hd⟩
    · have hrest := (List.append_inj h (length_lowerHere c before s before' t)).2
      rw [List.map_cons, List.map_cons, ih hrest]
    · rw [lowerHere_ascii hc, lowerHere_ascii hd] at h
      obtain ⟨hhead, hrest⟩ := List.cons.inj h
      rw [List.map_cons, List.map_cons, ih hrest, hhead]

lemma agree_of_map_toLower_eq {s t : List Char} (h : s.map Char.toLower = t.map Char.toLower) :
    List.Forall₂ (fun c d => c = d ∨ (c.toNat < 128 ∧ d.toNat < 128)) s t := by
  have hall : List.Forall₂ Eq (s.map Char.toLower) (t.map Char.toLower) := by
    rw [List.forall₂_eq_eq_eq]
    exact h
  have hplaces := List.forall₂_map_right_iff.mp (List.forall₂_map_left_iff.mp hall)
  exact hplaces.imp fun _ _ => near_of_toLower_eq

/-- Equality up to the case of ASCII letters is equality as names of texts that agree beyond
ASCII. -/
lemma sameUpToAsciiCase_iff (s t : String) :
    sameUpToAsciiCase s t = true ↔ lower s = lower t ∧ AgreeBeyondAscii s t := by
  unfold sameUpToAsciiCase lower AgreeBeyondAscii
  rw [beq_iff_eq, String.ofList_inj]
  constructor
  · intro h
    refine ⟨?_, agree_of_map_toLower_eq h⟩
    rw [← lowerFrom_map_toLower [] s.toList, h]
    exact lowerFrom_map_toLower [] t.toList
  · rintro ⟨hlower, hagree⟩
    exact map_toLower_of_lowerFrom_eq hagree hlower

lemma sameUpToAsciiCase_iff_of_ascii {s t : String} (hs : IsAscii s) (ht : IsAscii t) :
    sameUpToAsciiCase s t = true ↔ lower s = lower t := by
  rw [sameUpToAsciiCase_iff]
  apply and_iff_left_of_imp
  intro hlower
  unfold lower at hlower
  rw [lowerFrom_ascii [] hs, lowerFrom_ascii [] ht, String.ofList_inj] at hlower
  exact agree_of_map_toLower_eq hlower

end Texts

section Labels

variable {parameters : List Parameter} {position : Nat} {argument : ArgumentValue} {label : String}
  {parameter : Parameter} {id : ScopeId} {c : Config} {m : Machine}

lemma accepts_iff (parameter : Parameter) (label : String) :
    parameter.accepts label = true ↔
      ∃ spelling ∈ parameter.spellings, sameUpToAsciiCase spelling label = true := by
  unfold Parameter.accepts Parameter.spellings
  cases parameter.otherName <;> simp

lemma addressed_unknown (hlabel : argument.label = some label)
    (h : parameters.find? (·.accepts label) = none) :
    Run.addressed parameters position argument c m =
      (.error (.failure (.ofToken argument.token (.unknownArgument label))), m) := by
  unfold Run.addressed
  rw [hlabel]
  dsimp only
  rw [h]
  rfl

lemma addressed_known (hlabel : argument.label = some label)
    (h : parameters.find? (·.accepts label) = some parameter) :
    Run.addressed parameters position argument c m = (.ok (some parameter), m) := by
  unfold Run.addressed
  rw [hlabel]
  dsimp only
  rw [h]
  rfl

/-- An argument that addresses a parameter is written over what the parameter holds. -/
lemma bindArguments_cons {others : List ArgumentValue}
    (haddressed : Run.addressed parameters position argument c m = (.ok (some parameter), m))
    (hfree : (m.heap.own? id (lower parameter.name.lexeme)).map Binding.kind ≠ some .constant) :
    Run.bindArguments id parameters position (argument :: others) c m =
      Run.bindArguments id parameters (position + 1) others c
        { m with
          heap := m.heap.bind id (lower parameter.name.lexeme) ⟨.variable, argument.value⟩ } := by
  rw [Run.bindArguments, bind_ok haddressed]
  apply bind_ok
  refine (rebind_eq argument.token _ c m).trans ?_
  rw [assignOwn_free _ _ hfree]
  rfl

lemma accepts_iff_named (parameter : Parameter) (label : String) :
    parameter.accepts label = true ↔ parameter.Named label := by
  rw [accepts_iff]
  simp only [sameUpToAsciiCase_iff]
  rfl

instance (parameter : Parameter) (label : String) : Decidable (parameter.Named label) :=
  decidable_of_iff _ (accepts_iff_named parameter label)

lemma find?_accepts_none (h : ∀ parameter ∈ parameters, ¬ parameter.Named label) :
    parameters.find? (·.accepts label) = none := by
  rw [List.find?_eq_none]
  intro parameter hparameter
  rw [accepts_iff_named]
  exact h parameter hparameter

lemma find?_accepts_first {before after : List Parameter}
    (hparameters : parameters = before ++ parameter :: after)
    (hbefore : ∀ other ∈ before, ¬ other.Named label) (hnamed : parameter.Named label) :
    parameters.find? (·.accepts label) = some parameter := by
  have haccepts := (accepts_iff_named parameter label).mpr hnamed
  rw [hparameters, List.find?_append, find?_accepts_none hbefore, Option.none_or, List.find?_cons,
    haccepts]

end Labels

/-- A label addresses a parameter exactly if it is the name or the alias of the parameter for a
scope and has the same characters beyond ASCII, so that for labels and parameters of ASCII the two
notions of a name are one. A label that addresses no parameter is refused. Any other is written to
the first parameter that it addresses, and every spelling of the name of this parameter reads what
was written. -/
theorem labels_match_up_to_ascii_case (parameters : List Parameter) (argument : ArgumentValue)
    (label : String) (hlabel : argument.label = some label) :
    (∀ parameter : Parameter, parameter.accepts label = true ↔ parameter.Named label) ∧
    (∀ parameter : Parameter, IsAscii label → (∀ spelling ∈ parameter.spellings, IsAscii spelling) →
      (parameter.accepts label = true ↔
        ∃ spelling ∈ parameter.spellings, lower spelling = lower label)) ∧
    ∀ (id : ScopeId) (position : Nat) (others : List ArgumentValue) (c : Config) (m : Machine),
      ((∀ parameter ∈ parameters, ¬ parameter.Named label) →
        Run.bindArguments id parameters position (argument :: others) c m =
          (.error (.failure (.ofToken argument.token (.unknownArgument label))), m)) ∧
      ∀ before parameter after, parameters = before ++ parameter :: after →
        (∀ other ∈ before, ¬ other.Named label) → parameter.Named label →
        id < m.heap.scopes.size →
        (m.heap.own? id (lower parameter.name.lexeme)).map Binding.kind ≠ some .constant →
        ∃ heap,
          Run.bindArguments id parameters position (argument :: others) c m =
            Run.bindArguments id parameters (position + 1) others c { m with heap } ∧
          m.heap.DiffersAt heap id (lower parameter.name.lexeme)
            (some ⟨.variable, argument.value⟩) ∧
          ∀ written, lower written = lower parameter.name.lexeme →
            heap.lookup id written = .ok argument.value := by
  refine ⟨fun parameter => accepts_iff_named parameter label, ?_, ?_⟩
  · intro parameter hascii hspellings
    rw [accepts_iff]
    apply exists_congr
    intro spelling
    apply and_congr_right
    intro hspelling
    exact sameUpToAsciiCase_iff_of_ascii (hspellings spelling hspelling) hascii
  intro id position others c m
  constructor
  · intro hnone
    rw [Run.bindArguments]
    exact bind_error (addressed_unknown hlabel (find?_accepts_none hnone))
  · intro before parameter after hparameters hbefore hnamed hid hfree
    have hfind := find?_accepts_first hparameters hbefore hnamed
    let binding : Binding := ⟨.variable, argument.value⟩
    have hdiffers : m.heap.DiffersAt (m.heap.bind id (lower parameter.name.lexeme) binding) id
        (lower parameter.name.lexeme) (some binding) := differs_bind hid binding
    refine ⟨_, bindArguments_cons (addressed_known hlabel hfind) hfree, hdiffers, ?_⟩
    intro written hwritten
    rw [lookup_differs hdiffers, if_pos ⟨hwritten, owner?_own hdiffers.here⟩]

def sizeParameters : List Parameter :=
  [⟨nameToken "Unit", none, none⟩, ⟨nameToken "Größe", some (nameToken "Size"), none⟩]

/-- A label in mixed case is written to the parameter, which capitals beyond ASCII read as well. -/
theorem mixed_case_label_written :
    let argument : ArgumentValue := ⟨nameToken "GRößE", some "GRößE", .text "wide"⟩
    let m := { Machine.start bareHost with heap := (Heap.empty.newScope none).2 }
    argument.label = some "GRößE" ∧
    ∃ heap,
      Run.bindArguments 0 sizeParameters 0 [argument] ⟨⟨none, 2⟩, bareHost⟩ m =
        (.ok (), { m with heap }) ∧
      heap.lookup 0 "GRÖßE" = .ok (.text "wide") := by
  intro argument m
  obtain ⟨-, -, hwritten⟩ := labels_match_up_to_ascii_case sizeParameters argument "GRößE" rfl
  obtain ⟨heap, hrun, -, hread⟩ := (hwritten 0 0 [] ⟨⟨none, 2⟩, bareHost⟩ m).2
    [⟨nameToken "Unit", none, none⟩] ⟨nameToken "Größe", some (nameToken "Size"), none⟩ [] rfl
    (by decide +kernel) (by decide +kernel) (by decide +kernel) (by decide +kernel)
  exact ⟨rfl, heap, hrun, hread "GRÖßE" (by decide +kernel)⟩

/-- A body reads the parameter `é` as `É`, and a call that labels its argument so is refused. -/
theorem accented_capital_reads_but_addresses_nothing :
    lower "É" = lower "é" ∧
    (⟨nameToken "é", none, none⟩ : Parameter).accepts "É" = false ∧
    (runAlone "function f(é)\n? É\nendfunc\nf(é: \"x\")").1.output = "x\n" ∧
    (runAlone "function f(é)\n? é\nendfunc\nf(É: \"x\")").1.error.map UnitError.message =
      some "[4:3] Runtime error near of `É`: Alias not found: `É`" := by
  decide +kernel

end Proofs

end XBase
