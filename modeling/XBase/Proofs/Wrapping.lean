import XBase.Grammar.Source
import XBase.Proofs.Lines
import XBase.Proofs.Seams

/-!
# The tokens of an imported text

An imported text is scanned between the first and the last line of a module. Its tokens are those
that it has alone, one line further down, and no text takes a part of the lines around it.
-/

namespace XBase

def Position.shifted (lines : Nat) (p : Position) : Position :=
  ⟨p.line + lines, p.column⟩

def Token.shifted (lines : Nat) (token : Token) : Token :=
  { token with position := token.position.shifted lines }

def ScanError.shifted (lines : Nat) (e : ScanError) : ScanError :=
  { e with position := e.position.shifted lines }

/-- The same token, but a separator may take other line ends. -/
def Token.Stretched (a b : Token) : Prop :=
  b = { a with lexeme := b.lexeme } ∧ (a.kind ≠ .separator → b.lexeme = a.lexeme)

def Position.down (p : Position) : Position :=
  ⟨p.line + 1, p.column⟩

def Token.down (token : Token) : Token :=
  { token with position := token.position.down }

/-- A token one line further down. The text of a separator may be another one, since it takes all
line ends in a row. -/
def Token.Lowered (a b : Token) : Prop :=
  b = { a.down with lexeme := b.lexeme } ∧ (a.kind ≠ .separator → b.lexeme = a.lexeme)

def Action.kind? : Action → Option Kind
  | .skip => none
  | .separator => some .separator
  | .number => some .number
  | .quoted | .raw => some .text
  | .operator kind | .token kind _ _ => some kind

namespace Proofs

open Pattern (span)

variable {cs : List Char} {rule : Rule} {n : Nat} {c : Char} {token : Token}

section Cutting

lemma cut_of_first (h : Rule.first? cs = some (rule, n + 1)) (hcs : cs ≠ []) :
    Piece.cut cs = ⟨some rule.action, cs.take (n + 1)⟩ :: Piece.cut (cs.drop (n + 1)) := by
  cases cs with
  | nil => exact absurd rfl hcs
  | cons c cs => rw [Piece.cut, h, List.take_succ_cons, List.drop_succ_cons]

lemma cut_of_none (h : ∀ rule n, Rule.first? (c :: cs) ≠ some (rule, n + 1)) :
    Piece.cut (c :: cs) = ⟨none, [c]⟩ :: Piece.cut cs := by
  rw [Piece.cut]
  split
  · next rule n hfirst => exact absurd hfirst (h rule n)
  · rfl

/-- A text that ends its last line keeps its pieces, but its last separator takes the line ends that
follow. `P` holds of the parts of the text that are yet to be cut. -/
lemma cut_append_of {P : List Char → Prop} {tail : List Char}
    (hfirst : ∀ ds, Ended ds → P ds → Rule.first? (ds ++ tail) = (Rule.first? ds).map fun found =>
      (found.1, if found.2 = ds.length then found.2 + span (· == '\n') tail else found.2))
    (hmatch : ∀ c rest rule n, Rule.first? (c :: rest) = some (rule, n + 1) → P (c :: rest) →
      P (rest.drop n))
    (hskip : ∀ c rest, (∀ rule n, Rule.first? (c :: rest) ≠ some (rule, n + 1)) → P (c :: rest) →
      P rest) (hcs : Ended cs) (hP : P cs) :
    ∃ pieces text, Piece.cut cs = pieces ++ [⟨some .separator, text⟩] ∧
      Piece.cut (cs ++ tail) =
        pieces ++ ⟨some .separator, text ++ tail.take (span (· == '\n') tail)⟩ ::
          Piece.cut (tail.drop (span (· == '\n') tail)) := by
  fun_induction Piece.cut cs with
  | case1 => exact absurd rfl hcs.ne_nil
  | case2 c rest rule n hfound ih =>
    obtain ⟨hle, hlast⟩ := separator_of_first hcs hfound
    rw [List.length_cons] at hle hlast
    by_cases hn : n = rest.length
    · -- The separator at the end of the text takes what line ends follow.
      have hpieces : Piece.cut (rest.drop n) = [] := by
        rw [hn, List.drop_length, Piece.cut]
      refine ⟨[], c :: rest, by rw [hpieces, hn, List.take_length, hlast (by rw [hn])]; rfl, ?_⟩
      have happend : Rule.first? (c :: rest ++ tail) =
          some (rule, n + span (· == '\n') tail + 1) := by
        rw [hfirst _ hcs hP, hfound]
        simp [hn, Nat.add_right_comm]
      rw [cut_of_first happend (by simp), hlast (by rw [hn]), hn]
      simp [List.take_length_add_append, List.drop_length_add_append]
    · have happend : Rule.first? (c :: rest ++ tail) = some (rule, n + 1) := by
        rw [hfirst _ hcs hP, hfound]
        simp [hn]
      have hle : n ≤ rest.length := Nat.le_of_succ_le_succ hle
      have hrest : Ended ((c :: rest).drop (n + 1)) := hcs.drop (by rw [List.length_cons]; omega)
      obtain ⟨pieces, text, hcut, hcut'⟩ := ih hrest (hmatch c rest rule n hfound hP)
      refine ⟨⟨some rule.action, c :: rest.take n⟩ :: pieces, text, by rw [hcut]; rfl, ?_⟩
      rw [cut_of_first happend (by simp), List.cons_append, List.take_succ_cons,
        List.drop_succ_cons, List.take_append_of_le_length hle, List.drop_append_of_le_length hle,
        hcut', List.cons_append]
  | case3 c rest hnone ih =>
    have hne : rest ≠ [] := by
      rintro rfl
      obtain rfl : c = '\n' := by simpa [Ended] using hcs
      exact hnone _ _ rfl
    have hrest : Ended rest := hcs.suffix (List.suffix_cons c rest) hne
    obtain ⟨pieces, text, hcut, hcut'⟩ := ih hrest (hskip c rest (fun rule n => hnone rule n) hP)
    refine ⟨⟨none, [c]⟩ :: pieces, text, by rw [hcut]; rfl, ?_⟩
    rw [List.cons_append, cut_of_none, hcut', List.cons_append]
    intro rule n hfound
    rw [← List.cons_append, hfirst _ hcs hP] at hfound
    obtain ⟨⟨rule', m⟩, hm, heq⟩ := Option.map_eq_some_iff.mp hfound
    cases m with
    | zero => simp at heq
    | succ m => exact hnone rule' m hm

lemma cut_append {tail : List Char} (hcs : Ended cs) (htail : Inert tail) :
    ∃ pieces text, Piece.cut cs = pieces ++ [⟨some .separator, text⟩] ∧
      Piece.cut (cs ++ tail) =
        pieces ++ ⟨some .separator, text ++ tail.take (span (· == '\n') tail)⟩ ::
          Piece.cut (tail.drop (span (· == '\n') tail)) :=
  cut_append_of (P := fun _ => True) (fun _ hds _ => first_append hds htail)
    (fun _ _ _ _ _ _ => trivial) (fun _ _ _ _ => trivial) hcs trivial

lemma cut_word {w rest : List Char} (hw : Wordy w) (hrest : Apart rest)
    (hfirst : Rule.first? w = some (rule, w.length)) :
    Piece.cut (w ++ rest) = ⟨some rule.action, w⟩ :: Piece.cut rest := by
  obtain ⟨c, cs, rfl⟩ := List.exists_cons_of_ne_nil hw.ne_nil
  rw [List.length_cons] at hfirst
  rw [cut_of_first ((first_word hw hrest).trans hfirst) (by simp)]
  simp

lemma cut_blank (hc : Text.isWord c = true) :
    Piece.cut (' ' :: c :: cs) = ⟨some .skip, [' ']⟩ :: Piece.cut (c :: cs) := by
  have hspan : span Pattern.isSpace (' ' :: c :: cs) = 1 := by
    simp [span, not_isSpace_of_isWord hc, show Pattern.isSpace ' ' = true from rfl]
  have hfirst : Rule.first? (' ' :: c :: cs) = some (⟨.many Pattern.isSpace, .skip⟩, 0 + 1) := by
    simp [Rule.first?, Rule.table, Rule.leading, Pattern.many, hspan]
  rw [cut_of_first hfirst (by simp)]
  rfl

lemma cut_line (cs : List Char) :
    Piece.cut ('\n' :: cs) = ⟨some .separator, '\n' :: cs.take (span (· == '\n') cs)⟩ ::
      Piece.cut (cs.drop (span (· == '\n') cs)) := by
  have hspan : span (· == '\n') ('\n' :: cs) = span (· == '\n') cs + 1 := by
    simp [span]
  have hfirst : Rule.first? ('\n' :: cs) =
      some (⟨.many (· == '\n'), .separator⟩, span (· == '\n') cs + 1) := by
    have hspace : Pattern.many Pattern.isSpace ('\n' :: cs) = none := rfl
    have hlines : Pattern.many (· == '\n') ('\n' :: cs) = some (span (· == '\n') cs + 1) := by
      rw [Pattern.many, hspan]
    simp [Rule.first?, Rule.table, Rule.leading, hspace, hlines, lineComment_cons,
      blockComment_cons, semicolonBreak_cons, Pattern.one]
  rw [cut_of_first hfirst (by simp), List.take_succ_cons, List.drop_succ_cons]

end Cutting

section Reading

lemma after_shifted (lines : Nat) (p : Position) (cs : List Char) :
    (p.shifted lines).after cs = (p.after cs).shifted lines := by
  induction cs generalizing p with
  | nil => rfl
  | cons c cs ih =>
    have hnext : (p.shifted lines).next c = (p.next c).shifted lines := by
      unfold Position.next Position.shifted
      split
      · simp [Nat.add_right_comm]
      · rfl
    simp only [Position.after, List.foldl_cons, hnext] at ih ⊢
    exact ih _

lemma after_append (p : Position) (cs ds : List Char) :
    p.after (cs ++ ds) = (p.after cs).after ds :=
  List.foldl_append

/-- What is read of a piece, some lines further down. -/
def shiftedItem (lines : Nat) : Except ScanError Token → Except ScanError Token
  | .ok token => .ok (token.shifted lines)
  | .error e => .error (e.shifted lines)

lemma read_shifted (lines : Nat) (piece : Piece) (afterToken : Bool) (p : Position) :
    piece.read afterToken (p.shifted lines) =
      (piece.read afterToken p).map (shiftedItem lines) := by
  obtain ⟨action, text⟩ := piece
  cases action with
  | none => rfl
  | some action =>
    cases action with
    | separator => cases afterToken <;> rfl
    | number =>
      simp only [Piece.read]
      cases Decimal.read? (text.filter (· != '_')) <;> rfl
    | skip | quoted | raw | operator | token => rfl

lemma readAll_shifted (lines : Nat) (pieces : List Piece) (afterToken : Bool) (p : Position) :
    Piece.readAll afterToken (p.shifted lines) pieces =
      (Piece.readAll afterToken p pieces).map (shiftedItem lines) := by
  induction pieces generalizing afterToken p with
  | nil => rfl
  | cons piece pieces ih =>
    simp only [Piece.readAll, read_shifted, after_shifted]
    rcases piece.read afterToken p with _ | _ | token
    · exact ih _ _
    · exact congrArg _ (ih _ _)
    · exact congrArg _ (ih _ _)

/-- Two things read of a piece: tokens that differ at most in their line ends, or one error. -/
inductive StretchedItem : Except ScanError Token → Except ScanError Token → Prop
  | token {a b : Token} (h : a.Stretched b) : StretchedItem (.ok a) (.ok b)
  | error (e : ScanError) : StretchedItem (.error e) (.error e)

lemma readAll_append (afterToken : Bool) (p : Position) (earlier : List Piece) :
    ∃ items awaiting, ∀ later, Piece.readAll afterToken p (earlier ++ later) =
      items ++ Piece.readAll awaiting (p.after (earlier.flatMap Piece.text)) later := by
  induction earlier generalizing afterToken p with
  | nil => exact ⟨[], afterToken, fun _ => rfl⟩
  | cons piece earlier ih =>
    simp only [List.cons_append, List.flatMap_cons, after_append, Piece.readAll]
    rcases piece.read afterToken p with _ | e | token
    · exact ih _ _
    · obtain ⟨items, awaiting, hitems⟩ := ih afterToken (p.after piece.text)
      exact ⟨.error e :: items, awaiting, fun later => congrArg _ (hitems later)⟩
    · obtain ⟨items, awaiting, hitems⟩ := ih (token.kind != .separator) (p.after piece.text)
      exact ⟨.ok token :: items, awaiting, fun later => congrArg _ (hitems later)⟩

lemma stretchedItem_refl (item : Except ScanError Token) : StretchedItem item item := by
  cases item with
  | ok token => exact .token ⟨rfl, fun _ => rfl⟩
  | error e => exact .error e

/-- Reading a text that ends with a separator, with more line ends and other pieces behind it. -/
lemma readAll_stretched (pieces : List Piece) (afterToken : Bool) (p : Position)
    (text run : List Char) (others : List Piece) :
    ∃ items, Piece.readAll afterToken p (pieces ++ ⟨some .separator, text ++ run⟩ :: others) =
        items ++ Piece.readAll false (p.after (pieces.flatMap Piece.text ++ (text ++ run))) others ∧
      List.Forall₂ StretchedItem
        (Piece.readAll afterToken p (pieces ++ [⟨some .separator, text⟩])) items := by
  obtain ⟨items, awaiting, hitems⟩ := readAll_append afterToken p pieces
  have hsame : List.Forall₂ StretchedItem items items :=
    List.forall₂_same.mpr fun item _ => stretchedItem_refl item
  rw [hitems, hitems, after_append]
  cases awaiting with
  | false =>
    refine ⟨items, rfl, ?_⟩
    change List.Forall₂ StretchedItem (items ++ []) items
    rwa [List.append_nil]
  | true =>
    let separator : Token := ⟨.separator, .generic, String.ofList (text ++ run), none,
      p.after (pieces.flatMap Piece.text)⟩
    refine ⟨items ++ [.ok separator], ?_, List.rel_append hsame (.cons ?_ .nil)⟩
    · rw [List.append_assoc]
      rfl
    · exact .token ⟨rfl, fun h => absurd rfl h⟩

lemma readAll_lines (q : Position) (cs : List Char) :
    Piece.readAll false q (Piece.cut cs) =
      Piece.readAll false (q.after (cs.take (span (· == '\n') cs)))
        (Piece.cut (cs.drop (span (· == '\n') cs))) := by
  by_cases hcs : cs.head? = some '\n'
  · obtain ⟨ds, rfl⟩ := List.head?_eq_some_iff.mp hcs
    have hspan : span (· == '\n') ('\n' :: ds) = span (· == '\n') ds + 1 := by
      simp [span]
    rw [cut_line, hspan, List.take_succ_cons, List.drop_succ_cons]
    rfl
  · have hspan : span (· == '\n') cs = 0 := by
      cases cs with
      | nil => rfl
      | cons c cs => simpa [span] using hcs
    simp [hspan, Position.after]

lemma readAll_line (p : Position) (cs : List Char) :
    ∃ separator : Token, separator.kind = .separator ∧
      Piece.readAll true p (Piece.cut ('\n' :: cs)) =
        .ok separator :: Piece.readAll false (p.next '\n') (Piece.cut cs) := by
  rw [cut_line, readAll_lines]
  exact ⟨⟨.separator, .generic, _, none, p⟩, rfl, rfl⟩

end Reading

section Names

lemma read_token {piece : Piece} {afterToken : Bool} {p : Position}
    (h : piece.read afterToken p = some (.ok token)) :
    piece.action.bind Action.kind? = some token.kind ∧ token.lexeme = String.ofList piece.text := by
  unfold Piece.read at h
  grind [Action.kind?]

lemma read_of_mem {pieces : List Piece} {afterToken : Bool} {p : Position}
    (h : .ok token ∈ Piece.readAll afterToken p pieces) :
    ∃ piece ∈ pieces, ∃ afterToken p, piece.read afterToken p = some (.ok token) := by
  induction pieces generalizing afterToken p with
  | nil => cases h
  | cons piece pieces ih =>
    have hrest : ∀ b, .ok token ∈ Piece.readAll b (p.after piece.text) pieces →
        ∃ piece' ∈ piece :: pieces, ∃ afterToken p,
          piece'.read afterToken p = some (.ok token) := by
      intro b hb
      obtain ⟨piece', hmem, hpiece⟩ := ih hb
      exact ⟨piece', List.mem_cons_of_mem piece hmem, hpiece⟩
    simp only [Piece.readAll] at h
    split at h
    · exact hrest _ h
    · exact hrest _ (by simpa using h)
    · next token' hread =>
      rcases List.mem_cons.mp h with heq | h
      · cases heq
        exact ⟨piece, List.mem_cons_self, afterToken, p, hread⟩
      · exact hrest _ h

lemma first_of_mem_cut {piece : Piece} {action : Action} (h : piece ∈ Piece.cut cs)
    (haction : piece.action = some action) :
    ∃ ds rule n, Rule.first? ds = some (rule, n) ∧ rule.action = action ∧
      piece.text = ds.take n := by
  fun_induction Piece.cut cs with
  | case1 => cases h
  | case2 c rest rule n hfirst ih =>
    rcases List.mem_cons.mp h with rfl | h
    · exact ⟨c :: rest, rule, n + 1, hfirst, Option.some.inj haction, rfl⟩
    · exact ih h
  | case3 c rest hnone ih =>
    rcases List.mem_cons.mp h with rfl | h
    · cases haction
    · exact ih h

lemma leading_no_name : ∀ rule ∈ Rule.leading, rule.action.kind? ≠ some .name := by
  simp [Rule.leading, Action.kind?]

lemma table_name : ∀ rule ∈ Rule.table, rule.action.kind? = some .name →
    rule = ⟨.many Text.isWord, .token .name .name none⟩ := by
  refine table_cases (fun rule hrule h => absurd h (leading_no_name rule hrule)) ?_ ?_ ?_
  · simp [Rule.keyword, Action.kind?]
  · simp [Rule.constants, Rule.constant, Action.kind?]
  · simp [Rule.trailing, Rule.punctuation, Action.kind?]

/-- Where the rule of names matches, no rule before the words does. -/
lemma leading_none (h : Rule.first? cs = some (rule, n)) (hname : rule.action.kind? = some .name) :
    ∀ rule ∈ Rule.leading, rule.pattern cs = none := by
  cases hfound : Rule.leading.findSome? fun rule => (rule.pattern cs).map fun n => (rule, n) with
  | none => exact fun rule hrule => by simpa using List.findSome?_eq_none_iff.mp hfound rule hrule
  | some found =>
    have hfirst : Rule.first? cs = some found := by
      unfold Rule.first? Rule.table
      simp only [List.findSome?_append, hfound, Option.some_or]
    obtain ⟨rule', hrule', hmatch⟩ := List.exists_of_findSome?_eq_some hfound
    obtain ⟨m, -, rfl⟩ := Option.map_eq_some_iff.mp hmatch
    obtain ⟨rfl, -⟩ := Prod.mk.inj (Option.some.inj (hfirst.symm.trans h))
    exact absurd hname (leading_no_name rule' hrule')

lemma apart_dropWhile (cs : List Char) : Apart (cs.dropWhile Text.isWord) := by
  have hhead := List.head?_dropWhile_not Text.isWord cs
  unfold Apart
  cases hrest : (cs.dropWhile Text.isWord).head? with
  | none => rfl
  | some c => simpa [hrest] using hhead

lemma exists_word (cs : List Char) :
    ∃ w rest, cs = w ++ rest ∧ (∀ c ∈ w, Text.isWord c = true) ∧ Apart rest :=
  ⟨cs.takeWhile Text.isWord, cs.dropWhile Text.isWord, List.takeWhile_append_dropWhile.symm,
    fun _ hc => List.mem_takeWhile_imp hc, apart_dropWhile cs⟩

lemma isName_of_first (h : Rule.first? cs = some (rule, n))
    (hname : rule.action.kind? = some .name) : IsName (cs.take n) := by
  obtain ⟨hrule, hm⟩ := match_of_first h
  obtain rfl := table_name rule hrule hname
  have hnumber := leading_none h hname ⟨.number, .number⟩ (by simp [Rule.leading])
  obtain ⟨w, rest, rfl, hw, hrest⟩ := exists_word cs
  simp only [Pattern.many, span_word hw hrest] at hm
  cases w with
  | nil => cases hm
  | cons c w =>
    cases hm
    have hdigit : c.isDigit = false := by
      simpa [Pattern.number] using hnumber
    rw [← List.length_cons, List.take_left]
    have hwordy : Wordy (c :: w) :=
      ⟨by simp, fun h => by simpa [← Option.some.inj h] using hdigit, hw _⟩
    exact ⟨hwordy, (first_word hwordy hrest).symm.trans h⟩

/-- Every token of a text is read from the match of a rule. -/
lemma read_of_scan {text : String} (h : token ∈ (scan text).tokens) :
    ∃ cs rule n afterToken p, Rule.first? cs = some (rule, n) ∧
      Piece.read ⟨some rule.action, cs.take n⟩ afterToken p = some (.ok token) := by
  obtain ⟨item, hitem, hok⟩ := List.mem_filterMap.mp h
  obtain rfl : item = .ok token := by
    cases item with
    | error => cases hok
    | ok => exact congrArg Except.ok (Option.some.inj hok)
  obtain ⟨⟨action, taken⟩, hpiece, afterToken, p, hread⟩ := read_of_mem hitem
  cases action with
  | none => cases hread
  | some action =>
    obtain ⟨cs, rule, n, hfirst, rfl, rfl⟩ := first_of_mem_cut hpiece rfl
    exact ⟨cs, rule, n, afterToken, p, hfirst, hread⟩

/-- Every token of a name is scanned from a text that is a name wherever it stands. -/
lemma isName_of_scan {text : String} (h : token ∈ (scan text).tokens) (hkind : token.kind = .name) :
    IsName token.lexeme.toList := by
  obtain ⟨cs, rule, n, _, _, hfirst, hread⟩ := read_of_scan h
  obtain ⟨hmakes, hlexeme⟩ := read_token hread
  rw [hlexeme, String.toList_ofList]
  exact isName_of_first hfirst (hmakes.trans (congrArg some hkind))

end Names

section Wrapping

lemma scan_tokens (text : String) :
    (scan text).tokens =
      (Piece.readAll false .start (Piece.cut (endLine text.toList))).filterMap
        fun item => item.toOption :=
  rfl

lemma open_cons {tokens : List Token} (h : Open tokens) : Open (token :: tokens) := by
  obtain ⟨last, hlast, hkind⟩ := h
  exact ⟨last, by simp [List.getLast?_cons, Option.mem_def.mp hlast], hkind⟩

lemma open_readAll (pieces : List Piece) (afterToken : Bool) (p : Position) (text : List Char)
    {tokens : List Token}
    (htokens : tokens = (Piece.readAll afterToken p (pieces ++ [⟨some .separator, text⟩])).filterMap
      fun item => item.toOption) :
    afterToken = false ∧ tokens = [] ∨ Open tokens := by
  induction pieces generalizing afterToken p tokens with
  | nil =>
    cases afterToken with
    | false => exact .inl ⟨rfl, htokens⟩
    | true => exact .inr (htokens ▸ ⟨_, rfl, rfl⟩)
  | cons piece pieces ih =>
    simp only [List.cons_append, Piece.readAll] at htokens
    split at htokens
    · exact ih _ _ htokens
    · exact ih _ _ (htokens.trans (List.filterMap_cons_none rfl))
    · next token hread =>
      replace htokens := htokens.trans (List.filterMap_cons_some rfl)
      right
      rcases ih (token.kind != .separator) (p.after piece.text) rfl with ⟨hseparator, hnil⟩ | hopen
      · rw [htokens, hnil]
        exact ⟨token, rfl, by simpa using hseparator⟩
      · rw [htokens]
        exact open_cons hopen

lemma ended_endLine (cs : List Char) : Ended (endLine cs) := by
  unfold endLine
  split
  · assumption
  · simp [Ended]

/-- The tokens of a text end with a separator, if there are any. -/
lemma closed_scan (text : String) : (scan text).tokens = [] ∨ Open (scan text).tokens := by
  obtain ⟨pieces, last, hcut, -⟩ :=
    cut_append (ended_endLine text.toList) inert_nil
  have htokens := scan_tokens text
  rw [hcut] at htokens
  exact (open_readAll pieces false .start last htokens).imp_left And.right

lemma wrap_toList (name source : String) :
    ∃ tail, Inert tail ∧ tail.drop (span (· == '\n') tail) = "endmodule\n".toList ∧
      endLine (SourceUnit.wrap name source).toList =
        "module".toList ++ ' ' :: (name.toList ++ '\n' :: (endLine source.toList ++ tail)) := by
  have hwrap : endLine (SourceUnit.wrap name source).toList =
      "module".toList ++ ' ' :: (name.toList ++ '\n' ::
        (source.toList ++ '\n' :: "endmodule\n".toList)) := by
    rw [endLine, if_pos]
    · simp [SourceUnit.wrap]
    · simp [SourceUnit.wrap, List.getLast?_cons, List.getLast?_append]
  have hinert : Inert ('\n' :: "endmodule\n".toList) := by
    simp [Inert, Pattern.apostrophe, Pattern.backtick]
  by_cases hsource : source.toList.getLast? = some '\n'
  · refine ⟨'\n' :: "endmodule\n".toList, hinert, rfl, ?_⟩
    rw [hwrap, endLine, if_pos hsource]
  · refine ⟨"endmodule\n".toList, hinert.tail, rfl, ?_⟩
    rw [hwrap, endLine, if_neg hsource]
    simp

lemma after_lines (p : Position) (cs : List Char) :
    (p.after cs).next '\n' = ⟨p.line + cs.count '\n' + 1, 1⟩ := by
  induction cs generalizing p with
  | nil => rfl
  | cons c cs ih =>
    have hline : (p.next c).line + cs.count '\n' = p.line + (c :: cs).count '\n' := by
      unfold Position.next
      by_cases hc : c = '\n'
      · simp [hc]
        omega
      · simp [hc]
    rw [← hline]
    exact ih (p.next c)

def problem : Except ScanError Token → Option ScanError
  | .error e => some e
  | .ok _ => none

lemma scan_errors (text : String) :
    (scan text).errors =
      (Piece.readAll false .start (Piece.cut (endLine text.toList))).filterMap problem := by
  refine congrArg (List.filterMap · _) (funext fun item => ?_)
  cases item <;> rfl

lemma stretched_tokens {items items' : List (Except ScanError Token)}
    (h : List.Forall₂ StretchedItem items items') :
    List.Forall₂ Token.Stretched (items.filterMap fun item => item.toOption)
      (items'.filterMap fun item => item.toOption) := by
  induction h with
  | nil => exact .nil
  | cons hitem _ ih =>
    cases hitem with
    | token hstretched => exact .cons hstretched ih
    | error => exact ih

lemma stretched_errors {items items' : List (Except ScanError Token)}
    (h : List.Forall₂ StretchedItem items items') :
    items'.filterMap problem = items.filterMap problem := by
  induction h with
  | nil => rfl
  | cons hitem _ ih =>
    cases hitem with
    | token => exact ih
    | error e => exact congrArg (e :: ·) ih

lemma shifted_tokens (lines : Nat) (items : List (Except ScanError Token)) :
    (items.map (shiftedItem lines)).filterMap (fun item => item.toOption) =
      (items.filterMap fun item => item.toOption).map (Token.shifted lines) := by
  rw [List.filterMap_map, List.map_filterMap]
  congr 1
  funext item
  cases item <;> rfl

lemma shifted_errors (lines : Nat) (items : List (Except ScanError Token)) :
    (items.map (shiftedItem lines)).filterMap problem =
      (items.filterMap problem).map (ScanError.shifted lines) := by
  rw [List.filterMap_map, List.map_filterMap]
  congr 1
  funext item
  cases item <;> rfl

lemma apart_cons (h : Text.isWord c = false) : Apart (c :: cs) :=
  h

def keywordPiece (spelling : String) (word : Keyword) : Piece :=
  ⟨some (Rule.keyword spelling word).action, spelling.toList⟩

lemma cut_module {rest : List Char} (hrest : Apart rest) :
    Piece.cut ("module".toList ++ rest) = keywordPiece "module" .moduleWord :: Piece.cut rest :=
  cut_word (wordy_of_isLower (by simp) rfl) hrest rfl

lemma cut_endmodule : Piece.cut "endmodule\n".toList =
    [keywordPiece "endmodule" .endModule, ⟨some .separator, ['\n']⟩] := by
  have hword : Piece.cut ("endmodule".toList ++ ['\n']) =
      keywordPiece "endmodule" .endModule :: Piece.cut ['\n'] :=
    cut_word (wordy_of_isLower (by simp) rfl) (apart_cons rfl) rfl
  have hline : Piece.cut ['\n'] = ⟨some .separator, ['\n']⟩ :: Piece.cut [] := cut_line []
  rw [Piece.cut] at hline
  exact hword.trans (congrArg _ hline)

section NamedLine

variable {spelling name : String} {word : Keyword} (hspelling : Wordy spelling.toList)
  (hname : IsName name.toList)

include hspelling hname

lemma cut_first_line (hfirst : Rule.first? spelling.toList =
      some (Rule.keyword spelling word, spelling.toList.length)) (rest : List Char) :
    Piece.cut (spelling.toList ++ ' ' :: (name.toList ++ '\n' :: rest)) =
      keywordPiece spelling word :: ⟨some .skip, [' ']⟩ ::
        ⟨some (.token .name .name none), name.toList⟩ :: Piece.cut ('\n' :: rest) := by
  obtain ⟨c, w, hw⟩ := List.exists_cons_of_ne_nil hname.ne_nil
  have hc : Text.isWord c = true := hname.isWord (by simp [hw])
  rw [cut_word hspelling (apart_cons (c := ' ') rfl) hfirst, hw, List.cons_append, cut_blank hc,
    ← List.cons_append, ← hw, cut_word hname.toWordy (apart_cons (c := '\n') rfl) hname.first]
  rfl

lemma after_first_line :
    ((Position.start.after spelling.toList).after (' ' :: name.toList)).next '\n' =
      Position.start.shifted 1 := by
  have hword {w : List Char} (hw : Wordy w) : '\n' ∉ w :=
    fun h => ne_of_isWord (hw.isWord h) (by decide) rfl
  have hline : '\n' ∉ spelling.toList ++ ' ' :: name.toList := by
    simpa using ⟨hword hspelling, hword hname.toWordy⟩
  rw [← after_append, after_lines, List.count_eq_zero_of_not_mem hline]
  rfl

end NamedLine

/-- The tokens of a module whose body has the tokens `body`. -/
inductive Framed (name : String) (body : List Token) : List Token → Prop
  | mk {keyword name' sep last sep' : Token} (hkeyword : keyword.kind = .keyword .moduleWord)
      (hkind : name'.kind = .name) (hname : name'.lexeme = name) (hsep : sep.kind = .separator)
      (hlast : last.kind = .keyword .endModule) (hsep' : sep'.kind = .separator) :
      Framed name body (keyword :: name' :: sep :: (body ++ [last, sep']))

/-- The scan of a text between the lines of its module. Whatever the text leaves open, it takes
nothing of these lines. -/
lemma scan_wrap {name : String} (hname : IsName name.toList) (source : String) :
    ∃ body, Framed name body (scan (SourceUnit.wrap name source)).tokens ∧
      List.Forall₂ Token.Lowered (scan source).tokens body ∧
      ((scan (SourceUnit.wrap name source)).errors = [] ↔ (scan source).errors = []) := by
  obtain ⟨tail, hinert, htail, htext⟩ := wrap_toList name source
  have hmodule : Wordy "module".toList := wordy_of_isLower (by simp) rfl
  obtain ⟨pieces, text, hcut, hcut'⟩ := cut_append (ended_endLine source.toList) hinert
  obtain ⟨sep, hsep, hsecond⟩ :=
    readAll_line ((Position.start.after "module".toList).after (' ' :: name.toList))
      (endLine source.toList ++ tail)
  obtain ⟨items, hitems, hstretched⟩ := readAll_stretched pieces false (Position.start.shifted 1)
    text (tail.take (span (· == '\n') tail)) (Piece.cut (tail.drop (span (· == '\n') tail)))
  rw [after_first_line hmodule hname, hcut', hitems, htail, cut_endmodule] at hsecond
  rw [← hcut, readAll_shifted] at hstretched
  have hread : ∃ keyword name' last sep' : Token,
      Piece.readAll false .start (Piece.cut (endLine (SourceUnit.wrap name source).toList)) =
        .ok keyword :: .ok name' :: .ok sep :: (items ++ [.ok last, .ok sep']) ∧
      keyword.kind = .keyword .moduleWord ∧ name'.kind = .name ∧ name'.lexeme = name ∧
      last.kind = .keyword .endModule ∧ sep'.kind = .separator := by
    rw [htext, cut_first_line hmodule hname rfl]
    exact ⟨_, _, _, _, congrArg (fun rest => _ :: _ :: rest) hsecond, rfl, rfl,
      String.ofList_toList, rfl, rfl⟩
  obtain ⟨keyword, name', last, sep', hread, hkeyword, hkind, hlexeme, hlast, hsep'⟩ := hread
  have hlowered := stretched_tokens hstretched
  rw [shifted_tokens, ← scan_tokens, List.forall₂_map_left_iff] at hlowered
  have herrors := stretched_errors hstretched
  rw [shifted_errors, ← scan_errors] at herrors
  refine ⟨_, ?_, hlowered, ?_⟩
  · have htokens : (scan (SourceUnit.wrap name source)).tokens =
        keyword :: name' :: sep ::
          ((items.filterMap fun item => item.toOption) ++ [last, sep']) := by
      simp [scan_tokens, hread, Except.toOption]
    rw [htokens]
    exact .mk hkeyword hkind hlexeme hsep hlast hsep'
  · have hsame : (scan (SourceUnit.wrap name source)).errors =
        (scan source).errors.map (ScanError.shifted 1) := by
      rw [scan_errors, hread, ← herrors]
      simp [List.filterMap_cons, problem]
    rw [hsame, List.map_eq_nil_iff]

/-- Whatever its name is, a module starts with its keyword. -/
lemma wrap_starts (name source : String) :
    ∃ keyword rest, (scan (SourceUnit.wrap name source)).tokens = keyword :: rest ∧
      keyword.kind = .keyword .moduleWord := by
  obtain ⟨tail, -, -, htext⟩ := wrap_toList name source
  rw [scan_tokens, htext, cut_module (apart_cons (c := ' ') rfl)]
  exact ⟨_, _, rfl, rfl⟩

end Wrapping

end Proofs

end XBase
