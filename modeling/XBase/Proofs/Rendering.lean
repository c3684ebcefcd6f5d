import Mathlib.Data.List.Perm.Subperm
import Mathlib.Logic.Relation
import XBase.Heap.Display

/-!
# The text of values that contain each other

A container is written in full unless it is met inside itself, where a sign stands for it. A path of
containers that are written inside each other holds each of them once, and there are finitely many.
So the bound on the nesting is never what ends a text, however the containers of a heap contain each
other, and where none contains itself there is no such sign.
-/

namespace XBase

def Value.container? : Value → Option Container
  | .array id => some (.array id)
  | .scope id => some (.scope id)
  | _ => none

namespace Container

/-- The sign for a container that is met inside itself. -/
def cut : Container → String
  | array _ => "[...]"
  | scope _ => "\x7b...\x7d"

/-- The texts of the parts of a container, put together. -/
def enclose (texts : List String) : Container → String
  | array _ => "[" ++ String.intercalate ", " texts ++ "]"
  | scope _ => "\x7b" ++ String.intercalate ", " texts ++ "\x7d"

end Container

namespace Heap

variable (heap : Heap)

/-- What a container contains, each part with what is written before it. -/
def parts : Container → List (String × Value)
  | .array id => (heap.elements id).toList.map fun value => ("", value)
  | .scope id => (heap.entries id).map fun entry => (entry.1 ++ ":", entry.2.value)

def Contains (outer inner : Container) : Prop :=
  ∃ part ∈ heap.parts outer, part.2.container? = some inner

/-- No container contains itself, directly or through others. -/
def Acyclic : Prop :=
  ∀ container, ¬ Relation.TransGen heap.Contains container container

/-- The text of a value inside the containers of a path, written with no more than so many levels of
nesting: a container is cut exactly if it is one of those that it is inside of. -/
inductive Written : Nat → List Container → Value → String → Prop
  | scalar {levels : Nat} {path : List Container} {value : Value} (hvalue : value.container? = none) :
      Written (levels + 1) path value (heap.render 0 [] value)
  | cut {levels : Nat} {path : List Container} {value : Value} {container : Container}
      (hvalue : value.container? = some container) (hmet : container ∈ path) :
      Written (levels + 1) path value container.cut
  | full {levels : Nat} {path : List Container} {value : Value} {container : Container}
      (write : Value → String) (hvalue : value.container? = some container)
      (hnew : container ∉ path)
      (hparts : ∀ part ∈ heap.parts container,
        Written levels (container :: path) part.2 (write part.2)) :
      Written (levels + 1) path value
        (container.enclose ((heap.parts container).map fun part => part.1 ++ write part.2))

/-- The text of a value with every container in it written in full. -/
inductive Plain : Value → String → Prop
  | scalar {value : Value} (hvalue : value.container? = none) :
      Plain value (heap.render 0 [] value)
  | full {value : Value} {container : Container} (write : Value → String)
      (hvalue : value.container? = some container)
      (hparts : ∀ part ∈ heap.parts container, Plain part.2 (write part.2)) :
      Plain value
        (container.enclose ((heap.parts container).map fun part => part.1 ++ write part.2))

/-- The text of a value, with one path for all containers: a container is added to it before its
parts are written and taken from it after them. -/
def renderTracking : Nat → Value → StateM (List Container) String
  | depth, value => do
    match value.container? with
    | none => return heap.render 0 [] value
    | some container =>
      if container ∈ (← MonadState.get) then return container.cut
      else
        match depth with
        | 0 => return container.cut
        | depth + 1 =>
          modify (container :: ·)
          let texts ← (heap.parts container).mapM fun part =>
            (part.1 ++ ·) <$> renderTracking depth part.2
          modify List.tail
          return container.enclose texts

end Heap

namespace Proofs

section Paths

def allContainers (heap : Heap) : List Container :=
  (List.range heap.arrays.size).map .array ++ (List.range heap.scopes.size).map .scope

lemma length_allContainers (heap : Heap) : (allContainers heap).length = heap.containers := by
  simp [allContainers, Heap.containers]

lemma mem_allContainers {heap : Heap} {container : Container} {part : String × Value}
    (hpart : part ∈ heap.parts container) : container ∈ allContainers heap := by
  by_contra h
  cases container with
  | array id =>
    have hid : ¬ id < heap.arrays.size := by simpa [allContainers] using h
    simp [Heap.parts, Heap.elements, Array.getD, hid] at hpart
  | scope id =>
    have hid : ¬ id < heap.scopes.size := by simpa [allContainers] using h
    simp [Heap.parts, Heap.entries, hid] at hpart

/-- A path of different containers is no longer than there are containers. -/
lemma path_length_le (heap : Heap) (path : List Container) (hnodup : path.Nodup)
    (hin : path ⊆ allContainers heap) : path.length ≤ heap.containers := by
  rw [← length_allContainers]
  exact (hnodup.subperm hin).length_le

end Paths

section Texts

variable {heap : Heap} {depth : Nat} {path : List Container} {value : Value}
  {container : Container}

lemma render_scalar (hvalue : value.container? = none) :
    heap.render depth path value = heap.render 0 [] value := by
  cases value with
  | array id => cases hvalue
  | scope id => cases hvalue
  | _ => simp only [Heap.render]

lemma render_cut (hvalue : value.container? = some container)
    (h : container ∈ path ∨ depth = 0) : heap.render depth path value = container.cut := by
  cases value with
  | array id =>
    cases hvalue
    rw [Heap.render.eq_def]
    rcases h with h | rfl <;> simp [Container.cut, *]
  | scope id =>
    cases hvalue
    rw [Heap.render.eq_def]
    rcases h with h | rfl <;> simp [Container.cut, *]
  | _ => cases hvalue

lemma render_full (hvalue : value.container? = some container) (hnew : container ∉ path) :
    heap.render (depth + 1) path value = container.enclose ((heap.parts container).map fun part =>
      part.1 ++ heap.render depth (container :: path) part.2) := by
  cases value with
  | array id =>
    cases hvalue
    simp [Heap.render, Container.enclose, Heap.parts, hnew, Function.comp_def]
  | scope id =>
    cases hvalue
    simp [Heap.render, Container.enclose, Heap.parts, hnew, Function.comp_def]
  | _ => cases hvalue

/-- With room for one level more than there are containers, a text needs no bound. -/
lemma render_written (hnodup : path.Nodup) (hin : path ⊆ allContainers heap)
    (hdepth : heap.containers < depth + path.length) :
    heap.Written depth path value (heap.render depth path value) := by
  induction depth generalizing path value with
  | zero =>
    have hle := path_length_le heap path hnodup hin
    omega
  | succ depth ih =>
    cases hvalue : value.container? with
    | none =>
      rw [render_scalar hvalue]
      exact .scalar hvalue
    | some container =>
      by_cases hmet : container ∈ path
      · rw [render_cut hvalue (.inl hmet)]
        exact .cut hvalue hmet
      · rw [render_full hvalue hmet]
        refine .full (heap.render depth (container :: path)) hvalue hmet fun part hpart => ?_
        -- The container that is opened joins the path, which then has all that is asked for.
        refine ih (List.nodup_cons.mpr ⟨hmet, hnodup⟩)
          (List.cons_subset.mpr ⟨mem_allContainers hpart, hin⟩) ?_
        rw [List.length_cons]
        omega

lemma text_written : heap.Written (heap.containers + 1) [] value (heap.text value) :=
  render_written List.nodup_nil (List.nil_subset _) (Nat.lt_succ_self _)

lemma written_unique {levels levels' : Nat} {text text' : String}
    (h : heap.Written levels path value text) (h' : heap.Written levels' path value text') :
    text = text' := by
  induction h generalizing levels' text' with
  | scalar hvalue =>
    cases h' with
    | scalar _ => rfl
    | cut hvalue' _ => simp [hvalue] at hvalue'
    | full _ hvalue' _ _ => simp [hvalue] at hvalue'
  | cut hvalue hmet =>
    cases h' with
    | scalar hvalue' => simp [hvalue] at hvalue'
    | cut hvalue' _ =>
      cases hvalue.symm.trans hvalue'
      rfl
    | full _ hvalue' hnew _ =>
      cases hvalue.symm.trans hvalue'
      exact absurd hmet hnew
  | full write hvalue hnew _ ih =>
    cases h' with
    | scalar hvalue' => simp [hvalue] at hvalue'
    | cut hvalue' hmet =>
      cases hvalue.symm.trans hvalue'
      exact absurd hmet hnew
    | full write' hvalue' _ hparts' =>
      cases hvalue.symm.trans hvalue'
      congr 1
      exact List.map_congr_left fun part hpart => by rw [ih part hpart (hparts' part hpart)]

/-- The text of a value is complete: with room for more nesting it would be the same. -/
lemma render_eq_text (heap : Heap) (value : Value) (extra : Nat) :
    heap.render (heap.containers + 1 + extra) [] value = heap.text value := by
  have hmore : heap.Written (heap.containers + 1 + extra) [] value _ :=
    render_written List.nodup_nil (List.nil_subset _) (by simp; omega)
  exact written_unique hmore text_written

end Texts

section Cycles

variable {heap : Heap} {value : Value}

/-- Where no container contains itself, none is met inside itself. -/
lemma plain_of_written (hacyclic : heap.Acyclic) {levels : Nat} {path : List Container}
    {text : String} (h : heap.Written levels path value text)
    (hpath : ∀ outer ∈ path, ∀ inner, value.container? = some inner →
      Relation.TransGen heap.Contains outer inner) : heap.Plain value text := by
  induction h with
  | scalar hvalue => exact .scalar hvalue
  | cut hvalue hmet => exact absurd (hpath _ hmet _ hvalue) (hacyclic _)
  | full write hvalue _ _ ih =>
    refine .full write hvalue fun part hpart => ih part hpart fun outer houter inner hinner => ?_
    have hstep : heap.Contains _ inner := ⟨part, hpart, hinner⟩
    rcases List.mem_cons.mp houter with rfl | houter
    · exact .single hstep
    · exact (hpath outer houter _ hvalue).tail hstep

lemma plain_unique {text text' : String} (h : heap.Plain value text)
    (h' : heap.Plain value text') : text = text' := by
  induction h generalizing text' with
  | scalar hvalue =>
    cases h' with
    | scalar _ => rfl
    | full _ hvalue' _ => simp [hvalue] at hvalue'
  | full write hvalue _ ih =>
    cases h' with
    | scalar hvalue' => simp [hvalue] at hvalue'
    | full write' hvalue' hparts' =>
      cases hvalue.symm.trans hvalue'
      congr 1
      exact List.map_congr_left fun part hpart => by rw [ih part hpart (hparts' part hpart)]

end Cycles

section Entries

lemma entries_increasing (heap : Heap) (id : ScopeId) :
    (heap.entries id).Pairwise fun entry later => entry.1 < later.1 := by
  unfold Heap.entries
  cases heap.scopes[id]? with
  | none => exact List.Pairwise.nil
  | some scope =>
    have hordered := Std.TreeMap.ordered_keys_toList (t := scope.bindings)
    exact hordered.imp fun h => compareOfLessAndEq_eq_lt.mp h

lemma mem_entries {heap : Heap} {id : ScopeId} {name : String} {binding : Binding} :
    (name, binding) ∈ heap.entries id ↔ heap.own? id name = some binding := by
  unfold Heap.entries Heap.own?
  cases heap.scopes[id]? with
  | none => simp
  | some scope => simp [Std.TreeMap.mem_toList_iff_getElem?_eq_some]

end Entries

section Tracking

lemma mapM_stays {α β σ : Type} {f : α → StateM σ β} {g : α → β} {s : σ} (xs : List α)
    (h : ∀ x ∈ xs, (f x).run s = (g x, s)) : (xs.mapM f).run s = (xs.map g, s) := by
  induction xs with
  | nil => rfl
  | cons x xs ih =>
    have hxs := ih fun y hy => h y (List.mem_cons_of_mem x hy)
    rw [List.mapM_cons, StateT.run_bind, h x List.mem_cons_self]
    exact congrArg (fun p : List β × σ => (g x :: p.1, p.2)) hxs

/-- The path is what it was before, after any value and so after each part of a container. -/
lemma renderTracking_eq (heap : Heap) (depth : Nat) (path : List Container) (value : Value) :
    (heap.renderTracking depth value).run path = (heap.render depth path value, path) := by
  induction depth generalizing path value with
  | zero =>
    unfold Heap.renderTracking
    cases hvalue : value.container? with
    | none => exact congrArg (·, path) (render_scalar hvalue).symm
    | some container =>
      simp only [render_cut hvalue (.inr rfl), StateT.run_bind, StateT.run_get, pure_bind, ite_self]
      rfl
  | succ depth ih =>
    unfold Heap.renderTracking
    cases hvalue : value.container? with
    | none => exact congrArg (·, path) (render_scalar hvalue).symm
    | some container =>
      by_cases hmet : container ∈ path
      · simp only [render_cut hvalue (.inl hmet), StateT.run_bind, StateT.run_get, pure_bind,
          if_pos hmet]
        rfl
      · rw [render_full hvalue hmet]
        have hparts := mapM_stays (heap.parts container) (s := container :: path)
          (f := fun part => (part.1 ++ ·) <$> heap.renderTracking depth part.2)
          (g := fun part => part.1 ++ heap.render depth (container :: path) part.2)
          fun part _ => by rw [StateT.run_map, ih]; rfl
        simp only [StateT.run_bind, StateT.run_get, pure_bind, if_neg hmet]
        exact congrArg (fun p : List String × _ => (container.enclose p.1, p.2.tail)) hparts

end Tracking

/-- Every value of every heap has one text, whose nesting is bounded by the containers. A container is
cut exactly inside itself, a scope is written with all its names in increasing order, without cycles
nothing is cut, and a path that is kept beside the text is the same after each container. -/
theorem text_cuts_only_cycles (heap : Heap) :
    (∀ value, heap.Written (heap.containers + 1) [] value (heap.text value) ∧
      ∀ levels text, heap.Written levels [] value text → text = heap.text value) ∧
    (heap.Acyclic → ∀ value text, heap.Plain value text ↔ text = heap.text value) ∧
    (∀ id, ((heap.entries id).Pairwise fun entry later => entry.1 < later.1) ∧
      ∀ name binding, (name, binding) ∈ heap.entries id ↔ heap.own? id name = some binding) ∧
    ∀ depth path value,
      (heap.renderTracking depth value).run path = (heap.render depth path value, path) := by
  refine ⟨fun value => ⟨text_written, fun _ _ h => written_unique h text_written⟩, ?_,
    fun id => ⟨entries_increasing heap id, fun _ _ => mem_entries⟩, renderTracking_eq heap⟩
  intro hacyclic value text
  have hplain : heap.Plain value (heap.text value) :=
    plain_of_written hacyclic text_written fun _ houter => absurd houter List.not_mem_nil
  refine ⟨fun h => plain_unique h hplain, ?_⟩
  rintro rfl
  exact hplain

/-- Containers that only contain containers of a lower rank do not contain themselves. -/
lemma acyclic_of_rank {heap : Heap} (rank : Container → Nat)
    (h : ∀ outer ∈ allContainers heap, ∀ part ∈ heap.parts outer, ∀ inner ∈ part.2.container?,
      rank inner < rank outer) : heap.Acyclic := by
  have hstep : ∀ {outer inner}, heap.Contains outer inner → rank inner < rank outer := by
    rintro outer inner ⟨part, hpart, hinner⟩
    exact h outer (mem_allContainers hpart) part hpart inner hinner
  have hreach : ∀ {outer inner}, Relation.TransGen heap.Contains outer inner →
      rank inner < rank outer := by
    intro outer inner hpath
    induction hpath with
    | single hlast => exact hstep hlast
    | tail _ hlast ih => exact Nat.lt_trans (hstep hlast) ih
  exact fun container hcycle => Nat.lt_irrefl _ (hreach hcycle)

/-- An array that holds another one twice. -/
def sharedArrays : Heap :=
  { Heap.empty with arrays := #[#[.boolean true], #[.array 0, .array 0]] }

/-- What is contained twice is written twice. -/
theorem shared_array_written_twice :
    sharedArrays.Acyclic ∧ sharedArrays.Plain (.array 1) "[[true], [true]]" := by
  have hacyclic : sharedArrays.Acyclic := by
    refine acyclic_of_rank (fun container => if container = .array 1 then 1 else 0) ?_
    decide
  refine ⟨hacyclic, ((text_cuts_only_cycles sharedArrays).2.1 hacyclic _ _).mpr ?_⟩
  decide +kernel

end Proofs

end XBase
