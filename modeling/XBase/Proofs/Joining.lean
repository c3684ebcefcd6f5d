import XBase.Proofs.Sequence
import XBase.Proofs.Wrapping

/-!
# The tokens of two texts on end

Two texts with a line end between them are scanned one after the other, as long as the first leaves
neither a quoted text nor a comment open. A quoted text that is left open is an error of the scan. A
comment that is left open is scanned as two operators in a row, which no good program has.
-/

namespace XBase

/-- The lines that a text takes before another text, with a line end between them. -/
def linesBefore (source : String) : Nat :=
  (source ++ "\n").toList.count '\n'

namespace Proofs

open Pattern (span)

variable {cs : List Char} {n : Nat} {pattern : Pattern}

section Openers

lemma commentEnd_keeps (h : Pattern.commentEnd cs = some n) (tail : List Char) :
    Pattern.commentEnd (cs ++ tail) = some n := by
  induction cs generalizing n with
  | nil => cases h
  | cons c cs ih =>
    rw [commentEnd_cons] at h
    rw [List.cons_append, commentEnd_cons]
    split at h
    · next hend =>
      obtain ⟨ds, rfl⟩ := List.head?_eq_some_iff.mp hend.2
      simpa [hend.1] using h
    · next hopen =>
      obtain ⟨m, hm, rfl⟩ := Option.map_eq_some_iff.mp h
      have hhead : (cs ++ tail).head? = cs.head? := by
        cases cs with
        | nil => cases hm
        | cons => rfl
      rw [hhead, if_neg hopen, ih hm]
      rfl

lemma closingQuote_keeps {quote : Char} (hquote : quote ≠ '\\')
    (h : Pattern.closingQuote quote cs = some n) (tail : List Char) :
    Pattern.closingQuote quote (cs ++ tail) = some n := by
  fun_induction Pattern.closingQuote quote cs generalizing n with
  | case1 => cases h
  | case2 c cs ih =>
    obtain ⟨m, hm, rfl⟩ := Option.map_eq_some_iff.mp h
    rw [List.cons_append, List.cons_append, Pattern.closingQuote, ih hm]
    rfl
  | case3 cs => simpa [Pattern.closingQuote, hquote] using h
  | case4 c cs hplain hc ih =>
    obtain ⟨m, hm, rfl⟩ := Option.map_eq_some_iff.mp h
    have hslash : c ≠ '\\' := by
      rintro rfl
      cases cs with
      | nil => cases hm
      | cons d ds => exact hplain d ds rfl rfl
    rw [List.cons_append, Pattern.closingQuote, if_neg hc, ih hm]
    · rfl
    · exact fun _ _ h _ => hslash h

/-- What is closed within a text stays as it is, whatever follows. -/
lemma Opener.keeps (h : Opener pattern) (hmatch : pattern cs = some n) (tail : List Char) :
    pattern (cs ++ tail) = some n := by
  have hquoted (quote : Char) (hquote : quote ≠ '\\') (hmatch : Pattern.quoted quote cs = some n) :
      Pattern.quoted quote (cs ++ tail) = some n := by
    cases cs with
    | nil => cases hmatch
    | cons c cs =>
      simp only [List.cons_append, Pattern.quoted] at hmatch ⊢
      split at hmatch
      · next hc =>
        obtain ⟨m, hm, rfl⟩ := Option.map_eq_some_iff.mp hmatch
        rw [if_pos hc, closingQuote_keeps hquote hm]
        rfl
      · cases hmatch
  cases cs with
  | nil => cases h <;> cases hmatch
  | cons c cs =>
    cases h with
    | comment =>
      rw [List.cons_append, blockComment_cons]
      rw [blockComment_cons] at hmatch
      split at hmatch
      · next hopen =>
        obtain ⟨ds, rfl⟩ := List.head?_eq_some_iff.mp hopen.2
        obtain ⟨m, hm, rfl⟩ := Option.map_eq_some_iff.mp hmatch
        rw [List.tail_cons] at hm
        rw [if_pos ⟨hopen.1, rfl⟩, List.cons_append, List.tail_cons, commentEnd_keeps hm]
        rfl
      · cases hmatch
    | double => exact hquoted _ (by decide) hmatch
    | single => exact hquoted _ (by decide) hmatch
    | raw =>
      simp only [List.cons_append, Pattern.raw] at hmatch ⊢
      split at hmatch
      · next hc =>
        split at hmatch
        · next hlt =>
          have hclosed : Pattern.backtick ∈ cs := by
            by_contra hnone
            have hall : cs.takeWhile (· != Pattern.backtick) = cs :=
              List.takeWhile_eq_self_iff.mpr fun d hd => by
                simpa using ne_of_mem_of_not_mem hd hnone
            simp [span, hall] at hlt
          obtain ⟨heq, -⟩ := span_append tail hclosed (p := (· != Pattern.backtick)) (by simp)
          rw [if_pos hc, heq, if_pos (by rw [List.length_append]; omega)]
          exact hmatch
        · cases hmatch
      · cases hmatch

inductive Mark : Char → Pattern → Prop
  | double : Mark '"' (Pattern.quoted '"')
  | single : Mark Pattern.apostrophe (Pattern.quoted Pattern.apostrophe)
  | raw : Mark Pattern.backtick Pattern.raw

lemma Opener.mark (h : Opener pattern) :
    pattern = Pattern.blockComment ∨ ∃ mark, Mark mark pattern := by
  cases h with
  | comment => exact .inl rfl
  | double => exact .inr ⟨_, .double⟩
  | single => exact .inr ⟨_, .single⟩
  | raw => exact .inr ⟨_, .raw⟩

lemma Mark.none_of_ne {mark c : Char} (h : Mark mark pattern) (hc : c ≠ mark) (cs : List Char) :
    pattern (c :: cs) = none := by
  cases h with
  | double | single => simp [Pattern.quoted, hc]
  | raw => simp [Pattern.raw, hc]

/-- A mark starts nothing but its quoted text. -/
lemma Mark.only {mark : Char} (h : Mark mark pattern) (cs : List Char) :
    ∀ rule ∈ Rule.table, rule.pattern (mark :: cs) ≠ none → rule.pattern = pattern := by
  have hword : Text.isWord mark = false := by
    cases h <;> decide
  have hkeyword (letters : String) (hne : letters.toList ≠ [])
      (hletters : letters.toList.all Char.isLower = true) :
      Pattern.word letters (mark :: cs) = none := by
    obtain ⟨letter, others, hletter⟩ := List.exists_cons_of_ne_nil hne
    have hfolds : Pattern.folds letter mark = false := by
      refine Bool.eq_false_iff.mpr fun hfolds => ?_
      have hlower : letter.isLower = true := List.all_eq_true.mp hletters letter (by simp [hletter])
      exact absurd (isWord_of_folds hlower hfolds) (by simp [hword])
    simp [Pattern.word, hletter, Pattern.spells, hfolds]
  have hequals (p : Char → Bool) (hp : p mark = false) :
      Pattern.withEquals p (mark :: cs) = none := by
    simp [withEquals_cons, hp]
  refine table_cases ?_
    (fun _ _ hne hletters hmatch => absurd (hkeyword _ hne hletters) hmatch) ?_ ?_
  all_goals
    simp only [Rule.leading, Rule.constants, Rule.trailing, List.forall_mem_cons, List.not_mem_nil,
      false_imp_iff, implies_true, and_true]
    cases h <;> and_intros
  all_goals
    first
    | exact fun hmatch => absurd rfl hmatch
    | exact fun hmatch => absurd (hequals _ rfl) hmatch
    | exact fun _ => rfl

lemma Mark.closed {mark : Char} {pattern : Pattern} (h : Mark mark pattern) {cs : List Char}
    {rule : Rule} {n : Nat} (hfirst : Rule.first? (mark :: cs) = some (rule, n)) :
    pattern (mark :: cs) ≠ none := by
  obtain ⟨hrule, hfound⟩ := match_of_first hfirst
  have hmatch : rule.pattern (mark :: cs) ≠ none := by simp [hfound]
  rwa [h.only cs rule hrule hmatch] at hmatch

/-- The start of a comment that is not closed is an operator. -/
lemma first_slash (h : Pattern.commentEnd cs = none) :
    ∃ pattern, Rule.first? ('/' :: '*' :: cs) = some (⟨pattern, .operator .factor⟩, 0 + 1) := by
  have hleading : Rule.leading.findSome? (fun rule =>
      (rule.pattern ('/' :: '*' :: cs)).map fun n => (rule, n)) = none := by
    have hcomment : Pattern.blockComment ('/' :: '*' :: cs) = none := by
      simp [blockComment_cons, h]
    have hline : Pattern.lineComment ('/' :: '*' :: cs) = none := by
      simp [lineComment_cons]
    simp only [Rule.leading, List.findSome?_cons, hcomment, hline]
    rfl
  unfold Rule.first? Rule.table
  simp only [List.findSome?_append, hleading]
  exact ⟨_, rfl⟩

lemma first_star (cs : List Char) :
    ∃ pattern kind n, Rule.first? ('*' :: cs) = some (⟨pattern, .operator kind⟩, n + 1) ∧
      (kind = .factor ∨ kind = .compoundAssign) := by
  by_cases h : cs.head? = some '='
  · obtain ⟨ds, rfl⟩ := List.head?_eq_some_iff.mp h
    exact ⟨_, _, 1, rfl, .inr rfl⟩
  · have hequals (p : Char → Bool) : Pattern.withEquals p ('*' :: cs) = none := by
      simp [withEquals_cons, h]
    unfold Rule.first? Rule.table
    simp only [List.findSome?_append, Rule.leading, Rule.trailing, List.findSome?_cons, hequals]
    exact ⟨_, _, 0, rfl, .inl rfl⟩

end Openers

section Clear

/-- Pieces of a text that leaves neither a quoted text nor a comment open: there is no error, and no
operator that may start a comment is followed by one that may go on with it. -/
inductive Clear : List Piece → Prop
  | nil : Clear []
  | cons {piece : Piece} {pieces : List Piece} (haction : piece.action ≠ none)
      (hnext : piece.action = some (.operator .factor) → ∀ next ∈ pieces.head?,
        next.action ≠ some (.operator .factor) ∧ next.action ≠ some (.operator .compoundAssign))
      (h : Clear pieces) : Clear (piece :: pieces)

lemma Clear.behind {piece : Piece} {pieces : List Piece} (h : Clear (piece :: pieces)) :
    Clear pieces := by
  cases h
  assumption

lemma closed_of_clear (h : Clear (Piece.cut ('/' :: '*' :: cs))) :
    Pattern.commentEnd cs ≠ none := by
  intro hopen
  obtain ⟨pattern, hslash⟩ := first_slash hopen
  obtain ⟨pattern', kind, n, hstar, hkind⟩ := first_star cs
  rw [cut_of_first hslash (by simp)] at h
  cases h with
  | cons _ hnext _ =>
    have hnext := hnext rfl
    simp only [Nat.zero_add, List.drop_succ_cons, List.drop_zero] at hnext
    rw [cut_of_first hstar (by simp)] at hnext
    rcases hkind with rfl | rfl
    · exact (hnext _ rfl).1 rfl
    · exact (hnext _ rfl).2 rfl

/-- What a clear text opens it closes. -/
lemma opener_append {tail : List Char} (hcs : Ended cs) (hclear : Clear (Piece.cut cs))
    (h : Opener pattern) : pattern (cs ++ tail) = pattern cs := by
  cases hmatch : pattern cs with
  | some n => exact h.keeps hmatch tail
  | none =>
    rcases cs with _ | ⟨c, rest⟩
    · exact absurd rfl hcs.ne_nil
    rw [List.cons_append]
    rcases h.mark with rfl | ⟨mark, hmark⟩
    · rw [blockComment_cons] at hmatch ⊢
      by_cases hc : c = '/'
      · subst hc
        have hrest := hcs.behind (by decide)
        rw [hrest.head_append]
        refine if_neg fun hopen => ?_
        obtain ⟨ds, rfl⟩ := List.head?_eq_some_iff.mp hopen.2
        rw [if_pos ⟨rfl, rfl⟩, Option.map_eq_none_iff] at hmatch
        exact closed_of_clear hclear hmatch
      · exact if_neg fun hopen => hc hopen.1
    · refine hmark.none_of_ne ?_ _
      rintro rfl
      by_cases hfirst : ∃ rule n, Rule.first? (c :: rest) = some (rule, n + 1)
      · obtain ⟨rule, n, hfirst⟩ := hfirst
        exact hmark.closed hfirst hmatch
      · push Not at hfirst
        rw [cut_of_none hfirst] at hclear
        cases hclear with
        | cons haction _ _ => exact haction rfl

/-- A clear text keeps its pieces whatever follows, but its last separator takes the line ends that
follow. -/
lemma cut_append_of_clear (hcs : Ended cs) (hclear : Clear (Piece.cut cs)) (tail : List Char) :
    ∃ pieces text, Piece.cut cs = pieces ++ [⟨some .separator, text⟩] ∧
      Piece.cut (cs ++ tail) =
        pieces ++ ⟨some .separator, text ++ tail.take (span (· == '\n') tail)⟩ ::
          Piece.cut (tail.drop (span (· == '\n') tail)) := by
  refine cut_append_of (P := fun ds => Clear (Piece.cut ds)) ?_ ?_ ?_ hcs hclear
  · exact fun ds hds hclear => first_append_of hds fun _ h => opener_append hds hclear h
  · intro c rest rule n hfirst hclear
    rw [cut_of_first hfirst (by simp)] at hclear
    exact hclear.behind
  · intro c rest hnone hclear
    rw [cut_of_none hnone] at hclear
    exact hclear.behind

lemma read_operator {piece : Piece} {kind : Kind} (h : piece.action = some (.operator kind))
    (afterToken : Bool) (p : Position) :
    ∃ token : Token, token.kind = kind ∧ piece.read afterToken p = some (.ok token) := by
  unfold Piece.read
  rw [h]
  exact ⟨_, rfl, rfl⟩

/-- The pieces of a text without errors, in whose tokens an operand follows every factor. -/
lemma clear_of_sequenced {found : String → Option Stmt} {pieces : List Piece} {afterToken : Bool}
    {p : Position} (herrors : (Piece.readAll afterToken p pieces).filterMap problem = [])
    (htokens : Sequenced found
      ((Piece.readAll afterToken p pieces).filterMap fun item => item.toOption)) :
    Clear pieces := by
  induction pieces generalizing afterToken p with
  | nil => exact .nil
  | cons piece pieces ih =>
    simp only [Piece.readAll] at herrors htokens
    cases haction : piece.action with
    | none => simp [Piece.read, haction, problem] at herrors
    | some action =>
      refine .cons (by simp [haction]) ?_ ?_
      · intro hfactor next hnext
        obtain ⟨others, rfl⟩ := List.head?_eq_some_iff.mp hnext
        obtain ⟨token, hkind, hread⟩ := read_operator hfactor afterToken p
        simp only [hread, Piece.readAll] at htokens
        have hoperand (kind : Kind) (hnext : next.action = some (.operator kind)) :
            kind ≠ .factor ∧ kind ≠ .compoundAssign := by
          obtain ⟨token', rfl, hread'⟩ :=
            read_operator hnext (token.kind != .separator) (p.after piece.text)
          rw [hread'] at htokens
          exact Sequenced.operand (t := []) htokens hkind token' rfl
        exact ⟨fun h => (hoperand _ h).1 rfl, fun h => (hoperand _ h).2 rfl⟩
      · rcases hread : piece.read afterToken p with _ | e | token
        · simp only [hread] at herrors htokens
          exact ih herrors htokens
        · simp [hread, problem] at herrors
        · simp only [hread] at herrors htokens
          exact ih herrors (Sequenced.behind (t := [token]) htokens)

end Clear

section Joining

lemma cut_text (cs : List Char) : (Piece.cut cs).flatMap Piece.text = cs := by
  fun_induction Piece.cut cs with
  | case1 => rfl
  | case2 c rest rule n _ ih => simp [ih]
  | case3 c rest _ ih => simp [ih]

lemma readAll_blank (p : Position) (cs : List Char) :
    Piece.readAll false p (Piece.cut ('\n' :: cs)) =
      Piece.readAll false (p.next '\n') (Piece.cut cs) := by
  rw [cut_line, readAll_lines (p.next '\n')]
  rfl

lemma readAll_empty : Piece.readAll false .start (Piece.cut (endLine "".toList)) = [] := by
  refine (readAll_blank .start []).trans ?_
  rw [Piece.cut]
  rfl

/-- The first text and the line end behind it, and what the line end adds to the text with its last
line ended. -/
lemma endLine_line (cs : List Char) :
    ∃ gap, cs ++ ['\n'] = endLine cs ++ gap ∧ (gap = [] ∨ gap = ['\n']) := by
  unfold endLine
  split
  · exact ⟨['\n'], rfl, .inr rfl⟩
  · exact ⟨[], by simp, .inl rfl⟩

lemma endLine_append {ds : List Char} (hds : ds ≠ []) : endLine (cs ++ ds) = cs ++ endLine ds := by
  unfold endLine
  rw [List.getLast?_append_of_ne_nil cs hds]
  split
  · rfl
  · rw [List.append_assoc]

lemma after_linesBefore (source : String) :
    Position.start.after (source.toList ++ ['\n']) =
      Position.start.shifted (linesBefore source) := by
  rw [after_append]
  refine (after_lines .start source.toList).trans ?_
  simp [Position.shifted, Position.start, linesBefore, Nat.add_assoc]

lemma endLine_joined (source other : String) :
    ∃ gap rest, endLine (source ++ "\n" ++ other).toList = endLine source.toList ++ (gap ++ rest) ∧
      source.toList ++ ['\n'] = endLine source.toList ++ gap ∧ (gap = [] ∨ gap = ['\n']) ∧
      (other = "" ∧ rest = [] ∨ other ≠ "" ∧ rest = endLine other.toList) := by
  obtain ⟨gap, hgap, hcases⟩ := endLine_line source.toList
  have htext : (source ++ "\n" ++ other).toList = source.toList ++ ['\n'] ++ other.toList := by
    simp
  rw [htext]
  by_cases hother : other = ""
  · refine ⟨gap, [], ?_, hgap, hcases, .inl ⟨hother, rfl⟩⟩
    have hended : (source.toList ++ ['\n']).getLast? = some '\n' := by simp
    rw [hother, String.toList_empty, List.append_nil, List.append_nil, ← hgap, endLine,
      if_pos hended]
  · refine ⟨gap, endLine other.toList, ?_, hgap, hcases, .inr ⟨hother, rfl⟩⟩
    rw [endLine_append (by simpa using hother), hgap, List.append_assoc]

lemma readAll_joined {source : String} (other : String)
    (hclear : Clear (Piece.cut (endLine source.toList))) :
    ∃ items,
      Piece.readAll false .start (Piece.cut (endLine (source ++ "\n" ++ other).toList)) =
        items ++ (Piece.readAll false .start (Piece.cut (endLine other.toList))).map
          (shiftedItem (linesBefore source)) ∧
      List.Forall₂ StretchedItem
        (Piece.readAll false .start (Piece.cut (endLine source.toList))) items := by
  obtain ⟨gap, rest, hwhole, hgap, hblank, hrest⟩ := endLine_joined source other
  obtain ⟨pieces, text, hcut, hcut'⟩ :=
    cut_append_of_clear (ended_endLine source.toList) hclear (gap ++ rest)
  have htext : pieces.flatMap Piece.text ++ text = endLine source.toList := by
    rw [← cut_text (endLine source.toList), hcut]
    simp
  obtain ⟨items, hitems, hstretched⟩ := readAll_stretched pieces false .start text
    ((gap ++ rest).take (span (· == '\n') (gap ++ rest)))
    (Piece.cut ((gap ++ rest).drop (span (· == '\n') (gap ++ rest))))
  refine ⟨items, ?_, hcut ▸ hstretched⟩
  -- The line ends at the seam give no token, so reading goes on at the first line of `other`.
  have hbehind : Piece.readAll false (Position.start.after (endLine source.toList))
      (Piece.cut (gap ++ rest)) =
        Piece.readAll false (Position.start.shifted (linesBefore source)) (Piece.cut rest) := by
    rw [← after_linesBefore, hgap, after_append]
    rcases hblank with rfl | rfl
    · rfl
    · exact readAll_blank _ rest
  rw [hwhole, hcut', hitems, ← List.append_assoc, htext, after_append, ← readAll_lines, hbehind,
    readAll_shifted]
  rcases hrest with ⟨rfl, rfl⟩ | ⟨-, rfl⟩
  · rw [readAll_empty, Piece.cut]
    rfl
  · rfl

/-- Two texts on end finish where the second one does, below the lines of the first. -/
lemma finish_joined (source : String) {other : String} (hother : other ≠ "") :
    (scan (source ++ "\n" ++ other)).finish =
      (scan other).finish.shifted (linesBefore source) := by
  obtain ⟨gap, rest, hwhole, hgap, -, hrest⟩ := endLine_joined source other
  obtain ⟨hempty, -⟩ | ⟨-, rfl⟩ := hrest
  · exact absurd hempty hother
  · have hfinish : Position.start.after (endLine (source ++ "\n" ++ other).toList) =
        (Position.start.after (endLine other.toList)).shifted (linesBefore source) := by
      rw [hwhole, ← List.append_assoc, ← hgap, after_append, after_linesBefore, after_shifted]
    exact hfinish

/-- Two texts on end, of which the first is clear, have the tokens and the errors of both. -/
lemma scan_joined {source : String} (other : String)
    (hclear : Clear (Piece.cut (endLine source.toList))) :
    ∃ tokens, List.Forall₂ Token.Stretched (scan source).tokens tokens ∧
      (scan (source ++ "\n" ++ other)).tokens =
        tokens ++ (scan other).tokens.map (Token.shifted (linesBefore source)) ∧
      (scan (source ++ "\n" ++ other)).errors =
        (scan source).errors ++ (scan other).errors.map (ScanError.shifted (linesBefore source)) ∧
      (other ≠ "" → (scan (source ++ "\n" ++ other)).finish =
        (scan other).finish.shifted (linesBefore source)) := by
  obtain ⟨items, hitems, hstretched⟩ := readAll_joined other hclear
  refine ⟨_, stretched_tokens hstretched, ?_, ?_, fun hother => ?_⟩
  · rw [scan_tokens, hitems, List.filterMap_append, shifted_tokens, scan_tokens]
  · rw [scan_errors, hitems, List.filterMap_append, shifted_errors, stretched_errors hstretched,
      ← scan_errors, ← scan_errors]
  · exact finish_joined source hother

end Joining

end Proofs

end XBase
