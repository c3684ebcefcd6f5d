import XBase.Proofs.Chunks
import XBase.Proofs.Concatenation
import XBase.Proofs.Relaid

/-!
# Blank material between statements

Blank lines, blanks, semicolons and line comments may stand where a line starts, as many as one
likes. They change no piece before them, since they close nothing that is open there, and they give
no token, since no statement has to be ended where a line starts. So the tokens and the errors stay
as they are but for their places, and with them what is read.
-/

namespace XBase.Proofs

open Pattern (span)

/-- Blanks, line ends, semicolons and whole line comments, without a mark that closes anything. -/
inductive Filler : List Char → Prop
  | nil : Filler []
  | space {c : Char} {w : List Char} (hc : Pattern.isSpace c = true) (h : Filler w) :
      Filler (c :: w)
  | line {w : List Char} (h : Filler w) : Filler ('\n' :: w)
  | semicolon {w : List Char} (h : Filler w) : Filler (';' :: w)
  | comment {body w : List Char} (hline : '\n' ∉ body) (hbody : Inert body) (h : Filler w) :
      Filler ('/' :: '/' :: (body ++ '\n' :: w))

variable {w cs : List Char} {c : Char}

section Material

lemma Filler.inert (hw : Filler w) : Inert w := by
  have hslash : '/' ≠ '"' ∧ '/' ≠ Pattern.apostrophe ∧ '/' ≠ Pattern.backtick ∧ '/' ≠ '*' := by
    decide
  induction hw with
  | nil => exact inert_nil
  | @space c w hc _ ih =>
    have hne (d : Char) (hd : Pattern.isSpace d = false) : c ≠ d := by
      rintro rfl
      rw [hd] at hc
      cases hc
    exact List.forall_mem_cons.mpr ⟨⟨hne _ (by decide), hne _ (by decide), hne _ (by decide),
      hne _ (by decide)⟩, ih⟩
  | line _ ih => exact List.forall_mem_cons.mpr ⟨by decide, ih⟩
  | semicolon _ ih => exact List.forall_mem_cons.mpr ⟨by decide, ih⟩
  | comment _ hbody _ ih =>
    refine List.forall_mem_cons.mpr ⟨hslash, List.forall_mem_cons.mpr ⟨hslash, ?_⟩⟩
    exact List.forall_mem_append.mpr ⟨hbody, List.forall_mem_cons.mpr ⟨by decide, ih⟩⟩

lemma Filler.getLast_ne (hw : Filler w) : w.getLast? ≠ some '\\' := by
  have hcons (c : Char) (w : List Char) (hc : c ≠ '\\') (hw : w.getLast? ≠ some '\\') :
      (c :: w).getLast? ≠ some '\\' := by
    cases w with
    | nil => simpa using hc
    | cons => exact hw
  induction hw with
  | nil => simp
  | @space c w hc _ ih =>
    refine hcons c w ?_ ih
    rintro rfl
    cases hc
  | @line w _ ih => exact hcons _ w (by decide) ih
  | @semicolon w _ ih => exact hcons _ w (by decide) ih
  | @comment body w _ _ _ ih =>
    rw [← List.cons_append, ← List.cons_append, List.getLast?_append_of_ne_nil _ (by simp)]
    exact hcons _ w (by decide) ih

lemma Filler.line_end (hw : Filler w) : Filler (w ++ ['\n']) := by
  induction hw with
  | nil => exact .line .nil
  | space hc _ ih => exact .space hc ih
  | line _ ih => exact .line ih
  | semicolon _ ih => exact .semicolon ih
  | comment hline hbody _ ih => simpa using Filler.comment hline hbody ih

/-- Ending the last line of a text with blank material in it may end the material. -/
lemma endLine_filler (hw : Filler w) (u v : List Char) :
    ∃ w' ys, Filler w' ∧ endLine (u ++ '\n' :: v) = u ++ '\n' :: ys ∧
      endLine (u ++ '\n' :: (w ++ v)) = u ++ '\n' :: (w' ++ ys) := by
  by_cases hv : v = []
  · subst hv
    have hended : endLine (u ++ ['\n']) = u ++ ['\n'] := if_pos (by simp)
    rcases endLine_cases (u ++ '\n' :: (w ++ [])) with heq | heq
    · exact ⟨w, [], hw, hended, heq⟩
    · exact ⟨w ++ ['\n'], [], hw.line_end, hended, by rw [heq]; simp⟩
  · refine ⟨w, endLine v, hw, ?_, ?_⟩
    · rw [List.append_cons, endLine_append hv, ← List.append_cons]
    · rw [List.append_cons, ← List.append_assoc, endLine_append hv]
      simp

end Material

section Openers

/-- A search for an end that goes on behind a text where the text has none. -/
def Resumes (solid : List Char → Prop) (close : List Char → Option Nat) : Prop :=
  ∀ cs ds, solid cs → close (cs ++ ds) = (close cs).or ((close ds).map (· + cs.length))

/-- Two matches that are the same or both take more than a length. -/
def AgreeBelow (length : Nat) (a b : Option Nat) : Prop :=
  a = b ∨ ∃ m n, a = some m ∧ b = some n ∧ length ≤ m ∧ length ≤ n

lemma map_or_map (a b : Option Nat) (k more : Nat) :
    (a.or (b.map (· + k))).map (· + more) = (a.map (· + more)).or (b.map (· + (k + more))) := by
  cases a with
  | some n => rfl
  | none => simp [Function.comp_def, Nat.add_assoc]

lemma resumes_commentEnd : Resumes (fun cs => cs.getLast? ≠ some '*') Pattern.commentEnd := by
  intro cs ds hsolid
  induction cs with
  | nil => simp [Pattern.commentEnd]
  | cons c cs ih =>
    rw [List.cons_append, commentEnd_cons, commentEnd_cons]
    rcases cs with _ | ⟨d, cs⟩
    · have hc : c ≠ '*' := fun hc => hsolid (by rw [hc]; rfl)
      simp [hc, Pattern.commentEnd]
    · rw [ih hsolid]
      by_cases hend : c = '*' ∧ d = '/'
      · simp [hend]
      · rw [if_neg (by simpa using hend), if_neg (by simpa using hend)]
        exact map_or_map _ _ _ 1

lemma resumes_closingQuote {quote : Char} (hquote : quote ≠ '\\') :
    Resumes (fun cs => cs.getLast? ≠ some '\\') (Pattern.closingQuote quote) := by
  intro cs ds hsolid
  fun_induction Pattern.closingQuote quote cs with
  | case1 => simp
  | case2 c cs ih =>
    have hrest : cs.getLast? ≠ some '\\' := by
      cases cs with
      | nil => simp
      | cons => exact hsolid
    rw [List.cons_append, List.cons_append, Pattern.closingQuote, ih hrest]
    exact map_or_map _ _ _ 2
  | case3 cs => simp [Pattern.closingQuote, hquote]
  | case4 c cs hplain hc ih =>
    -- A backslash at the end of the text would hide the first character behind it.
    have hslash : c ≠ '\\' := by
      rintro rfl
      cases cs with
      | nil => exact hsolid rfl
      | cons d cs => exact hplain d cs rfl rfl
    have hrest : cs.getLast? ≠ some '\\' := by
      cases cs with
      | nil => simp
      | cons => exact hsolid
    rw [List.cons_append, Pattern.closingQuote, if_neg hc, ih hrest]
    · exact map_or_map _ _ _ 1
    · exact fun _ _ h _ => hslash h

/-- The length up to and with the closing backtick. -/
def rawEnd (cs : List Char) : Option Nat :=
  let inner := span (· != Pattern.backtick) cs
  if inner < cs.length then some (inner + 1) else none

lemma rawEnd_cons (c : Char) (cs : List Char) :
    rawEnd (c :: cs) = if c = Pattern.backtick then some 1 else (rawEnd cs).map (· + 1) := by
  by_cases hc : c = Pattern.backtick
  · simp [rawEnd, span, hc]
  · simp only [rawEnd, span, List.takeWhile_cons, bne_iff_ne, ne_eq, hc, not_false_eq_true,
      if_true, List.length_cons, if_false, Nat.add_lt_add_iff_right]
    by_cases hin : (cs.takeWhile (· != Pattern.backtick)).length < cs.length <;> simp [hin]

lemma resumes_rawEnd : Resumes (fun _ => True) rawEnd := by
  intro cs ds _
  induction cs with
  | nil => simp [rawEnd, span]
  | cons c cs ih =>
    rw [List.cons_append, rawEnd_cons, rawEnd_cons, ih]
    by_cases hc : c = Pattern.backtick
    · simp [hc]
    · rw [if_neg hc, if_neg hc]
      exact map_or_map _ _ _ 1

/-- Inserting a text in which nothing ends changes a search only where it has found nothing yet. -/
lemma agree_of_resumes {solid : List Char → Prop} {close : List Char → Option Nat}
    (h : Resumes solid close) (hcs : solid cs) (hw : solid w) (hnone : close w = none)
    (ys : List Char) (more : Nat) :
    AgreeBelow (cs.length + more) ((close (cs ++ ys)).map (· + more))
      ((close (cs ++ (w ++ ys))).map (· + more)) := by
  rw [h cs ys hcs, h cs (w ++ ys) hcs, h w ys hw, hnone]
  cases close cs with
  | some n => exact .inl rfl
  | none =>
    cases close ys with
    | none => exact .inl rfl
    | some n =>
      refine .inr ⟨_, _, rfl, rfl, ?_, ?_⟩ <;> simp

lemma raw_cons (c : Char) (cs : List Char) :
    Pattern.raw (c :: cs) = if c = Pattern.backtick then (rawEnd cs).map (· + 1) else none := by
  simp only [Pattern.raw, rawEnd]
  by_cases hin : span (· != Pattern.backtick) cs < cs.length <;> simp [hin]

lemma rawEnd_inert (h : Inert w) : rawEnd w = none := by
  induction w with
  | nil => rfl
  | cons c w ih =>
    rw [rawEnd_cons, if_neg (h c List.mem_cons_self).2.2.1, ih h.tail]
    rfl

lemma Ended.getLast_ne (h : Ended cs) (hc : c ≠ '\n') : cs.getLast? ≠ some c := by
  rw [h]
  simpa using hc.symm

lemma agree_quoted {quote : Char} (hquote : quote ≠ '\\') (hline : quote ≠ '\n') (hcs : Ended cs)
    (hw : ∀ c ∈ w, c ≠ quote) (hlast : w.getLast? ≠ some '\\') (ys : List Char) :
    AgreeBelow cs.length (Pattern.quoted quote (cs ++ ys))
      (Pattern.quoted quote (cs ++ (w ++ ys))) := by
  rcases cs with _ | ⟨c, cs⟩
  · exact absurd rfl hcs.ne_nil
  simp only [List.cons_append, Pattern.quoted]
  by_cases hc : c = quote
  · rw [if_pos hc, if_pos hc]
    have hcs := hcs.behind (hc ▸ hline)
    exact agree_of_resumes (resumes_closingQuote hquote) (hcs.getLast_ne (by decide)) hlast
      (closingQuote_inert hw) ys 1
  · rw [if_neg hc, if_neg hc]
    exact .inl rfl

/-- What is open in a text that ends its last line is closed behind an inserted text or nowhere. -/
lemma Opener.agree {pattern : Pattern} (h : Opener pattern) (hcs : Ended cs) (hw : Inert w)
    (hlast : w.getLast? ≠ some '\\') (ys : List Char) :
    AgreeBelow cs.length (pattern (cs ++ ys)) (pattern (cs ++ (w ++ ys))) := by
  cases h with
  | double =>
    exact agree_quoted (by decide) (by decide) hcs (fun c hc => (hw c hc).1) hlast ys
  | single =>
    exact agree_quoted (by decide) (by decide) hcs (fun c hc => (hw c hc).2.1) hlast ys
  | comment =>
    rcases cs with _ | ⟨c, cs⟩
    · exact absurd rfl hcs.ne_nil
    rw [List.cons_append, List.cons_append, blockComment_cons, blockComment_cons]
    by_cases hc : c = '/'
    · have hcs := hcs.behind (by rw [hc]; decide)
      rw [hcs.head_append, hcs.head_append]
      by_cases hopen : c = '/' ∧ cs.head? = some '*'
      · rw [if_pos hopen, if_pos hopen]
        obtain ⟨ds, rfl⟩ := List.head?_eq_some_iff.mp hopen.2
        have hds := hcs.behind (by decide)
        have hstar : w.getLast? ≠ some '*' := fun hstar =>
          (hw '*' (List.mem_of_getLast? hstar)).2.2.2 rfl
        exact agree_of_resumes resumes_commentEnd (hds.getLast_ne (by decide)) hstar
          (commentEnd_inert hw) ys 2
      · rw [if_neg hopen, if_neg hopen]
        exact .inl rfl
    · rw [if_neg fun hopen => hc hopen.1, if_neg fun hopen => hc hopen.1]
      exact .inl rfl
  | raw =>
    rcases cs with _ | ⟨c, cs⟩
    · exact absurd rfl hcs.ne_nil
    rw [List.cons_append, List.cons_append, raw_cons, raw_cons]
    by_cases hc : c = Pattern.backtick
    · rw [if_pos hc, if_pos hc]
      exact agree_of_resumes resumes_rawEnd trivial trivial (rawEnd_inert hw) ys 1
    · rw [if_neg hc, if_neg hc]
      exact .inl rfl

/-- A text inserted behind a line changes only what goes on behind the line. -/
lemma table_agree (hcs : Ended cs) (hw : Inert w) (hlast : w.getLast? ≠ some '\\')
    (ys : List Char) : ∀ rule ∈ Rule.table,
    AgreeBelow cs.length (rule.pattern (cs ++ ys)) (rule.pattern (cs ++ (w ++ ys))) := by
  intro rule hrule
  cases table_conduct rule hrule with
  | firm h => exact .inl ((h cs ys hcs).1.trans (h cs (w ++ ys) hcs).1.symm)
  | stretches h _ =>
    rw [(h cs ys hcs).1, (h cs (w ++ ys) hcs).1]
    cases rule.pattern cs with
    | none => exact .inl rfl
    | some n =>
      by_cases hn : n = cs.length
      · exact .inr ⟨_, _, rfl, rfl, by simp [hn], by simp [hn]⟩
      · exact .inl (by simp [hn])
  | opener h => exact h.agree hcs hw hlast ys

/-- The rule that decides is the same, and its match too unless both take more than the length. -/
lemma first_agree {length : Nat} {ds : List Char}
    (h : ∀ rule ∈ Rule.table, AgreeBelow length (rule.pattern cs) (rule.pattern ds)) :
    Rule.first? cs = Rule.first? ds ∨ ∃ rule m n, Rule.first? cs = some (rule, m) ∧
      Rule.first? ds = some (rule, n) ∧ length ≤ m ∧ length ≤ n := by
  unfold Rule.first?
  generalize Rule.table = rules at h
  induction rules with
  | nil => exact .inl rfl
  | cons rule rules ih =>
    simp only [List.forall_mem_cons] at h
    rw [List.findSome?_cons, List.findSome?_cons]
    rcases h.1 with heq | ⟨m, n, hm, hn, hlong, hlong'⟩
    · rw [heq]
      cases rule.pattern ds with
      | none => exact ih h.2
      | some n => exact .inl rfl
    · rw [hm, hn]
      exact .inr ⟨rule, m, n, rfl, rfl, hlong, hlong'⟩

end Openers

section Cutting

variable {w : List Char} (hw : Inert w) (hlast : w.getLast? ≠ some '\\') (ys : List Char)

include hw hlast

/-- A text inserted behind a line changes only matches that do not stay in the line. -/
lemma first_inserted (u : List Char) :
    Rule.first? (u ++ '\n' :: ys) = Rule.first? (u ++ '\n' :: (w ++ ys)) ∨
      ∃ rule m n, Rule.first? (u ++ '\n' :: ys) = some (rule, m) ∧
        Rule.first? (u ++ '\n' :: (w ++ ys)) = some (rule, n) ∧ u.length < m ∧ u.length < n := by
  have hended : Ended (u ++ ['\n']) := by simp [Ended]
  have hagree := first_agree (table_agree hended hw hlast ys)
  rwa [List.append_assoc, List.append_assoc, List.singleton_append, List.singleton_append,
    List.length_append, List.length_singleton] at hagree

/-- The pieces before the end of a line are the same with a text inserted behind the line. -/
lemma cut_inserted {u : List Char} {earlier later : List Piece}
    (hcut : Piece.cut (u ++ '\n' :: ys) = earlier ++ later)
    (htext : earlier.flatMap Piece.text = u) :
    Piece.cut (u ++ '\n' :: (w ++ ys)) = earlier ++ Piece.cut ('\n' :: (w ++ ys)) := by
  induction earlier generalizing u with
  | nil =>
    cases htext
    rfl
  | cons piece earlier ih =>
    by_cases hfirst : ∃ rule n, Rule.first? (u ++ '\n' :: ys) = some (rule, n + 1)
    · obtain ⟨rule, n, hfirst⟩ := hfirst
      rw [cut_of_first hfirst (by simp)] at hcut
      injection hcut with hpiece hrest
      rw [← hpiece, List.flatMap_cons] at htext
      -- The piece ends within the line, as all of the earlier pieces do.
      have hn : n + 1 ≤ u.length := by
        have hlength := congrArg List.length htext
        simp only [List.length_append, List.length_take, List.length_cons] at hlength
        omega
      rw [List.take_append_of_le_length hn] at hpiece htext
      rw [List.drop_append_of_le_length hn] at hrest
      have hbehind : earlier.flatMap Piece.text = u.drop (n + 1) :=
        List.append_cancel_left (htext.trans (List.take_append_drop (n + 1) u).symm)
      have hfirst' : Rule.first? (u ++ '\n' :: (w ++ ys)) = some (rule, n + 1) := by
        rcases first_inserted hw hlast ys u with heq | ⟨rule', m, k, hm, -, hlong, -⟩
        · rw [← heq, hfirst]
        · rw [hfirst] at hm
          cases hm
          omega
      rw [cut_of_first hfirst' (by simp), List.take_append_of_le_length hn,
        List.drop_append_of_le_length hn, ih hrest hbehind, hpiece, List.cons_append]
    · have hfirst' : ¬∃ rule n, Rule.first? (u ++ '\n' :: (w ++ ys)) = some (rule, n + 1) := by
        rcases first_inserted hw hlast ys u with heq | ⟨rule', m, k, hm, -, hlong, -⟩
        · rwa [← heq]
        · exact absurd ⟨rule', m - 1, by rw [hm]; congr; omega⟩ hfirst
      push Not at hfirst hfirst'
      cases u with
      | nil =>
        rw [List.nil_append, cut_of_none hfirst] at hcut
        injection hcut with hpiece
        rw [← hpiece] at htext
        cases htext
      | cons c u =>
        simp only [List.cons_append] at hfirst hfirst' hcut ⊢
        rw [cut_of_none hfirst] at hcut
        injection hcut with hpiece hrest
        rw [← hpiece] at htext
        rw [cut_of_none hfirst', ih hrest (List.cons.inj htext).2, hpiece]

end Cutting

section Reading

lemma first_space (hc : Pattern.isSpace c = true) (cs : List Char) :
    Rule.first? (c :: cs) = some (⟨.many Pattern.isSpace, .skip⟩, span Pattern.isSpace cs + 1) := by
  have hmany : Pattern.many Pattern.isSpace (c :: cs) = some (span Pattern.isSpace cs + 1) := by
    simp [Pattern.many, span, hc]
  simp [Rule.first?, Rule.table, Rule.leading, hmany]

lemma readAll_spaces (afterToken : Bool) (p : Position) (cs : List Char) :
    Piece.readAll afterToken p (Piece.cut cs) =
      Piece.readAll afterToken (p.after (cs.take (span Pattern.isSpace cs)))
        (Piece.cut (cs.drop (span Pattern.isSpace cs))) := by
  cases cs with
  | nil => rfl
  | cons c cs =>
    by_cases hc : Pattern.isSpace c = true
    · have hspan : span Pattern.isSpace (c :: cs) = span Pattern.isSpace cs + 1 := by
        simp [span, hc]
      rw [cut_of_first (first_space hc cs) (by simp), hspan]
      rfl
    · have hspan : span Pattern.isSpace (c :: cs) = 0 := by
        simp [span, hc]
      rw [hspan]
      rfl

lemma readAll_space (hc : Pattern.isSpace c = true) (afterToken : Bool) (p : Position)
    (cs : List Char) :
    Piece.readAll afterToken p (Piece.cut (c :: cs)) =
      Piece.readAll afterToken (p.next c) (Piece.cut cs) := by
  rw [cut_of_first (first_space hc cs) (by simp), readAll_spaces afterToken (p.next c) cs]
  rfl

/-- A semicolon where no statement has to be ended gives nothing, whether it ends its line or
not. -/
lemma readAll_semicolon (p : Position) (cs : List Char) :
    Piece.readAll false p (Piece.cut (';' :: cs)) =
      Piece.readAll false (p.next ';') (Piece.cut cs) := by
  cases hbreak : Pattern.semicolonBreak (';' :: cs) with
  | none =>
    have hblank : Pattern.many Pattern.isSpace (';' :: cs) = none := rfl
    have hfirst : Rule.first? (';' :: cs) = some (⟨.one (· == ';'), .skip⟩, 0 + 1) := by
      simp [Rule.first?, Rule.table, Rule.leading, hblank, lineComment_cons, blockComment_cons,
        hbreak, Pattern.one]
    rw [cut_of_first hfirst (by simp)]
    rfl
  | some n =>
    have hfirst := first_semicolon hbreak
    rw [semicolonBreak_cons, if_pos rfl] at hbreak
    obtain ⟨lines, hlines, rfl⟩ := Option.map_eq_some_iff.mp hbreak
    obtain ⟨rfl, -⟩ := many_eq_some hlines
    -- The separator is the semicolon, the blanks behind it and the line ends behind these.
    rw [Nat.add_assoc, Nat.add_comm 1] at hfirst
    rw [cut_of_first hfirst (by simp), readAll_spaces false (p.next ';') cs, readAll_lines,
      ← after_append, List.drop_drop, ← List.take_add]
    rfl

lemma readAll_comment {body : List Char} (hline : '\n' ∉ body) (p : Position) (cs : List Char) :
    Piece.readAll false p (Piece.cut ('/' :: '/' :: (body ++ '\n' :: cs))) =
      Piece.readAll false (p.after ('/' :: '/' :: (body ++ ['\n']))) (Piece.cut cs) := by
  have hspan : span (· != '\n') (body ++ '\n' :: cs) = body.length := by
    have hbody : body.takeWhile (· != '\n') = body :=
      List.takeWhile_eq_self_iff.mpr fun c hc => by simpa using ne_of_mem_of_not_mem hc hline
    simp [span, List.takeWhile_append, hbody]
  have hfirst : Rule.first? ('/' :: '/' :: (body ++ '\n' :: cs)) =
      some (⟨.lineComment, .skip⟩, body.length + 1 + 1) := by
    have hblank : Pattern.many Pattern.isSpace ('/' :: '/' :: (body ++ '\n' :: cs)) = none := rfl
    simp [Rule.first?, Rule.table, Rule.leading, hblank, lineComment_cons, hspan, Nat.add_comm 2]
  rw [cut_of_first hfirst (by simp), List.take_succ_cons, List.take_succ_cons, List.drop_succ_cons,
    List.drop_succ_cons, List.take_left, List.drop_left]
  refine (readAll_blank (p.after ('/' :: '/' :: body)) cs).trans ?_
  rw [← List.cons_append, ← List.cons_append, after_append]
  rfl

/-- Blank material gives nothing where a line starts. -/
lemma readAll_filler (hw : Filler w) (p : Position) (cs : List Char) :
    Piece.readAll false p (Piece.cut (w ++ cs)) =
      Piece.readAll false (p.after w) (Piece.cut cs) := by
  induction hw generalizing p with
  | nil => rfl
  | @space c w hc _ ih => exact (readAll_space hc false p (w ++ cs)).trans (ih (p.next c))
  | @line w _ ih => exact (readAll_blank p (w ++ cs)).trans (ih (p.next '\n'))
  | @semicolon w _ ih => exact (readAll_semicolon p (w ++ cs)).trans (ih (p.next ';'))
  | @comment body w hline _ _ ih =>
    have hafter : p.after ('/' :: '/' :: (body ++ '\n' :: w)) =
        (p.after ('/' :: '/' :: (body ++ ['\n']))).after w := by
      rw [← after_append]
      simp
    rw [hafter, ← ih, ← readAll_comment hline]
    simp

end Reading

section Places

/-- The same token, perhaps in another place; a separator may be spelled in another way. -/
structure Respaced (a b : Token) : Prop where
  kind : b.kind = a.kind
  category : b.category = a.category
  lexeme (h : a.kind ≠ .separator) : b.lexeme = a.lexeme
  literal : b.literal = a.literal

/-- Two things read of a piece: tokens that are respaced, or the same error in another place. -/
inductive RespacedItem : Except ScanError Token → Except ScanError Token → Prop
  | token {a b : Token} (h : Respaced a b) : RespacedItem (.ok a) (.ok b)
  | error {e e' : ScanError} (h : e'.cause = e.cause) : RespacedItem (.error e) (.error e')

lemma Respaced.refl (a : Token) : Respaced a a :=
  ⟨rfl, rfl, fun _ => rfl, rfl⟩

lemma respacedItem_refl (item : Except ScanError Token) : RespacedItem item item := by
  cases item with
  | ok token => exact .token (.refl token)
  | error e => exact .error rfl

lemma read_respaced (piece : Piece) (afterToken : Bool) (p q : Position) :
    Option.Rel RespacedItem (piece.read afterToken p) (piece.read afterToken q) := by
  obtain ⟨action, text⟩ := piece
  cases action with
  | none => exact .some (.error rfl)
  | some action =>
    cases action with
    | skip => exact .none
    | separator =>
      cases afterToken with
      | false => exact .none
      | true => exact .some (.token ⟨rfl, rfl, fun _ => rfl, rfl⟩)
    | number =>
      simp only [Piece.read]
      cases Decimal.read? (text.filter (· != '_')) with
      | none => exact .some (.error rfl)
      | some n => exact .some (.token ⟨rfl, rfl, fun _ => rfl, rfl⟩)
    | quoted | raw | operator | token => exact .some (.token ⟨rfl, rfl, fun _ => rfl, rfl⟩)

lemma readAll_respaced (pieces : List Piece) (afterToken : Bool) (p q : Position) :
    List.Forall₂ RespacedItem (Piece.readAll afterToken p pieces)
      (Piece.readAll afterToken q pieces) := by
  induction pieces generalizing afterToken p q with
  | nil => exact .nil
  | cons piece pieces ih =>
    have hread := read_respaced piece afterToken p q
    rw [Piece.readAll, Piece.readAll]
    generalize piece.read afterToken p = item, piece.read afterToken q = item' at hread
    cases hread with
    | none => exact ih _ _ _
    | some hitem =>
      cases hitem with
      | error h => exact .cons (.error h) (ih _ _ _)
      | token h =>
        dsimp only
        rw [h.kind]
        exact .cons (.token h) (ih _ _ _)

lemma readAll_line_respaced (awaiting : Bool) (p : Position) {ds : List Char}
    (h : ∀ q, List.Forall₂ RespacedItem (Piece.readAll false q (Piece.cut cs))
      (Piece.readAll false q (Piece.cut ds))) :
    List.Forall₂ RespacedItem (Piece.readAll awaiting p (Piece.cut ('\n' :: cs)))
      (Piece.readAll awaiting p (Piece.cut ('\n' :: ds))) := by
  cases awaiting with
  | false =>
    rw [readAll_blank, readAll_blank]
    exact h _
  | true =>
    -- The separators may take different line ends, and reading goes on behind them.
    rw [cut_line, cut_line]
    have hrest := h (p.next '\n')
    rw [readAll_lines _ cs, readAll_lines _ ds] at hrest
    exact .cons (.token ⟨rfl, rfl, fun h => absurd rfl h, rfl⟩) hrest

end Places

section Scanning

/-- The pieces of a text have a seam behind a part of it. -/
def SeamBehind (u source : String) : Prop :=
  ∃ earlier later, Piece.cut (endLine source.toList) = earlier ++ later ∧
    earlier.flatMap Piece.text = u.toList

variable {u v w : String} (hseam : SeamBehind u (u ++ "\n" ++ v)) (hw : Filler w.toList)

include hseam hw

lemma items_respaced : List.Forall₂ RespacedItem
    (Piece.readAll false .start (Piece.cut (endLine (u ++ "\n" ++ v).toList)))
    (Piece.readAll false .start (Piece.cut (endLine (u ++ "\n" ++ w ++ v).toList))) := by
  obtain ⟨earlier, later, hcut, htext⟩ := hseam
  obtain ⟨w', ys, hw', hshort, hlong⟩ := endLine_filler hw u.toList v.toList
  have hshort : endLine (u ++ "\n" ++ v).toList = u.toList ++ '\n' :: ys := by
    rw [← hshort]
    simp
  have hlong : endLine (u ++ "\n" ++ w ++ v).toList = u.toList ++ '\n' :: (w' ++ ys) := by
    rw [← hlong]
    simp
  rw [hshort] at hcut ⊢
  obtain ⟨items, awaiting, hitems⟩ := readAll_append false .start earlier
  have hcut' : Piece.cut (u.toList ++ '\n' :: ys) = earlier ++ Piece.cut ('\n' :: ys) :=
    cut_inserted inert_nil (by simp) ys hcut htext
  rw [hlong, cut_inserted hw'.inert hw'.getLast_ne ys hcut htext, hcut', hitems, hitems]
  refine List.rel_append (List.forall₂_same.mpr fun item _ => respacedItem_refl item) ?_
  refine readAll_line_respaced awaiting _ fun q => ?_
  rw [readAll_filler hw']
  exact readAll_respaced _ _ _ _

end Scanning

section Parsing

open SourceUnit (loader loaded)

lemma respaced_tokens {items items' : List (Except ScanError Token)}
    (h : List.Forall₂ RespacedItem items items') :
    List.Forall₂ Respaced (items.filterMap fun item => item.toOption)
      (items'.filterMap fun item => item.toOption) := by
  induction h with
  | nil => exact .nil
  | cons hitem _ ih =>
    cases hitem with
    | token htoken => exact .cons htoken ih
    | error => exact ih

lemma respaced_errors {items items' : List (Except ScanError Token)}
    (h : List.Forall₂ RespacedItem items items') :
    (items'.filterMap problem).map ScanError.cause =
      (items.filterMap problem).map ScanError.cause := by
  induction h with
  | nil => rfl
  | cons hitem _ ih =>
    cases hitem with
    | token => exact ih
    | error hcause => simp only [List.filterMap_cons, problem, List.map_cons, hcause, ih]

lemma respaced_replaces : Replaces Respaced Token.Relaid where
  kind h := h.kind
  token h hkind := ⟨h.kind, h.category, h.lexeme hkind, h.literal⟩
  lexeme h hkind := h.lexeme (by simp [hkind])

/-- Two readings of the same tokens in other places, with failures of the same causes. -/
def respacedMirror (found : String → Option Stmt) : Mirror where
  place := Respaced
  token := Token.Relaid
  failure e e' := e'.cause = e.cause
  failures reported reported' := reported'.map Failure.cause = reported.map Failure.cause
  found := found
  replaces := respaced_replaces
  failure_of_token _ _ := rfl
  failure_of_place _ _ := rfl
  report h he := by rw [List.map_append, List.map_append, h, List.map_singleton, he]; rfl

lemma cause_toError (finish : Position) (failure : Failure) :
    (failure.toError finish).cause = failure.cause := by
  obtain ⟨_ | token, cause⟩ := failure <;> rfl

/-- Respaced tokens are read as the same trees but for places, with errors of the same causes. -/
lemma unit_respaced (library : Library) (depth : Nat) (importing : List String) {a b : String}
    (htokens : List.Forall₂ Respaced (scan a).tokens (scan b).tokens)
    (herrors : (scan b).errors.map ScanError.cause = (scan a).errors.map ScanError.cause) :
    List.Forall₂ (Stmt.Moved Token.Relaid (loaded (loader library depth importing)))
        (SourceUnit.parseWithin library depth importing a).statements
        (SourceUnit.parseWithin library depth importing b).statements ∧
      (SourceUnit.parseWithin library depth importing b).errors.map SyntaxError.cause =
        (SourceUnit.parseWithin library depth importing a).errors.map SyntaxError.cause := by
  let μ := respacedMirror (loaded (loader library depth importing))
  have hloading : μ.Loading (scan a).tokens (loader library depth importing) :=
    loading_of_verdict (fun _ _ h => moved_of_verdict h) fun _ _ _ _ _ _ _ _ _ => rfl
  obtain ⟨log, hstatements, hfailures⟩ := ofScan_spec (loader library depth importing) (scan a)
  obtain ⟨log', hstatements', hfailures'⟩ := ofScan_spec (loader library depth importing) (scan b)
  have hnone : μ.failures [] [] := rfl
  obtain ⟨hmoved, hcauses⟩ := mirrors_program (loads_loader library importing depth) hloading
    htokens hnone log log'
  have hscan (errors : List ScanError) : (errors.map SyntaxError.ofScan).map SyntaxError.cause =
      (errors.map ScanError.cause).map SyntaxCause.scan := by
    rw [List.map_map, List.map_map]
    rfl
  have hread (finish : Position) (failures : List Failure) :
      (failures.map (·.toError finish)).map SyntaxError.cause = failures.map Failure.cause := by
    rw [List.map_map]
    exact List.map_congr_left fun failure _ => cause_toError finish failure
  rw [parseWithin_eq, parseWithin_eq, hstatements, hstatements', hfailures, hfailures']
  refine ⟨hmoved, ?_⟩
  rw [List.map_append, List.map_append, hscan, hscan, hread, hread, herrors]
  exact congrArg _ hcauses

end Parsing

/-- Blank material behind the end of a line at which a statement may end. The tokens are the same
but for their places and for the line ends of separators, and the scan has the same errors. So the
same trees are read, but for places, and reading has errors of the same causes. -/
theorem filler_changes_nothing (u v w : String) (hseam : SeamBehind u (u ++ "\n" ++ v))
    (hw : Filler w.toList) :
    let plain := u ++ "\n" ++ v
    let filled := u ++ "\n" ++ w ++ v
    List.Forall₂ Respaced (scan plain).tokens (scan filled).tokens ∧
      (scan filled).errors.map ScanError.cause = (scan plain).errors.map ScanError.cause ∧
      ∀ library : Library,
        List.Forall₂ (Stmt.Moved Token.Relaid
              (SourceUnit.loaded (SourceUnit.loader library library.size [])))
            (SourceUnit.parse library plain).statements
            (SourceUnit.parse library filled).statements ∧
          (SourceUnit.parse library filled).errors.map SyntaxError.cause =
            (SourceUnit.parse library plain).errors.map SyntaxError.cause := by
  intro plain filled
  have hitems := items_respaced hseam hw
  have htokens : List.Forall₂ Respaced (scan plain).tokens (scan filled).tokens :=
    respaced_tokens hitems
  have herrors : (scan filled).errors.map ScanError.cause =
      (scan plain).errors.map ScanError.cause := by
    rw [scan_errors, scan_errors]
    exact respaced_errors hitems
  exact ⟨htokens, herrors, fun library => unit_respaced library library.size [] htokens herrors⟩

/-- A line that leaves a quoted text and a comment open, and behind it a comment with a backslash at
its end between semicolons, of which the last one ends the first line of what follows. -/
theorem filler_behind_open_line :
    let u := "x = 'open /* half"
    let v := "  \n? x ;"
    let w := " ;\n// \\\n\t;"
    SeamBehind u (u ++ "\n" ++ v) ∧ Filler w.toList ∧
      List.Forall₂ Respaced (scan (u ++ "\n" ++ v)).tokens (scan (u ++ "\n" ++ w ++ v)).tokens ∧
      (scan (u ++ "\n" ++ v)).errors.length = 1 ∧
      (scan (u ++ "\n" ++ w ++ v)).errors.length = 1 ∧
      List.Forall₂ (Stmt.Moved Token.Relaid (SourceUnit.loaded (SourceUnit.loader
          (Library.ofModules []) (Library.ofModules []).size [])))
        (SourceUnit.parse (Library.ofModules []) (u ++ "\n" ++ v)).statements
        (SourceUnit.parse (Library.ofModules []) (u ++ "\n" ++ w ++ v)).statements := by
  intro u v w
  let pieces := Piece.cut (endLine (u ++ "\n" ++ v).toList)
  have hseam : SeamBehind u (u ++ "\n" ++ v) :=
    ⟨pieces.take 11, pieces.drop 11, (List.take_append_drop 11 pieces).symm, by decide +kernel⟩
  have hw : Filler w.toList := by
    have hlist : w.toList = ' ' :: ';' :: '\n' :: '/' :: '/' :: ([' ', '\\'] ++ '\n' ::
      ['\t', ';']) := by decide +kernel
    have hbody : Inert [' ', '\\'] :=
      List.forall_mem_cons.mpr ⟨by decide, List.forall_mem_cons.mpr ⟨by decide, inert_nil⟩⟩
    rw [hlist]
    exact .space rfl (.semicolon (.line (.comment (by decide) hbody
      (.space rfl (.semicolon .nil)))))
  obtain ⟨htokens, herrors, hparse⟩ := filler_changes_nothing u v w hseam hw
  have hone : (scan (u ++ "\n" ++ v)).errors.length = 1 := by decide +kernel
  have hlength := congrArg List.length herrors
  rw [List.length_map, List.length_map] at hlength
  exact ⟨hseam, hw, htokens, hone, hlength.trans hone, (hparse (Library.ofModules [])).1⟩

end XBase.Proofs
