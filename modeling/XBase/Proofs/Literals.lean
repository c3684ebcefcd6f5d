import XBase.Proofs.Chunks

/-!
# Written texts are read back

A text between quotes ends at the first quote that no backslash hides, and its escapes are decoded
afterwards. Both walks pair a backslash with the same character, so a text whose quotes are hidden
is read back as it was meant, whatever else stands in it or follows it.
-/

namespace XBase

/-- The letter that stands for a character behind a backslash. -/
def escapeLetter? (c : Char) : Option Char :=
  if c = '\r' then some 'r' else if c = '\n' then some 'n' else if c = '\t' then some 't' else none

/-- A character as it is written between quotes. A quote is hidden, and what has an escape letter
may be written by it. -/
def spell (quote : Char) : Char × Bool → List Char
  | (c, escaped) =>
    if c = quote then ['\\', quote]
    else if escaped then ((escapeLetter? c).map fun letter => ['\\', letter]).getD [c]
    else [c]

/-- A text as it is written between quotes; each character tells whether it is to be escaped. -/
def spellAll (quote : Char) (content : List (Char × Bool)) : List Char :=
  content.flatMap (spell quote)

namespace Proofs

section Spelling

variable {quote : Char}

lemma closingQuote_cons {c : Char} (hslash : c ≠ '\\') (hquote : c ≠ quote) (cs : List Char) :
    Pattern.closingQuote quote (c :: cs) = (Pattern.closingQuote quote cs).map (· + 1) := by
  rw [Pattern.closingQuote, if_neg hquote]
  exact fun _ _ h _ => hslash h

lemma unescape_cons {c : Char} (hslash : c ≠ '\\') (cs : List Char) :
    unescape (c :: cs) = c :: unescape cs := by
  rw [unescape]
  exact fun _ _ h _ => hslash h

/-- A character stands for itself, or a backslash and a letter are decoded as the character. -/
lemma spell_cases (hquote : quote = '"' ∨ quote = Pattern.apostrophe) (c : Char × Bool) :
    spell quote c = [c.1] ∧ c.1 ≠ quote ∨
      ∃ letter, spell quote c = ['\\', letter] ∧
        ∀ cs, unescape ('\\' :: letter :: cs) = c.1 :: unescape cs := by
  obtain ⟨c, escaped⟩ := c
  by_cases hc : c = quote
  · refine .inr ⟨quote, by simp [spell, hc], fun cs => ?_⟩
    rcases hquote with rfl | rfl <;> simp [hc, unescape, Pattern.apostrophe]
  rcases hletter : escapeLetter? c with _ | letter
  · exact .inl ⟨by simp [spell, hc, hletter], hc⟩
  cases escaped with
  | false => exact .inl ⟨by simp [spell, hc], hc⟩
  | true =>
    refine .inr ⟨letter, by simp [spell, hc, hletter], fun cs => ?_⟩
    unfold escapeLetter? at hletter
    grind [unescape]

variable {content : List (Char × Bool)} (hquote : quote = '"' ∨ quote = Pattern.apostrophe)
  (hplain : ∀ c ∈ content, c.1 ≠ '\\')

include hquote hplain

lemma closingQuote_spellAll (rest : List Char) :
    Pattern.closingQuote quote (spellAll quote content ++ quote :: rest) =
      some ((spellAll quote content).length + 1) := by
  induction content with
  | nil => rcases hquote with rfl | rfl <;> rfl
  | cons c content ih =>
    obtain ⟨hc, hcontent⟩ := List.forall_mem_cons.mp hplain
    have hrest := ih hcontent
    rcases spell_cases hquote c with ⟨hspell, hne⟩ | ⟨letter, hspell, -⟩
    all_goals rw [spellAll, List.flatMap_cons, ← spellAll, hspell]
    · rw [List.append_assoc, List.singleton_append, closingQuote_cons hc hne, hrest]
      rfl
    · rw [List.append_assoc, List.cons_append, List.singleton_append, Pattern.closingQuote, hrest]
      rfl

lemma unescape_spellAll : unescape (spellAll quote content) = content.map Prod.fst := by
  induction content with
  | nil => rfl
  | cons c content ih =>
    obtain ⟨hc, hcontent⟩ := List.forall_mem_cons.mp hplain
    rw [spellAll, List.flatMap_cons, ← spellAll, List.map_cons, ← ih hcontent]
    rcases spell_cases hquote c with ⟨hspell, -⟩ | ⟨letter, hspell, hdecoded⟩
    · rw [hspell, List.singleton_append, unescape_cons hc]
    · rw [hspell]
      exact hdecoded _

end Spelling

section Scanning

/-- The rule that a mark starts a text by. -/
inductive TextRule : Char → Rule → Prop
  | double : TextRule '"' ⟨.quoted '"', .quoted⟩
  | single : TextRule Pattern.apostrophe ⟨.quoted Pattern.apostrophe, .quoted⟩
  | raw : TextRule Pattern.backtick ⟨.raw, .raw⟩

/-- No rule before that of a mark matches at the mark. -/
lemma TextRule.table {mark : Char} {rule : Rule} (h : TextRule mark rule) :
    ∃ before after, Rule.table = before ++ rule :: after ∧
      ∀ other ∈ before, ∀ cs, other.pattern (mark :: cs) = none := by
  cases h
  · exact ⟨Rule.leading.take 7, _, rfl, by simp [Rule.leading]; and_intros <;> exact fun _ => rfl⟩
  · exact ⟨Rule.leading.take 8, _, rfl, by simp [Rule.leading]; and_intros <;> exact fun _ => rfl⟩
  · exact ⟨Rule.leading.take 9, _, rfl, by simp [Rule.leading]; and_intros <;> exact fun _ => rfl⟩

lemma cut_literal {mark : Char} {rule : Rule} (h : TextRule mark rule) {text rest : List Char}
    (hmatch : rule.pattern (mark :: (text ++ rest)) = some (text.length + 1)) :
    Piece.cut (mark :: (text ++ rest)) = ⟨some rule.action, mark :: text⟩ :: Piece.cut rest := by
  obtain ⟨before, after, htable, hbefore⟩ := h.table
  have hnone : before.findSome? (fun rule => (rule.pattern (mark :: (text ++ rest))).map (rule, ·)) =
      none := by
    simpa [List.findSome?_eq_none_iff] using fun other hother => hbefore other hother _
  have hfirst : Rule.first? (mark :: (text ++ rest)) = some (rule, text.length + 1) := by
    rw [Rule.first?, htable, List.findSome?_append, hnone, List.findSome?_cons, hmatch]
    rfl
  rw [cut_of_first hfirst (by simp)]
  simp

lemma raw_closed {content : List Char} (h : Pattern.backtick ∉ content) (rest : List Char) :
    Pattern.raw (Pattern.backtick :: (content ++ Pattern.backtick :: rest)) =
      some (content.length + 2) := by
  have hall : ∀ c ∈ content, (c != Pattern.backtick) = true := by
    intro c hc
    simpa using ne_of_mem_of_not_mem hc h
  have hspan : Pattern.span (· != Pattern.backtick) (content ++ Pattern.backtick :: rest) =
      content.length := by
    simp [Pattern.span, List.takeWhile_append_of_pos hall]
  simp [Pattern.raw, hspan]

lemma tokens_cons (chunk : Chunk) (others : List Chunk) :
    (chunk :: others).filterMap Chunk.token? =
      chunk.token?.toList ++ others.filterMap Chunk.token? := by
  cases h : chunk.token? with
  | none => exact List.filterMap_cons_none h
  | some token => exact List.filterMap_cons_some h

lemma chunks_append (afterToken : Bool) (p : Position) (before after : List Piece) :
    chunks afterToken p (before ++ after) = chunks afterToken p before ++
      chunks (awaits afterToken ((chunks afterToken p before).filterMap Chunk.token?))
        (p.after (before.flatMap Piece.text)) after := by
  induction before generalizing afterToken p with
  | nil => rfl
  | cons piece before ih =>
    rw [List.cons_append, chunks, ih, chunks, tokens_cons, ← awaits_append, List.flatMap_cons,
      after_append, List.cons_append]

/-- A scan that has stopped behind the pieces `before` reads `text` as one token that holds the
`content`, and goes on with the `rest`. -/
structure ReadsText (source : String) (before : List Piece) (text rest content : List Char) :
    Prop where
  piece : ∃ action, Piece.cut (endLine source.toList) =
    before ++ ⟨some action, text⟩ :: Piece.cut rest
  tokens : (scan source).tokens = (chunks false .start before).filterMap Chunk.token? ++
    ⟨.text, .literal, .ofList text, some (.text (.ofList content)),
      Position.start.after (before.flatMap Piece.text)⟩ ::
    (chunks true (Position.start.after (before.flatMap Piece.text ++ text))
      (Piece.cut rest)).filterMap Chunk.token?
  errors : (scan source).errors = (chunks false .start before).filterMap Chunk.error? ++
    (chunks true (Position.start.after (before.flatMap Piece.text ++ text))
      (Piece.cut rest)).filterMap Chunk.error?

lemma readsText_of_cut {source : String} {before : List Piece} {text rest content : List Char}
    {action : Action} (hcut : Piece.cut (endLine source.toList) =
      before ++ ⟨some action, text⟩ :: Piece.cut rest)
    (hread : ∀ afterToken p, Piece.read ⟨some action, text⟩ afterToken p =
      some (.ok ⟨.text, .literal, .ofList text, some (.text (.ofList content)), p⟩)) :
    ReadsText source before text rest content := by
  refine ⟨⟨action, hcut⟩, ?_, ?_⟩
  · rw [tokens_eq_chunks, hcut, chunks_append, chunks, hread, List.filterMap_append, after_append]
    rfl
  · rw [errors_eq_chunks, hcut, chunks_append, chunks, hread, List.filterMap_append, after_append]
    rfl

end Scanning

/-- A text is read back from between quotes, where its quotes are hidden and its line ends and tabs
may be escaped, and from between backticks, where nothing is hidden. The scan stops before it, it
is one token, and what else it holds or what follows it does not matter. -/
theorem written_texts_read_back (source : String) (before : List Piece) (rest : List Char) :
    (∀ quote content, quote = '"' ∨ quote = Pattern.apostrophe → (∀ c ∈ content, c.1 ≠ '\\') →
      let text := quote :: (spellAll quote content ++ [quote])
      Piece.cut (endLine source.toList) = before ++ Piece.cut (text ++ rest) →
        ReadsText source before text rest (content.map Prod.fst)) ∧
    ∀ content, Pattern.backtick ∉ content →
      let text := Pattern.backtick :: (content ++ [Pattern.backtick])
      Piece.cut (endLine source.toList) = before ++ Piece.cut (text ++ rest) →
        ReadsText source before text rest content := by
  constructor
  · intro quote content hquote hplain text hstop
    have hclosing := closingQuote_spellAll hquote hplain rest
    have hrule : TextRule quote ⟨.quoted quote, .quoted⟩ := by
      rcases hquote with rfl | rfl
      · exact .double
      · exact .single
    have hmatch : Pattern.quoted quote (quote :: (spellAll quote content ++ [quote] ++ rest)) =
        some ((spellAll quote content ++ [quote]).length + 1) := by
      simp [Pattern.quoted, hclosing]
    refine readsText_of_cut (hstop.trans (congrArg (before ++ ·) (cut_literal hrule hmatch))) ?_
    intro afterToken p
    simp only [Piece.read, inner, text, List.drop_one, List.tail_cons, List.dropLast_concat,
      unescape_spellAll hquote hplain]
  · intro content hplain text hstop
    have hmatch : Pattern.raw (Pattern.backtick :: (content ++ [Pattern.backtick] ++ rest)) =
        some ((content ++ [Pattern.backtick]).length + 1) := by
      simp [raw_closed hplain]
    refine readsText_of_cut (hstop.trans (congrArg (before ++ ·) (cut_literal .raw hmatch))) ?_
    intro afterToken p
    simp only [Piece.read, inner, text, List.drop_one, List.tail_cons, List.dropLast_concat]

/-- A text that holds both quotes, the starts of both comments and a line end that is escaped. -/
def richContent : List (Char × Bool) :=
  "it's \"// /*;\n".toList.map (·, true)

theorem rich_content_read_back :
    endLine "'it\\'s \"// /*;\\n'x".toList =
        Pattern.apostrophe :: (spellAll Pattern.apostrophe richContent ++ [Pattern.apostrophe]) ++
          ['x', '\n'] ∧
      ReadsText "'it\\'s \"// /*;\\n'x" []
        (Pattern.apostrophe :: (spellAll Pattern.apostrophe richContent ++ [Pattern.apostrophe]))
        ['x', '\n'] "it's \"// /*;\n".toList := by
  have htext : endLine "'it\\'s \"// /*;\\n'x".toList =
      Pattern.apostrophe :: (spellAll Pattern.apostrophe richContent ++ [Pattern.apostrophe]) ++
        ['x', '\n'] := by
    decide +kernel
  have hplain : ∀ c ∈ richContent, c.1 ≠ '\\' := by
    decide +kernel
  have hread := (written_texts_read_back "'it\\'s \"// /*;\\n'x" [] ['x', '\n']).1
    Pattern.apostrophe richContent (.inr rfl) hplain (congrArg Piece.cut htext)
  exact ⟨htext, hread⟩

end Proofs

end XBase
