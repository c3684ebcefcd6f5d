import XBase.Proofs.Chunks

/-!
# First match and longest match

Where no digit stands, the first rule of the table that matches has the longest match. Every rule
has a shape: it takes a whole word, it takes one character, or its matches start in one of a few
ways. The shapes of the table are compared in pairs, and where two rules match at one place, either
both take the word that stands there or the later one takes a single character. At a word this makes
the reserved words exactly the words that are spelled whole.
-/

namespace XBase.Proofs

open Pattern (span)

variable {c : Char} {cs w rest : List Char} {letters : String} {kind : Kind} {rule : Rule} {n : Nat}
  {piece : Piece}

section Vocabulary

def logicalWords : List (String × Kind) :=
  [("and", .and), ("or", .or)]

def firstKeywords : List (String × Keyword) :=
  [("as", .asWord), ("local", .localWord), ("public", .publicWord), ("const", .constWord),
   ("if", .ifWord), ("then", .thenWord), ("else", .elseWord), ("endif", .endIf)]

def valueWords : List (String × Kind) :=
  [("true", .trueWord), ("false", .falseWord), ("null", .nullWord)]

def laterKeywords : List (String × Keyword) :=
  [("return", .returnWord), ("while", .whileWord), ("endwhile", .endWhile), ("enddo", .endDo),
   ("repeat", .repeatWord), ("print", .printWord), ("until", .untilWord), ("class", .classWord),
   ("endclass", .endClass), ("this", .thisWord), ("createobject", .createObject),
   ("for", .forWord), ("to", .toWord), ("step", .stepWord), ("endfor", .endFor),
   ("dodefault", .doDefault), ("function", .functionWord), ("lparameters", .parametersWord),
   ("endfunc", .endFunc), ("do", .doWord), ("case", .caseWord), ("otherwise", .otherwiseWord),
   ("endcase", .endCase), ("exit", .exitWord), ("loop", .loopWord), ("private", .privateWord),
   ("import", .importWord), ("module", .moduleWord), ("endmodule", .endModule),
   ("release", .releaseWord), ("defer", .deferWord), ("enddefer", .endDefer)]

def ofKeyword (entry : String × Keyword) : String × Kind :=
  (entry.1, .keyword entry.2)

/-- The reserved words, the logical operators and the words that stand for a value, with the kinds
of their tokens. -/
def vocabulary : List (String × Kind) :=
  logicalWords ++ firstKeywords.map ofKeyword ++ valueWords ++ laterKeywords.map ofKeyword

def IsSpelling (word : String) (text : List Char) : Prop :=
  List.Forall₂ (fun letter c => Pattern.folds letter c = true) word.toList text

instance (word : String) (text : List Char) : Decidable (IsSpelling word text) :=
  inferInstanceAs (Decidable (List.Forall₂ _ _ _))

lemma vocabulary_lower :
    ∀ entry ∈ vocabulary, entry.1.toList ≠ [] ∧ entry.1.toList.all Char.isLower = true := by
  decide +kernel

lemma vocabulary_words : (vocabulary.map Prod.fst).Nodup := by
  decide +kernel

lemma vocabulary_kinds : (vocabulary.map Prod.snd).Nodup := by
  decide +kernel

/-- The only letter that a character may be a form of. -/
def letterOf (c : Char) : Char :=
  if c.toNat = 0x17F then 's' else if c.toNat = 0x212A then 'k' else c.toLower

lemma eq_letterOf {letter : Char} (hletter : letter.isLower = true)
    (h : Pattern.folds letter c = true) : letter = letterOf c := by
  simp only [Pattern.folds, Bool.or_eq_true, Bool.and_eq_true, beq_iff_eq] at h
  unfold letterOf
  rcases h with (h | ⟨rfl, h⟩) | ⟨rfl, h⟩
  · -- Neither of the two signs is a capital.
    have hsign : ∀ n, (Char.ofNat n).toLower.isLower = false → c.toNat ≠ n := by
      rintro n hn rfl
      rw [Char.ofNat_toNat, h, hletter] at hn
      cases hn
    rw [if_neg (hsign _ (by decide)), if_neg (hsign _ (by decide)), h]
  · rw [if_pos h]
  · rw [if_neg (by omega), if_pos h]

lemma map_letterOf {letters text : List Char} (hlower : ∀ c ∈ letters, c.isLower = true)
    (h : List.Forall₂ (fun letter c => Pattern.folds letter c = true) letters text) :
    letters = text.map letterOf := by
  induction h with
  | nil => rfl
  | cons hletter _ ih =>
    rw [List.forall_mem_cons] at hlower
    rw [List.map_cons, ← eq_letterOf hlower.1 hletter, ← ih hlower.2]

lemma entry_unique {a b : String × Kind} (ha : a ∈ vocabulary) (hb : b ∈ vocabulary)
    {text : List Char} (hat : IsSpelling a.1 text) (hbt : IsSpelling b.1 text) : a = b := by
  have hletters : ∀ entry ∈ vocabulary, IsSpelling entry.1 text →
      entry.1.toList = text.map letterOf :=
    fun entry hentry h => map_letterOf (List.all_eq_true.mp (vocabulary_lower entry hentry).2) h
  have hword : a.1 = b.1 :=
    String.toList_inj.mp ((hletters a ha hat).trans (hletters b hb hbt).symm)
  exact List.inj_on_of_nodup_map vocabulary_words ha hb hword

end Vocabulary

section Words

/-- The length of the word at the start of a text, or of the word between two points there. -/
def wordExtent : List Char → Nat
  | [] => 0
  | c :: cs => if c = '.' then span Text.isWord cs + 2 else span Text.isWord (c :: cs)

/-- A pattern that takes the whole word at which it stands, or a whole word between two points. -/
def TakesWord (pattern : Pattern) : Prop :=
  ∀ cs n, pattern cs = some n →
    n = wordExtent cs ∧ ∃ c ∈ cs.head?, Text.isWord c = true ∨ c = '.'

lemma isWord_point : Text.isWord '.' = false := by
  decide

lemma wordExtent_pos (h : ∃ c ∈ cs.head?, Text.isWord c = true ∨ c = '.') : 0 < wordExtent cs := by
  obtain ⟨c, hc, hword⟩ := h
  obtain ⟨rest, rfl⟩ := List.head?_eq_some_iff.mp hc
  rw [wordExtent]
  split
  · omega
  · next hpoint => simp [span, hword.resolve_right hpoint]

/-- A match of all word characters is a match of the whole word. -/
lemma extent_of_span (h : 0 < span Text.isWord cs) :
    span Text.isWord cs = wordExtent cs ∧ ∃ c ∈ cs.head?, Text.isWord c = true ∨ c = '.' := by
  cases cs with
  | nil => cases h
  | cons c cs =>
    have hc : Text.isWord c = true := by
      by_contra hc
      simp [span, hc] at h
    have hpoint : c ≠ '.' := ne_of_isWord hc isWord_point
    exact ⟨by rw [wordExtent, if_neg hpoint], c, rfl, .inl hc⟩

lemma exists_of_forall₂ {α β : Type} {R : α → β → Prop} {l : List α} {l' : List β}
    (h : List.Forall₂ R l l') {b : β} (hb : b ∈ l') : ∃ a ∈ l, R a b := by
  induction h with
  | nil => cases hb
  | cons hab _ ih =>
    rcases List.mem_cons.mp hb with rfl | hb
    · exact ⟨_, List.mem_cons_self, hab⟩
    · obtain ⟨a, ha, hab⟩ := ih hb
      exact ⟨a, List.mem_cons_of_mem _ ha, hab⟩

lemma spells_iff (letters cs : List Char) : Pattern.spells letters cs = true ↔
    List.Forall₂ (fun letter c => Pattern.folds letter c = true) letters
      (cs.take letters.length) := by
  induction letters generalizing cs with
  | nil => simp [Pattern.spells]
  | cons letter letters ih =>
    cases cs with
    | nil => simp [Pattern.spells]
    | cons c cs => simp [Pattern.spells, ih]

lemma spells_append_letters (u v cs : List Char) :
    Pattern.spells (u ++ v) cs = (Pattern.spells u cs && Pattern.spells v (cs.drop u.length)) := by
  induction u generalizing cs with
  | nil => simp [Pattern.spells]
  | cons letter u ih =>
    cases cs with
    | nil => simp [Pattern.spells]
    | cons c cs => simp [Pattern.spells, ih, Bool.and_assoc]

/-- Letters that are spelled with no word character behind them are a whole word. -/
lemma span_of_spells {letters : List Char} (hlower : ∀ c ∈ letters, c.isLower = true)
    (h : Pattern.spells letters cs = true) (hapart : Apart (cs.drop letters.length)) :
    span Text.isWord cs = letters.length := by
  have hfolds := (spells_iff letters cs).mp h
  have hword : ∀ c ∈ cs.take letters.length, Text.isWord c = true := by
    intro c hc
    obtain ⟨letter, hletter, hc⟩ := exists_of_forall₂ hfolds hc
    exact isWord_of_folds (hlower letter hletter) hc
  have hspan := span_word hword hapart
  rwa [List.take_append_drop, ← hfolds.length_eq] at hspan

lemma takesWord_word (hne : letters.toList ≠ []) (hlower : letters.toList.all Char.isLower = true) :
    TakesWord (Pattern.word letters) := by
  intro cs n h
  simp only [Pattern.word] at h
  split at h
  · next hmatch =>
    simp only [Bool.and_eq_true, Bool.not_eq_true'] at hmatch
    have hspan := span_of_spells (List.all_eq_true.mp hlower) hmatch.1 hmatch.2
    rw [← Option.some.inj h, ← hspan]
    exact extent_of_span (by rw [hspan]; exact List.length_pos_of_ne_nil hne)
  · cases h

lemma takesWord_dotted (inner : List Char) (hletters : letters.toList = '.' :: (inner ++ ['.']))
    (hlower : inner.all Char.isLower = true) : TakesWord (Pattern.spelling letters) := by
  intro cs n h
  simp only [Pattern.spelling, hletters] at h
  split at h
  · next hmatch =>
    cases cs with
    | nil => cases hmatch
    | cons c cs =>
      simp only [Pattern.spells, spells_append_letters, Bool.and_eq_true] at hmatch
      obtain ⟨hc, hinner, hpoint⟩ := hmatch
      obtain rfl := eq_point_of_folds hc
      have hapart : Apart (cs.drop inner.length) := by
        cases hdrop : cs.drop inner.length with
        | nil => rfl
        | cons d ds =>
          rw [hdrop] at hpoint
          simp only [Pattern.spells, Bool.and_true] at hpoint
          rw [eq_point_of_folds hpoint]
          exact isWord_point
      have hspan := span_of_spells (List.all_eq_true.mp hlower) hinner hapart
      refine ⟨?_, '.', rfl, .inr rfl⟩
      rw [wordExtent, if_pos rfl, hspan, ← Option.some.inj h]
      simp
  · cases h

lemma takesWord_either {p q : Pattern} (hp : TakesWord p) (hq : TakesWord q) :
    TakesWord (Pattern.either p q) := by
  intro cs n h
  rcases Option.or_eq_some_iff.mp h with h | ⟨-, h⟩
  · exact hp cs n h
  · exact hq cs n h

lemma takesWord_name : TakesWord (Pattern.many Text.isWord) := by
  intro cs n h
  obtain ⟨rfl, hpos⟩ := many_eq_some h
  exact extent_of_span hpos

/-- At a word, the pattern of a reserved word matches what spells it. -/
lemma word_at_word (letters : String) (hw : Wordy w) :
    Pattern.word letters w ≠ none ↔ IsSpelling letters w := by
  have hmatch : Pattern.word letters w ≠ none ↔
      Pattern.spells letters.toList w = true ∧ w.drop letters.toList.length = [] := by
    cases hdrop : w.drop letters.toList.length with
    | nil => simp [Pattern.word, hdrop]
    | cons c rest =>
      have hc : Text.isWord c = true :=
        hw.isWord (List.mem_of_mem_drop (hdrop ▸ List.mem_cons_self))
      simp [Pattern.word, hdrop, hc]
  rw [hmatch, spells_iff]
  constructor
  · rintro ⟨hfolds, hdrop⟩
    rwa [List.take_of_length_le (List.drop_eq_nil_iff.mp hdrop)] at hfolds
  · intro hfolds
    have hlength := hfolds.length_eq
    exact ⟨by rwa [hlength, List.take_length], by rw [hlength, List.drop_length]⟩

lemma spelling_at_word (h : letters.toList.head? = some '.') (hw : Wordy w) :
    Pattern.spelling letters w = none := by
  obtain ⟨c, cs, rfl⟩ := List.exists_cons_of_ne_nil hw.ne_nil
  exact spelling_none h (hw.isWord List.mem_cons_self) cs

lemma name_at_word (hw : Wordy w) : Pattern.many Text.isWord w ≠ none := by
  have hpos : 0 < w.length := List.length_pos_of_ne_nil hw.ne_nil
  unfold Pattern.many
  rw [hw.span]
  split
  · omega
  · exact Option.some_ne_none _

lemma wordExtent_wordy (hw : Wordy w) : wordExtent w = w.length := by
  have hpos : 0 < w.length := List.length_pos_of_ne_nil hw.ne_nil
  rw [← (extent_of_span (by rwa [hw.span])).1, hw.span]

end Words

section Shapes

/-- What the matches of a rule look like where no digit stands. -/
inductive Shape where
  | reserved (word : String) (kind : Kind)
  | name
  /-- What starts in one of some ways, and is a single character if `single` says so. -/
  | marked (single : Bool) (starts : List (List Char))
deriving DecidableEq

namespace Shape

def ofEntry (entry : String × Kind) : Shape :=
  .reserved entry.1 entry.2

def entry? : Shape → Option (String × Kind)
  | .reserved word kind => some (word, kind)
  | _ => none

end Shape

/-- Where no digit stands, a match starts in one of some ways, and it is a single character if
`single` says so. -/
def Starts (single : Bool) (starts : List (List Char)) (pattern : Pattern) : Prop :=
  ∀ c cs n, c.isDigit = false → pattern (c :: cs) = some n →
    0 < n ∧ (single = true → n = 1) ∧ ∃ start ∈ starts, start <+: c :: cs

def Shape.Fits : Shape → Rule → Prop
  | .reserved word kind, rule => rule.action.kind? = some kind ∧ TakesWord rule.pattern ∧
      ∀ w, Wordy w → (rule.pattern w ≠ none ↔ IsSpelling word w)
  | .name, rule => rule.action.kind? = some .name ∧ TakesWord rule.pattern ∧
      ∀ w, Wordy w → rule.pattern w ≠ none
  | .marked single starts, rule => Starts single starts rule.pattern

section Marks

variable {starts : List (List Char)} {p : Char → Bool}

lemma starts_one (h : ∀ c, p c = true → [c] ∈ starts) :
    Starts true starts (Pattern.one p) := by
  intro c cs n _ hmatch
  simp only [Pattern.one] at hmatch
  split at hmatch
  · next hc =>
    cases hmatch
    exact ⟨Nat.one_pos, fun _ => rfl, [c], h c hc, by simp⟩
  · cases hmatch

lemma starts_many (h : ∀ c, p c = true → [c] ∈ starts) :
    Starts false starts (Pattern.many p) := by
  intro c cs n _ hmatch
  obtain ⟨rfl, hpos⟩ := many_eq_some hmatch
  have hc : p c = true := by
    by_contra hc
    simp [span, hc] at hpos
  exact ⟨hpos, by simp, [c], h c hc, by simp⟩

lemma starts_withEquals (h : ∀ c, p c = true → [c, '='] ∈ starts) :
    Starts false starts (Pattern.withEquals p) := by
  intro c cs n _ hmatch
  rw [withEquals_cons] at hmatch
  split at hmatch
  · next hc =>
    obtain ⟨ds, rfl⟩ := List.head?_eq_some_iff.mp hc.1
    cases hmatch
    exact ⟨Nat.two_pos, by simp, [c, '='], h c hc.2, by simp⟩
  · cases hmatch

lemma starts_lineComment : Starts false [['/', '/']] Pattern.lineComment := by
  intro c cs n _ hmatch
  rw [lineComment_cons] at hmatch
  split at hmatch
  · next hc =>
    obtain ⟨ds, rfl⟩ := List.head?_eq_some_iff.mp hc.2
    cases hmatch
    exact ⟨by omega, by simp, ['/', '/'], by simp, by simp [hc.1]⟩
  · cases hmatch

lemma starts_blockComment : Starts false [['/', '*']] Pattern.blockComment := by
  intro c cs n _ hmatch
  rw [blockComment_cons] at hmatch
  split at hmatch
  · next hc =>
    obtain ⟨ds, rfl⟩ := List.head?_eq_some_iff.mp hc.2
    obtain ⟨m, -, rfl⟩ := Option.map_eq_some_iff.mp hmatch
    exact ⟨by omega, by simp, ['/', '*'], by simp, by simp [hc.1]⟩
  · cases hmatch

lemma starts_semicolonBreak : Starts false [[';']] Pattern.semicolonBreak := by
  intro c cs n _ hmatch
  rw [semicolonBreak_cons] at hmatch
  split at hmatch
  · next hc =>
    obtain ⟨m, -, rfl⟩ := Option.map_eq_some_iff.mp hmatch
    exact ⟨by omega, by simp, [';'], by simp, by simp [hc]⟩
  · cases hmatch

lemma starts_number : Starts false [] Pattern.number := by
  intro c cs n hdigit hmatch
  simp [Pattern.number, hdigit] at hmatch

lemma starts_quoted {quote : Char} :
    Starts false [[quote]] (Pattern.quoted quote) := by
  intro c cs n _ hmatch
  simp only [Pattern.quoted] at hmatch
  split at hmatch
  · next hc =>
    obtain ⟨m, -, rfl⟩ := Option.map_eq_some_iff.mp hmatch
    exact ⟨by omega, by simp, [quote], by simp, by simp [hc]⟩
  · cases hmatch

lemma starts_raw : Starts false [[Pattern.backtick]] Pattern.raw := by
  intro c cs n _ hmatch
  simp only [Pattern.raw] at hmatch
  split at hmatch
  · next hc =>
    split at hmatch
    · cases hmatch
      exact ⟨by omega, by simp, [Pattern.backtick], by simp, by simp [hc]⟩
    · cases hmatch
  · cases hmatch

lemma starts_comparison : Starts false [['<'], ['>']] Pattern.comparison := by
  intro c cs n _ hmatch
  simp only [Pattern.comparison] at hmatch
  split at hmatch
  · next hc =>
    cases hmatch
    refine ⟨by split <;> omega, by simp, [c], by simpa using hc, by simp⟩
  · cases hmatch

lemma isSpace_cases (h : Pattern.isSpace c = true) :
    [c] ∈ [[' '], ['\t'], ['\r'], [Char.ofNat 0x0C]] := by
  have hfeed : c.toNat = 0x0C → c = Char.ofNat 0x0C :=
    fun hc => (Char.ofNat_toNat c).symm.trans (congrArg Char.ofNat hc)
  simp only [Pattern.isSpace, Bool.or_eq_true, beq_iff_eq] at h
  simp only [List.mem_cons, List.cons.injEq, and_true, List.not_mem_nil, or_false]
  tauto

end Marks

lemma fits_word {word : String} {action : Action} (hkind : action.kind? = some kind)
    (hne : word.toList ≠ []) (hlower : word.toList.all Char.isLower = true) :
    Shape.Fits (.reserved word kind) ⟨.word word, action⟩ :=
  ⟨hkind, takesWord_word hne hlower, fun _ hw => word_at_word word hw⟩

/-- A word keeps its shape if it may also be written between points. -/
lemma fits_dotted {word : String} {action : Action} {pattern : Pattern} (inner : List Char)
    (hletters : letters.toList = '.' :: (inner ++ ['.'])) (hlower : inner.all Char.isLower = true)
    (h : Shape.Fits (.reserved word kind) ⟨pattern, action⟩) :
    Shape.Fits (.reserved word kind) ⟨.either (.spelling letters) pattern, action⟩ := by
  obtain ⟨hkind, htakes, hword⟩ := h
  refine ⟨hkind, takesWord_either (takesWord_dotted inner hletters hlower) htakes, ?_⟩
  intro w hw
  have hnone : Pattern.spelling letters w = none := spelling_at_word (by rw [hletters]; rfl) hw
  rw [← hword w hw]
  simp only [Pattern.either, hnone, Option.none_or]

def leadingShapes : List Shape :=
  [.marked false [[' '], ['\t'], ['\r'], [Char.ofNat 0x0C]],
   .marked false [['/', '/']],
   .marked false [['/', '*']],
   .marked false [[';']],
   .marked true [[';']],
   .marked false [['\n']],
   .marked false [],
   .marked false [['"']],
   .marked false [[Pattern.apostrophe]],
   .marked false [[Pattern.backtick]],
   .marked false [['<'], ['>']],
   .marked false [['=', '='], ['!', '=']],
   .reserved "and" .and,
   .reserved "or" .or,
   .marked true [['!']]]

def signShapes : List Shape :=
  [.marked true [['=']],
   .marked false [['+', '='], ['-', '='], ['*', '='], ['/', '=']],
   .marked true [['+'], ['-']],
   .marked true [['*'], ['/']]]

def punctuationShapes : List Shape :=
  ['(', ')', '[', ']', ',', '.', ':', '?', '&'].map fun c => .marked true [[c]]

def wordShapes : List Shape :=
  leadingShapes ++ firstKeywords.map (fun entry => .ofEntry (ofKeyword entry)) ++
    valueWords.map .ofEntry ++ laterKeywords.map (fun entry => .ofEntry (ofKeyword entry)) ++
    signShapes

def tableShapes : List Shape :=
  wordShapes ++ .name :: punctuationShapes

lemma leading_fits : List.Forall₂ Shape.Fits leadingShapes Rule.leading := by
  exact .cons (starts_many fun c hc => isSpace_cases hc) <| .cons starts_lineComment <|
    .cons starts_blockComment <| .cons starts_semicolonBreak <| .cons (starts_one (by simp)) <|
    .cons (starts_many (by simp)) <| .cons starts_number <| .cons starts_quoted <|
    .cons starts_quoted <| .cons starts_raw <| .cons starts_comparison <|
    .cons (starts_withEquals (by simp)) <|
    .cons (fits_dotted "and".toList rfl rfl (fits_word rfl (by decide) rfl)) <|
    .cons (fits_dotted "or".toList rfl rfl (fits_word rfl (by decide) rfl)) <|
    .cons (starts_one (by simp)) .nil

lemma constants_fit : List.Forall₂ Shape.Fits (valueWords.map .ofEntry) Rule.constants :=
  .cons (fits_dotted "t".toList rfl rfl <| fits_dotted "true".toList rfl rfl <|
      fits_word rfl (by decide) rfl) <|
    .cons (fits_dotted "f".toList rfl rfl <| fits_dotted "false".toList rfl rfl <|
      fits_word rfl (by decide) rfl) <|
    .cons (fits_dotted "null".toList rfl rfl <| fits_word rfl (by decide) rfl) .nil

lemma trailing_fits :
    List.Forall₂ Shape.Fits (signShapes ++ .name :: punctuationShapes) Rule.trailing := by
  have hpunctuation (c : Char) (kind : Kind) :
      Shape.Fits (.marked true [[c]]) (.punctuation c kind) :=
    starts_one (by simp)
  exact .cons (starts_one (by simp)) <| .cons (starts_withEquals (by simp [or_assoc])) <|
    .cons (starts_one (by simp)) <| .cons (starts_one (by simp)) <|
    .cons ⟨rfl, takesWord_name, fun _ => name_at_word⟩ <|
    .cons (hpunctuation _ _) <| .cons (hpunctuation _ _) <| .cons (hpunctuation _ _) <|
    .cons (hpunctuation _ _) <| .cons (hpunctuation _ _) <| .cons (hpunctuation _ _) <|
    .cons (hpunctuation _ _) <| .cons (hpunctuation _ _) <| .cons (hpunctuation _ _) .nil

lemma keywords_fit (entries : List (String × Keyword)) (h : entries.map ofKeyword ⊆ vocabulary) :
    List.Forall₂ Shape.Fits (entries.map fun entry => .ofEntry (ofKeyword entry))
      (entries.map fun entry => .keyword entry.1 entry.2) := by
  rw [List.forall₂_map_left_iff, List.forall₂_map_right_iff, List.forall₂_same]
  intro entry hentry
  obtain ⟨hne, hlower⟩ := vocabulary_lower _ (h (List.mem_map_of_mem hentry))
  exact fits_word rfl hne hlower

lemma table_fits : List.Forall₂ Shape.Fits tableShapes Rule.table := by
  have hfirst := keywords_fit firstKeywords fun entry hentry =>
    List.mem_append_left _ (List.mem_append_left _ (List.mem_append_right _ hentry))
  have hlater := keywords_fit laterKeywords fun entry hentry => List.mem_append_right _ hentry
  have hwords := List.rel_append (List.rel_append (List.rel_append leading_fits hfirst)
    constants_fit) hlater
  rw [tableShapes, wordShapes, List.append_assoc]
  exact List.rel_append hwords trailing_fits

end Shapes

section Longest

/-- The start of no word, and no point. -/
def wordless (start : List Char) : Bool :=
  start.head?.any fun c => !Text.isWord c && c != '.'

/-- Whether a rule of the second shape never has the longer match where both match. -/
def Shape.outlasts : Shape → Shape → Bool
  | _, .marked true _ => true
  | .marked _ starts, .marked false others =>
    starts.all fun start => others.all fun other =>
      !start.isPrefixOf other && !other.isPrefixOf start
  | .marked _ starts, _ => starts.all wordless
  | _, .marked false starts => starts.all wordless
  | _, _ => true

lemma tableShapes_outlast : tableShapes.Pairwise fun a b => a.outlasts b = true := by
  decide +kernel

/-- Two starts of one text go on with each other. -/
lemma apart_of_starts {starts others : List (List Char)}
    (h : (starts.all fun start => others.all fun other =>
      !start.isPrefixOf other && !other.isPrefixOf start) = true)
    (hstart : ∃ start ∈ starts, start <+: cs) : ¬∃ other ∈ others, other <+: cs := by
  rintro ⟨other, hother, hcs'⟩
  obtain ⟨start, hstart, hcs⟩ := hstart
  have hapart := List.all_eq_true.mp (List.all_eq_true.mp h start hstart) other hother
  simp only [Bool.and_eq_true, Bool.not_eq_true', ← Bool.not_eq_true, List.isPrefixOf_iff_prefix]
    at hapart
  rcases List.prefix_or_prefix_of_prefix hcs hcs' with hle | hle
  · exact hapart.1 hle
  · exact hapart.2 hle

lemma not_word_of_wordless {starts : List (List Char)} (h : starts.all wordless = true)
    (hstart : ∃ start ∈ starts, start <+: cs) :
    ¬∃ c ∈ cs.head?, Text.isWord c = true ∨ c = '.' := by
  rintro ⟨c, hc, hword⟩
  obtain ⟨start, hstart, rest, rfl⟩ := hstart
  have hwordless := List.all_eq_true.mp h start hstart
  cases start with
  | nil => cases hwordless
  | cons d start =>
    cases hc
    rcases hword with hword | rfl
    · simp [wordless, hword] at hwordless
    · simp [wordless] at hwordless

lemma Shape.Fits.pos {shape : Shape} (h : shape.Fits rule) (hdigit : c.isDigit = false)
    (hn : rule.pattern (c :: cs) = some n) : 0 < n := by
  cases shape with
  | marked single starts => exact (h c cs n hdigit hn).1
  | reserved | name =>
    obtain ⟨rfl, hhead⟩ := h.2.1 _ _ hn
    exact wordExtent_pos hhead

/-- Where the rules of two shapes match, the one that outlasts the other takes no less. -/
lemma le_of_outlasts {a b : Shape} (h : a.outlasts b = true) {other : Rule} (hrule : a.Fits rule)
    (hother : b.Fits other) (hdigit : c.isDigit = false) {k : Nat}
    (hn : rule.pattern (c :: cs) = some n) (hk : other.pattern (c :: cs) = some k) : k ≤ n := by
  have hpos := hrule.pos hdigit hn
  cases b with
  | marked single others =>
    obtain ⟨-, hsingle, hothers⟩ := hother c cs k hdigit hk
    cases single with
    | true =>
      rw [hsingle rfl]
      exact hpos
    | false =>
      cases a with
      | marked _ starts =>
        obtain ⟨-, -, hstarts⟩ := hrule c cs n hdigit hn
        exact absurd hothers (apart_of_starts h hstarts)
      | reserved | name =>
        obtain ⟨-, hword⟩ := hrule.2.1 _ _ hn
        exact absurd hword (not_word_of_wordless h hothers)
  | reserved | name =>
    obtain ⟨hextent, hword⟩ := hother.2.1 _ _ hk
    cases a with
    | marked _ starts =>
      obtain ⟨-, -, hstarts⟩ := hrule c cs n hdigit hn
      exact absurd hword (not_word_of_wordless h hstarts)
    | reserved | name => rw [hextent, (hrule.2.1 _ _ hn).1]

/-- The first rule that matches has the longest match, as long as every rule outlasts those behind
it. -/
lemma longest_of_first {shapes : List Shape} {rules : List Rule}
    (hfits : List.Forall₂ Shape.Fits shapes rules)
    (houtlast : shapes.Pairwise fun a b => a.outlasts b = true) (hdigit : c.isDigit = false)
    (hfirst : (rules.findSome? fun rule => (rule.pattern (c :: cs)).map fun n => (rule, n)) =
      some (rule, n)) : ∀ other ∈ rules, ∀ k, other.pattern (c :: cs) = some k → k ≤ n := by
  induction hfits with
  | nil => cases hfirst
  | @cons shape first shapes rules hfit hfits ih =>
    obtain ⟨hbefore, houtlast⟩ := List.pairwise_cons.mp houtlast
    intro other hother k hk
    rw [List.findSome?_cons] at hfirst
    cases hmatch : first.pattern (c :: cs) with
    | none =>
      rw [hmatch] at hfirst
      rcases List.mem_cons.mp hother with rfl | hother
      · simp [hmatch] at hk
      · exact ih houtlast hfirst other hother k hk
    | some m =>
      rw [hmatch] at hfirst
      cases hfirst
      rcases List.mem_cons.mp hother with rfl | hother
      · exact le_of_eq (Option.some.inj (hk.symm.trans hmatch))
      · obtain ⟨shape', hshape', hfit'⟩ := exists_of_forall₂ hfits hother
        exact le_of_outlasts (hbefore shape' hshape') hfit hfit' hdigit hmatch hk

end Longest

section Reserved

/-- The kind that an entry of the vocabulary gives to a word. -/
def reservedKind? (w : List Char) (entry : String × Kind) : Option Kind :=
  if IsSpelling entry.1 w then some entry.2 else none

def wordKind (w : List Char) : Kind :=
  (vocabulary.findSome? (reservedKind? w)).getD .name

lemma vocabulary_tokens :
    ∀ entry ∈ vocabulary, entry.2 ≠ .name ∧ entry.2 ≠ .separator ∧ entry.2 ≠ .number := by
  decide +kernel

lemma wordKind_cases (w : List Char) :
    (∃ entry ∈ vocabulary, IsSpelling entry.1 w ∧ wordKind w = entry.2) ∨
      (∀ entry ∈ vocabulary, ¬IsSpelling entry.1 w) ∧ wordKind w = .name := by
  unfold wordKind
  cases hfound : vocabulary.findSome? (reservedKind? w) with
  | none =>
    refine .inr ⟨fun entry hentry hspells => ?_, rfl⟩
    have hnone := List.findSome?_eq_none_iff.mp hfound entry hentry
    simp [reservedKind?, hspells] at hnone
  | some kind =>
    obtain ⟨entry, hentry, hkind⟩ := List.exists_of_findSome?_eq_some hfound
    unfold reservedKind? at hkind
    split at hkind
    · next hspells => exact .inl ⟨entry, hentry, hspells, (Option.some.inj hkind).symm⟩
    · cases hkind

lemma wordKind_eq_iff {entry : String × Kind} (hentry : entry ∈ vocabulary) (w : List Char) :
    wordKind w = entry.2 ↔ IsSpelling entry.1 w := by
  rcases wordKind_cases w with ⟨entry', hentry', hspells, hkind⟩ | ⟨hnone, hkind⟩
  · rw [hkind]
    constructor
    · intro hsame
      rwa [← List.inj_on_of_nodup_map vocabulary_kinds hentry' hentry hsame]
    · intro hspells'
      rw [entry_unique hentry' hentry hspells hspells']
  · rw [hkind]
    constructor
    · exact fun hsame => absurd hsame.symm (vocabulary_tokens entry hentry).1
    · exact fun hspells => absurd hspells (hnone entry hentry)

lemma wordKind_eq_name (w : List Char) :
    wordKind w = .name ↔ ∀ entry ∈ vocabulary, ¬IsSpelling entry.1 w := by
  rcases wordKind_cases w with ⟨entry, hentry, hspells, hkind⟩ | ⟨hnone, hkind⟩
  · rw [hkind]
    constructor
    · exact fun hname => absurd hname (vocabulary_tokens entry hentry).1
    · exact fun hnone => absurd hspells (hnone entry hentry)
  · simp only [hkind, true_iff]
    exact hnone

lemma wordKind_token (w : List Char) : wordKind w ≠ .separator ∧ wordKind w ≠ .number := by
  rcases wordKind_cases w with ⟨entry, hentry, -, hkind⟩ | ⟨-, hkind⟩
  · rw [hkind]
    exact (vocabulary_tokens entry hentry).2
  · simp [hkind]

lemma TakesWord.length {pattern : Pattern} (h : TakesWord pattern) (hw : Wordy w)
    (hmatch : pattern w ≠ none) : pattern w = some w.length := by
  obtain ⟨n, hn⟩ := Option.ne_none_iff_exists'.mp hmatch
  rw [hn, (h w n hn).1, wordExtent_wordy hw]

/-- At a word, a rule before the names matches if the word spells its entry. -/
lemma Shape.Fits.at_word {shape : Shape} (h : shape.Fits rule)
    (hbefore : shape ≠ .name ∧ shape.outlasts .name = true) (hw : Wordy w) :
    rule.pattern w = (shape.entry?.bind (reservedKind? w)).map (fun _ => w.length) ∧
      ∀ kind ∈ shape.entry?.bind (reservedKind? w), rule.action.kind? = some kind := by
  cases shape with
  | name => exact absurd rfl hbefore.1
  | marked single starts =>
    obtain ⟨c, cs, rfl⟩ := List.exists_cons_of_ne_nil hw.ne_nil
    refine ⟨Option.eq_none_iff_forall_ne_some.mpr fun n hn => ?_, by simp [Shape.entry?]⟩
    obtain ⟨-, -, hstart⟩ := h c cs n (hw.head rfl) hn
    exact not_word_of_wordless hbefore.2 hstart ⟨c, rfl, .inl (hw.isWord List.mem_cons_self)⟩
  | reserved word kind =>
    obtain ⟨hkind, htakes, hspells⟩ := h
    simp only [Shape.entry?, Option.bind_some, reservedKind?]
    by_cases hword : IsSpelling word w
    · rw [if_pos hword, htakes.length hw ((hspells w hw).mpr hword)]
      exact ⟨rfl, fun kind' h => hkind.trans h⟩
    · rw [if_neg hword]
      exact ⟨not_not.mp fun hmatch => hword ((hspells w hw).mp hmatch), by simp⟩

/-- At a word, the first rule that matches is one of a reserved word, or the one of names. -/
lemma first_of_shapes {shapes after : List Shape} {rules : List Rule}
    (hfits : List.Forall₂ Shape.Fits (shapes ++ .name :: after) rules)
    (hbefore : ∀ shape ∈ shapes, shape ≠ .name ∧ shape.outlasts .name = true) (hw : Wordy w) :
    ∃ rule, (rules.findSome? fun rule => (rule.pattern w).map fun n => (rule, n)) =
        some (rule, w.length) ∧
      rule.action.kind? =
        some ((shapes.findSome? fun shape => shape.entry?.bind (reservedKind? w)).getD .name) := by
  induction shapes generalizing rules with
  | nil =>
    cases hfits with
    | @cons _ rule _ _ hname _ =>
      obtain ⟨hkind, htakes, hmatch⟩ := hname
      refine ⟨rule, ?_, hkind⟩
      rw [List.findSome?_cons, htakes.length hw (hmatch w hw)]
      rfl
  | cons shape shapes ih =>
    rw [List.forall_mem_cons] at hbefore
    cases hfits with
    | @cons _ rule _ rules hfit hfits =>
      obtain ⟨hmatch, hkind⟩ := hfit.at_word hbefore.1 hw
      rw [List.findSome?_cons, List.findSome?_cons, hmatch]
      cases hreserved : shape.entry?.bind (reservedKind? w) with
      | none => exact ih hfits hbefore.2
      | some kind => exact ⟨rule, rfl, hkind kind hreserved⟩

lemma wordShapes_before_name :
    ∀ shape ∈ wordShapes, shape ≠ .name ∧ shape.outlasts .name = true := by
  decide +kernel

lemma wordShapes_entries : wordShapes.filterMap Shape.entry? = vocabulary := by
  decide +kernel

/-- The rule that decides at a word takes the whole word. -/
lemma first_at_word (hw : Wordy w) :
    ∃ rule, Rule.first? w = some (rule, w.length) ∧ rule.action.kind? = some (wordKind w) := by
  have hkind : (wordShapes.findSome? fun shape => shape.entry?.bind (reservedKind? w)) =
      vocabulary.findSome? (reservedKind? w) := by
    rw [← List.head?_filterMap, ← List.filterMap_filterMap, wordShapes_entries,
      List.head?_filterMap]
  obtain ⟨rule, hfirst, hrule⟩ := first_of_shapes table_fits wordShapes_before_name hw
  rw [hkind] at hrule
  exact ⟨rule, hfirst, hrule⟩

end Reserved

section Scanning

/-- The rule is the first of the table that matches at a text, and it takes `n` characters. -/
def FirstMatch (rest : List Char) (rule : Rule) (n : Nat) : Prop :=
  ∃ earlier later, Rule.table = earlier ++ rule :: later ∧
    (∀ other ∈ earlier, other.pattern rest = none) ∧ rule.pattern rest = some n

lemma firstMatch_of_first (h : Rule.first? rest = some (rule, n)) : FirstMatch rest rule n := by
  obtain ⟨earlier, rule', later, htable, hmatch, hnone⟩ := List.findSome?_eq_some_iff.mp h
  obtain ⟨m, hm, heq⟩ := Option.map_eq_some_iff.mp hmatch
  obtain ⟨rfl, rfl⟩ := Prod.mk.inj heq
  exact ⟨earlier, later, htable, fun other hother => by simpa using hnone other hother, hm⟩

/-- Where nothing is cut off by a rule, no rule matches. -/
lemma none_of_unexpected (hdigit : c.isDigit = false)
    (h : ∀ rule n, Rule.first? (c :: cs) ≠ some (rule, n + 1)) :
    ∀ rule ∈ Rule.table, rule.pattern (c :: cs) = none := by
  cases hfirst : Rule.first? (c :: cs) with
  | none => exact fun rule hrule => by simpa using List.findSome?_eq_none_iff.mp hfirst rule hrule
  | some found =>
    obtain ⟨rule, n⟩ := found
    obtain ⟨hrule, hmatch⟩ := match_of_first hfirst
    obtain ⟨shape, -, hfit⟩ := exists_of_forall₂ table_fits hrule
    have hpos := hfit.pos hdigit hmatch
    exact absurd hfirst (by rw [← Nat.succ_pred_eq_of_pos hpos]; exact h rule n.pred)

lemma mem_readAll (earlier later : List Piece) (piece : Piece) (afterToken : Bool) (p : Position) :
    ∃ b, ∀ item ∈ piece.read b (p.after (earlier.flatMap Piece.text)),
      item ∈ Piece.readAll afterToken p (earlier ++ piece :: later) := by
  induction earlier generalizing afterToken p with
  | nil =>
    refine ⟨afterToken, fun item hitem => ?_⟩
    have hread : piece.read afterToken p = some item := hitem
    rw [List.nil_append, Piece.readAll, hread]
    cases item <;> exact List.mem_cons_self
  | cons first earlier ih =>
    rw [List.cons_append, Piece.readAll, List.flatMap_cons, after_append]
    rcases first.read afterToken p with _ | e | token
    · exact ih afterToken _
    · obtain ⟨b, hb⟩ := ih afterToken (p.after first.text)
      exact ⟨b, fun item hitem => List.mem_cons_of_mem _ (hb item hitem)⟩
    · obtain ⟨b, hb⟩ := ih (token.kind != .separator) (p.after first.text)
      exact ⟨b, fun item hitem => List.mem_cons_of_mem _ (hb item hitem)⟩

lemma read_of_kind (hkind : piece.action.bind Action.kind? = some kind)
    (hne : kind ≠ .separator ∧ kind ≠ .number) (afterToken : Bool) (p : Position) :
    ∃ token, piece.read afterToken p = some (.ok token) := by
  obtain ⟨action, haction, hkind⟩ := Option.bind_eq_some_iff.mp hkind
  cases action with
  | skip => cases hkind
  | separator => exact absurd (Option.some.inj hkind).symm hne.1
  | number => exact absurd (Option.some.inj hkind).symm hne.2
  | quoted | raw | operator | token => simp [Piece.read, haction]

lemma token_of_word {source : String} {before after : List Piece}
    (hcut : Piece.cut (endLine source.toList) = before ++ piece :: after)
    (hkind : piece.action.bind Action.kind? = some (wordKind piece.text)) :
    ∃ token ∈ (scan source).tokens, token.position = placeBehind (before.flatMap Piece.text) ∧
      token.lexeme = String.ofList piece.text ∧ token.kind = wordKind piece.text := by
  obtain ⟨b, hmem⟩ := mem_readAll before after piece false .start
  obtain ⟨token, hread⟩ := read_of_kind hkind (wordKind_token piece.text) b
    (Position.start.after (before.flatMap Piece.text))
  obtain ⟨hmakes, hlexeme⟩ := read_token hread
  refine ⟨token, ?_, ?_, hlexeme, (Option.some.inj (hkind.symm.trans hmakes)).symm⟩
  · rw [scan_tokens, hcut]
    exact List.mem_filterMap.mpr ⟨.ok token, hmem _ hread, rfl⟩
  · rw [token_position hread, start_after]

lemma wordy_takeWhile (hc : c ∈ rest.head?) (hdigit : c.isDigit = false)
    (hword : Text.isWord c = true) : Wordy (rest.takeWhile Text.isWord) := by
  obtain ⟨cs, rfl⟩ := List.head?_eq_some_iff.mp hc
  rw [List.takeWhile_cons_of_pos hword]
  refine ⟨List.cons_ne_nil _ _, fun hd => ?_, fun hd => ?_⟩
  · cases hd
    exact hdigit
  · rw [← List.takeWhile_cons_of_pos hword] at hd
    exact List.mem_takeWhile_imp hd

lemma cutOff_word (h : CutOff rest piece) (hc : c ∈ rest.head?) (hdigit : c.isDigit = false)
    (hword : Text.isWord c = true) :
    piece.text = rest.takeWhile Text.isWord ∧
      piece.action.bind Action.kind? = some (wordKind piece.text) := by
  have hw := wordy_takeWhile hc hdigit hword
  have hsplit : rest.takeWhile Text.isWord ++ rest.dropWhile Text.isWord = rest :=
    List.takeWhile_append_dropWhile
  obtain ⟨rule, hfirst, hkind⟩ := first_at_word hw
  have hfirst : Rule.first? rest = some (rule, (rest.takeWhile Text.isWord).length) := by
    rw [← first_word hw (apart_dropWhile rest), hsplit] at hfirst
    exact hfirst
  obtain ⟨n, hn⟩ := Nat.exists_eq_succ_of_ne_zero (List.length_pos_of_ne_nil hw.ne_nil).ne'
  cases h with
  | unexpected _ hnone => exact absurd (hfirst.trans (by rw [hn])) (hnone rule n)
  | @found rule' m hfound =>
    obtain ⟨rfl, hm⟩ := Prod.mk.inj (Option.some.inj (hfound.symm.trans hfirst))
    have htext : rest.take (m + 1) = rest.takeWhile Text.isWord := by
      rw [hm]
      exact take_span Text.isWord rest
    exact ⟨htext, by rw [htext]; exact hkind⟩

/-- What is cut off where no digit stands is the longest match, or no rule matches. -/
lemma longest_of_cutOff (hended : Ended rest) (h : CutOff rest piece)
    (hdigit : ∀ c ∈ rest.head?, c.isDigit = false) :
    (∃ rule, FirstMatch rest rule piece.text.length ∧ piece.action = some rule.action ∧
        ∀ other ∈ Rule.table, ∀ n, other.pattern rest = some n → n ≤ piece.text.length) ∨
      piece.action = none ∧ piece.text.length = 1 ∧
        ∀ other ∈ Rule.table, other.pattern rest = none := by
  cases h with
  | unexpected hrest hnone =>
    subst hrest
    exact .inr ⟨rfl, rfl, none_of_unexpected (hdigit _ rfl) hnone⟩
  | @found rule n hfirst =>
    have hlength : (rest.take (n + 1)).length = n + 1 :=
      List.length_take_of_le (separator_of_first hended hfirst).1
    rw [hlength]
    refine .inl ⟨rule, firstMatch_of_first hfirst, rfl, ?_⟩
    obtain ⟨c, cs, rfl⟩ := List.exists_cons_of_ne_nil hended.ne_nil
    exact longest_of_first table_fits tableShapes_outlast (hdigit c rfl) hfirst

/-- Wherever scanning stops before a character that is no digit, the first rule of the table that
matches there has the longest match of all rules, or no rule matches. At a word, all of the word
becomes a token; the token is a reserved word, a logical operator or a word for a value if the whole
word is spelled like it up to case, and a name otherwise. -/
theorem first_match_is_longest (source : String) (before after : List Piece) (piece : Piece)
    (hcut : Piece.cut (endLine source.toList) = before ++ piece :: after)
    (hdigit : ∀ c ∈ piece.text.head?, c.isDigit = false) :
    let rest := piece.text ++ after.flatMap Piece.text
    ((∃ rule, FirstMatch rest rule piece.text.length ∧ piece.action = some rule.action ∧
        ∀ other ∈ Rule.table, ∀ n, other.pattern rest = some n → n ≤ piece.text.length) ∨
      piece.action = none ∧ piece.text.length = 1 ∧
        ∀ other ∈ Rule.table, other.pattern rest = none) ∧
    ∀ c ∈ piece.text.head?, Text.isWord c = true →
      piece.text = rest.takeWhile Text.isWord ∧
      ∃ token ∈ (scan source).tokens,
        token.position = placeBehind (before.flatMap Piece.text) ∧
        token.lexeme = String.ofList piece.text ∧
        (∀ entry ∈ vocabulary, token.kind = entry.2 ↔ IsSpelling entry.1 piece.text) ∧
        (token.kind = .name ↔ ∀ entry ∈ vocabulary, ¬IsSpelling entry.1 piece.text) := by
  intro rest
  have hoff : CutOff rest piece := cutOff_of_cut hcut
  have hne : piece.text ≠ [] :=
    text_ne_nil (hcut ▸ List.mem_append_right before List.mem_cons_self)
  have hhead : rest.head? = piece.text.head? := List.head?_append_of_ne_nil _ hne
  have htext : endLine source.toList = before.flatMap Piece.text ++ rest := by
    rw [← cut_text (endLine source.toList), hcut, List.flatMap_append, List.flatMap_cons]
  have hended : Ended rest :=
    (ended_endLine source.toList).suffix ⟨_, htext.symm⟩ (List.append_ne_nil_of_left_ne_nil hne _)
  rw [← hhead] at hdigit ⊢
  refine ⟨longest_of_cutOff hended hoff hdigit, ?_⟩
  intro c hc hword
  obtain ⟨hwhole, hkind⟩ := cutOff_word hoff hc (hdigit c hc) hword
  obtain ⟨token, htoken, hplace, hlexeme, hwordKind⟩ := token_of_word hcut hkind
  refine ⟨hwhole, token, htoken, hplace, hlexeme, ?_, ?_⟩
  · rw [hwordKind]
    exact fun entry hentry => wordKind_eq_iff hentry piece.text
  · rw [hwordKind]
    exact wordKind_eq_name piece.text

/-- The long s is a form of its letter, so the keyword is found before the name, and both take the
whole word. -/
theorem long_s_spells_class :
    ∃ (piece : Piece) (after : List Piece),
      Piece.cut (endLine "claſS".toList) = [] ++ piece :: after ∧
      (∀ c ∈ piece.text.head?, c.isDigit = false) ∧
      (∀ other ∈ Rule.table, ∀ n,
        other.pattern (piece.text ++ after.flatMap Piece.text) = some n → n ≤ 5) ∧
      ∃ token ∈ (scan "claſS").tokens, token.position = ⟨1, 1⟩ ∧ token.lexeme = "claſS" ∧
        token.kind = .keyword .classWord := by
  have hall : "claſS".toList.all Text.isWord = true := by decide +kernel
  have hw : Wordy "claſS".toList :=
    ⟨by decide, fun hc => by cases hc; decide, fun hc => List.all_eq_true.mp hall _ hc⟩
  obtain ⟨rule, hfirst, -⟩ := first_at_word hw
  have hcut : Piece.cut (endLine "claſS".toList) =
      [] ++ ⟨some rule.action, "claſS".toList⟩ :: Piece.cut ['\n'] :=
    cut_word hw (apart_cons rfl) hfirst
  have hdigit : ∀ c ∈ "claſS".toList.head?, c.isDigit = false := fun c hc => by cases hc; decide
  obtain ⟨hlongest, hword⟩ := first_match_is_longest "claſS" [] _ _ hcut hdigit
  refine ⟨_, _, hcut, hdigit, ?_, ?_⟩
  · rcases hlongest with ⟨rule', -, -, hle⟩ | ⟨hnone, -⟩
    · exact hle
    · cases hnone
  · have hspells : IsSpelling "class" "claſS".toList := by decide
    obtain ⟨-, token, htoken, hplace, hlexeme, hkind, -⟩ := hword 'c' rfl (by decide)
    exact ⟨token, htoken, hplace, hlexeme,
      (hkind ("class", .keyword .classWord) (by decide)).mpr hspells⟩

end Scanning

end XBase.Proofs
