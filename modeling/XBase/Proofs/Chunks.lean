import XBase.Proofs.Joining

/-!
# The chunks of a source text

Scanning cuts a source text into chunks that leave no gap. A chunk gives a token, an error or
nothing, and what it gives stands at the place where the chunk starts. Nothing is given by blanks,
comments, a semicolon within its line, and a separator where no statement has to be ended. So the
tokens are statements that each have their separator behind them, whatever the text leaves open.
-/

namespace XBase.Proofs

open Pattern (span)

section Places

/-- The place behind a text: a line for every line end, and a column for every character that stands
behind the last line end. -/
def placeBehind (cs : List Char) : Position :=
  ⟨1 + cs.count '\n', 1 + (cs.rtakeWhile (· != '\n')).length⟩

lemma placeBehind_concat (cs : List Char) (c : Char) :
    placeBehind (cs ++ [c]) = (placeBehind cs).next c := by
  unfold placeBehind Position.next
  by_cases hc : c = '\n'
  · rw [if_pos hc, hc, List.rtakeWhile_concat]
    simp [Nat.add_assoc]
  · have hcount : (cs ++ [c]).count '\n' = cs.count '\n' := by simp [hc]
    rw [if_neg hc, hcount, List.rtakeWhile_concat_pos _ _ _ (by simpa using hc)]
    simp [Nat.add_assoc]

lemma start_after (cs : List Char) : Position.start.after cs = placeBehind cs := by
  induction cs using List.reverseRecOn with
  | nil => rfl
  | append_singleton cs c ih => rw [after_append, ih, placeBehind_concat]; rfl

end Places

variable {cs : List Char} {n : Nat} {piece : Piece} {afterToken : Bool} {p : Position}
  {token : Token} {tokens : List Token} {scanned : Scan}

section Silence

def IsBlank (text : List Char) : Prop :=
  ∀ c ∈ text, Pattern.isSpace c = true

/-- A comment up to the end of its line, or one between two marks, of which the second stands only
at the end. -/
inductive IsComment : List Char → Prop
  | line {body : List Char} (h : '\n' ∉ body) : IsComment ('/' :: '/' :: body)
  | block {body : List Char} (h : ¬['*', '/'] <:+: body ++ ['*']) :
      IsComment ('/' :: '*' :: (body ++ ['*', '/']))

/-- Line ends, with or without a semicolon before them. -/
inductive IsSeparator : List Char → Prop
  | lines (n : Nat) : IsSeparator (List.replicate (n + 1) '\n')
  | semicolon {blanks : List Char} (h : IsBlank blanks) (n : Nat) :
      IsSeparator (';' :: (blanks ++ List.replicate (n + 1) '\n'))

/-- What a chunk is that gives nothing, if `tokens` come before it and `behind` is the text behind
it. -/
inductive Silent (tokens : List Token) (behind : List Char) : List Char → Prop
  | blank {text : List Char} (h : IsBlank text) : Silent tokens behind text
  | comment {text : List Char} (h : IsComment text) : Silent tokens behind text
  | semicolon (h : (behind.dropWhile Pattern.isSpace).head? ≠ some '\n') :
      Silent tokens behind [';']
  | collapsed {text : List Char} (h : IsSeparator text)
      (hlast : ∀ last ∈ tokens.getLast?, last.kind = .separator) : Silent tokens behind text

lemma take_span (p : Char → Bool) (cs : List Char) : cs.take (span p cs) = cs.takeWhile p := by
  have h := List.takeWhile_append_dropWhile (p := p) (l := cs)
  calc cs.take (span p cs)
      = (cs.takeWhile p ++ cs.dropWhile p).take (cs.takeWhile p).length := by rw [h]; rfl
    _ = cs.takeWhile p := List.take_left

lemma drop_span (p : Char → Bool) (cs : List Char) : cs.drop (span p cs) = cs.dropWhile p := by
  have h := List.takeWhile_append_dropWhile (p := p) (l := cs)
  calc cs.drop (span p cs)
      = (cs.takeWhile p ++ cs.dropWhile p).drop (cs.takeWhile p).length := by rw [h]; rfl
    _ = cs.dropWhile p := List.drop_left

lemma many_eq_some {p : Char → Bool} (h : Pattern.many p cs = some n) : n = span p cs ∧ 0 < n := by
  unfold Pattern.many at h
  split at h
  · cases h
  · next k hk =>
    cases h
    exact ⟨hk.symm, Nat.succ_pos k⟩

lemma takeWhile_lines (cs : List Char) :
    cs.takeWhile (· == '\n') = List.replicate (span (· == '\n') cs) '\n' := by
  apply List.eq_replicate_of_mem
  intro c hc
  simpa using List.mem_takeWhile_imp hc

lemma lines_of_many (h : Pattern.many (· == '\n') cs = some n) :
    ∃ k, n = k + 1 ∧ cs.take n = List.replicate (k + 1) '\n' := by
  obtain ⟨hn, hpos⟩ := many_eq_some h
  refine ⟨n - 1, by omega, ?_⟩
  rw [hn, take_span, takeWhile_lines]
  congr 1
  omega

lemma commentEnd_spec (h : Pattern.commentEnd cs = some n) :
    ∃ body, cs.take n = body ++ ['*', '/'] ∧ ¬['*', '/'] <:+: body ++ ['*'] := by
  induction cs generalizing n with
  | nil => cases h
  | cons c cs ih =>
    rw [commentEnd_cons] at h
    split at h
    · next hend =>
      obtain ⟨rfl, hslash⟩ := hend
      obtain ⟨ds, rfl⟩ := List.head?_eq_some_iff.mp hslash
      cases h
      refine ⟨[], rfl, ?_⟩
      intro hinfix
      have hlength := hinfix.length_le
      simp at hlength
    · next hopen =>
      obtain ⟨m, hm, rfl⟩ := Option.map_eq_some_iff.mp h
      obtain ⟨body, hbody, hfirst⟩ := ih hm
      refine ⟨c :: body, by rw [List.take_succ_cons, hbody]; rfl, ?_⟩
      intro hinfix
      rcases List.infix_cons_iff.mp hinfix with hstart | hinside
      · -- The mark would stand at the start, where it has been looked for.
        obtain ⟨tail, htail⟩ := hstart
        injection htail with hstar hslash
        have hhead : cs.head? = some '/' := by
          cases body with
          | nil => cases hslash
          | cons d body =>
            injection hslash with hd
            have htake : (cs.take m).head? = some d := by rw [hbody]; rfl
            rw [List.head?_take] at htake
            split at htake
            · cases htake
            · rw [htake, hd]
        exact hopen ⟨hstar.symm, hhead⟩
      · exact hfirst hinside

lemma isComment_of_lineComment (h : Pattern.lineComment cs = some n) : IsComment (cs.take n) := by
  cases cs with
  | nil => cases h
  | cons c cs =>
    rw [lineComment_cons] at h
    split at h
    · next hopen =>
      obtain ⟨rfl, hslash⟩ := hopen
      obtain ⟨ds, rfl⟩ := List.head?_eq_some_iff.mp hslash
      cases h
      rw [List.tail_cons, Nat.add_comm, List.take_succ_cons, List.take_succ_cons, take_span]
      apply IsComment.line
      intro hline
      simpa using List.mem_takeWhile_imp hline
    · cases h

lemma isComment_of_blockComment (h : Pattern.blockComment cs = some n) : IsComment (cs.take n) := by
  cases cs with
  | nil => cases h
  | cons c cs =>
    rw [blockComment_cons] at h
    split at h
    · next hopen =>
      obtain ⟨rfl, hstar⟩ := hopen
      obtain ⟨ds, rfl⟩ := List.head?_eq_some_iff.mp hstar
      rw [List.tail_cons] at h
      obtain ⟨m, hm, rfl⟩ := Option.map_eq_some_iff.mp h
      obtain ⟨body, hbody, hfirst⟩ := commentEnd_spec hm
      rw [List.take_succ_cons, List.take_succ_cons, hbody]
      exact .block hfirst
    · cases h

lemma isSeparator_of_semicolonBreak (h : Pattern.semicolonBreak cs = some n) :
    IsSeparator (cs.take n) := by
  cases cs with
  | nil => cases h
  | cons c cs =>
    rw [semicolonBreak_cons] at h
    split at h
    · next hc =>
      obtain ⟨m, hm, rfl⟩ := Option.map_eq_some_iff.mp h
      obtain ⟨k, -, hlines⟩ := lines_of_many hm
      rw [hc, Nat.add_assoc, Nat.add_comm 1, List.take_succ_cons, List.take_add, hlines, take_span]
      exact .semicolon (fun d hd => List.mem_takeWhile_imp hd) k
    · cases h

/-- A semicolon that ends its line is a separator. -/
lemma first_semicolon (h : Pattern.semicolonBreak (';' :: cs) = some n) :
    Rule.first? (';' :: cs) = some (⟨.semicolonBreak, .separator⟩, n) := by
  have hblank : Pattern.many Pattern.isSpace (';' :: cs) = none := rfl
  simp [Rule.first?, Rule.table, Rule.leading, hblank, lineComment_cons, blockComment_cons, h]

lemma table_skip : ∀ rule ∈ Rule.table, rule.action = .skip →
    rule = ⟨.many Pattern.isSpace, .skip⟩ ∨ rule = ⟨.lineComment, .skip⟩ ∨
      rule = ⟨.blockComment, .skip⟩ ∨ rule = ⟨.one (· == ';'), .skip⟩ := by
  refine table_cases ?_ ?_ ?_ ?_
  · simp [Rule.leading]
  · simp [Rule.keyword]
  · simp [Rule.constants, Rule.constant]
  · simp [Rule.trailing, Rule.punctuation]

lemma table_separator : ∀ rule ∈ Rule.table, rule.action.kind? = some .separator →
    rule = ⟨.semicolonBreak, .separator⟩ ∨ rule = ⟨.many (· == '\n'), .separator⟩ := by
  refine table_cases ?_ ?_ ?_ ?_
  · simp [Rule.leading, Action.kind?]
  · simp [Rule.keyword, Action.kind?]
  · simp [Rule.constants, Rule.constant, Action.kind?]
  · simp [Rule.trailing, Rule.punctuation, Action.kind?]

lemma silent_of_skip {rule : Rule} (h : Rule.first? cs = some (rule, n))
    (haction : rule.action = .skip) (tokens : List Token) :
    Silent tokens (cs.drop n) (cs.take n) := by
  obtain ⟨hrule, hmatch⟩ := match_of_first h
  rcases table_skip rule hrule haction with rfl | rfl | rfl | rfl
  · obtain ⟨rfl, -⟩ := many_eq_some hmatch
    rw [take_span]
    exact .blank fun c hc => List.mem_takeWhile_imp hc
  · exact .comment (isComment_of_lineComment hmatch)
  · exact .comment (isComment_of_blockComment hmatch)
  · cases cs with
    | nil => cases hmatch
    | cons c cs =>
      simp only [Pattern.one, beq_iff_eq] at hmatch
      split at hmatch
      · next hc =>
        subst hc
        cases hmatch
        refine .semicolon fun hline => ?_
        -- The rule of a semicolon that ends its line comes before.
        obtain ⟨ds, hds⟩ := List.head?_eq_some_iff.mp hline
        rw [List.drop_one, List.tail_cons, ← drop_span] at hds
        have hbreak : ∃ m, Pattern.semicolonBreak (';' :: cs) = some m := by
          rw [semicolonBreak_cons, if_pos rfl, hds]
          exact ⟨_, rfl⟩
        obtain ⟨m, hbreak⟩ := hbreak
        rw [first_semicolon hbreak] at h
        simp at h
      · cases hmatch

lemma isSeparator_of_first {rule : Rule} (h : Rule.first? cs = some (rule, n))
    (haction : rule.action = .separator) : IsSeparator (cs.take n) := by
  obtain ⟨hrule, hmatch⟩ := match_of_first h
  rcases table_separator rule hrule (by rw [haction]; rfl) with rfl | rfl
  · exact isSeparator_of_semicolonBreak hmatch
  · obtain ⟨k, -, hlines⟩ := lines_of_many hmatch
    rw [hlines]
    exact .lines k

end Silence

section Cutting

/-- How a piece is cut off the text `rest`. -/
inductive CutOff (rest : List Char) : Piece → Prop
  | found {rule : Rule} {n : Nat} (h : Rule.first? rest = some (rule, n + 1)) :
      CutOff rest ⟨some rule.action, rest.take (n + 1)⟩
  | unexpected {c : Char} {cs : List Char} (hrest : rest = c :: cs)
      (h : ∀ rule n, Rule.first? rest ≠ some (rule, n + 1)) : CutOff rest ⟨none, [c]⟩

lemma cutOff_of_cut {before after : List Piece} (h : Piece.cut cs = before ++ piece :: after) :
    CutOff (piece.text ++ after.flatMap Piece.text) piece := by
  fun_induction Piece.cut cs generalizing before with
  | case1 => simp at h
  | case2 c rest rule n hfirst ih =>
    cases before with
    | nil =>
      injection h with hpiece hafter
      rw [← hafter, ← hpiece, cut_text, List.cons_append, List.take_append_drop]
      exact .found hfirst
    | cons => exact ih (List.cons.inj h).2
  | case3 c rest hnone ih =>
    cases before with
    | nil =>
      injection h with hpiece hafter
      rw [← hafter, ← hpiece, cut_text, List.singleton_append]
      exact .unexpected rfl fun rule n => hnone rule n
    | cons => exact ih (List.cons.inj h).2

lemma text_ne_nil (h : piece ∈ Piece.cut cs) : piece.text ≠ [] := by
  fun_induction Piece.cut cs with
  | case1 => cases h
  | case2 c rest rule n _ ih =>
    rcases List.mem_cons.mp h with rfl | h
    · exact List.cons_ne_nil _ _
    · exact ih h
  | case3 c rest _ ih =>
    rcases List.mem_cons.mp h with rfl | h
    · exact List.cons_ne_nil _ _
    · exact ih h

end Cutting

section Chunks

/-- A part of a source text and what the scan makes of it, if anything. -/
structure Chunk where
  text : List Char
  item : Option (Except ScanError Token)

namespace Chunk

def token? (chunk : Chunk) : Option Token :=
  chunk.item.bind fun item => item.toOption

def error? (chunk : Chunk) : Option ScanError :=
  chunk.item.bind problem

end Chunk

/-- What a chunk gives, if the chunks `before` come before it and `behind` is the text behind it. -/
inductive Explained (before : List Chunk) (behind : List Char) : Chunk → Prop
  | token {text : List Char} {token : Token} (hlexeme : token.lexeme = String.ofList text)
      (hplace : token.position = placeBehind (before.flatMap Chunk.text)) :
      Explained before behind ⟨text, some (.ok token)⟩
  | error {text : List Char} {e : ScanError} (hlexeme : e.cause.lexeme = String.ofList text)
      (hplace : e.position = placeBehind (before.flatMap Chunk.text)) :
      Explained before behind ⟨text, some (.error e)⟩
  | silent {text : List Char} (h : Silent (before.filterMap Chunk.token?) behind text) :
      Explained before behind ⟨text, none⟩

/-- Whether a separator is asked for behind the tokens, if `afterToken` tells it where there are
none. -/
def awaits (afterToken : Bool) (tokens : List Token) : Bool :=
  (tokens.getLast?.map (·.kind != .separator)).getD afterToken

/-- The pieces with what reading them gives. -/
def chunks (afterToken : Bool) (p : Position) : List Piece → List Chunk
  | [] => []
  | piece :: pieces =>
    let chunk : Chunk := ⟨piece.text, piece.read afterToken p⟩
    chunk :: chunks (awaits afterToken chunk.token?.toList) (p.after piece.text) pieces

lemma awaits_append (afterToken : Bool) (t u : List Token) :
    awaits (awaits afterToken t) u = awaits afterToken (t ++ u) := by
  unfold awaits
  rw [List.getLast?_append]
  cases u.getLast? <;> rfl

lemma chunks_text (afterToken : Bool) (p : Position) (pieces : List Piece) :
    (chunks afterToken p pieces).flatMap Chunk.text = pieces.flatMap Piece.text := by
  induction pieces generalizing afterToken p with
  | nil => rfl
  | cons piece pieces ih => rw [chunks, List.flatMap_cons, List.flatMap_cons, ih]

lemma readAll_eq_chunks (afterToken : Bool) (p : Position) (pieces : List Piece) :
    Piece.readAll afterToken p pieces = (chunks afterToken p pieces).filterMap Chunk.item := by
  induction pieces generalizing afterToken p with
  | nil => rfl
  | cons piece pieces ih =>
    rw [Piece.readAll, chunks]
    rcases hread : piece.read afterToken p with _ | _ | token
    · exact ih _ _
    · exact congrArg _ (ih _ _)
    · exact congrArg _ (ih _ _)

/-- A chunk is read where the chunks before it end, with the tokens of these chunks before it. -/
lemma chunks_split {pieces : List Piece} {before after : List Chunk} {chunk : Chunk}
    (h : chunks afterToken p pieces = before ++ chunk :: after) :
    ∃ earlier piece later, pieces = earlier ++ piece :: later ∧
      after.flatMap Chunk.text = later.flatMap Piece.text ∧
      chunk = ⟨piece.text, piece.read (awaits afterToken (before.filterMap Chunk.token?))
        (p.after (before.flatMap Chunk.text))⟩ := by
  induction before generalizing afterToken p pieces with
  | nil =>
    cases pieces with
    | nil => cases h
    | cons piece pieces =>
      injection h with hchunk hafter
      exact ⟨[], piece, pieces, rfl, by rw [← hafter, chunks_text], hchunk.symm⟩
  | cons first before ih =>
    cases pieces with
    | nil => cases h
    | cons piece pieces =>
      injection h with hfirst hrest
      obtain ⟨earlier, piece', later, hpieces, hafter, hchunk⟩ := ih hrest
      refine ⟨piece :: earlier, piece', later, by rw [hpieces]; rfl, hafter, ?_⟩
      have htokens : (first :: before).filterMap Chunk.token? =
          first.token?.toList ++ before.filterMap Chunk.token? := by
        cases hfirst : first.token? with
        | none => exact List.filterMap_cons_none hfirst
        | some token => exact List.filterMap_cons_some hfirst
      rw [hchunk, htokens, ← awaits_append, ← hfirst, List.flatMap_cons, after_append]

lemma token_position (h : piece.read afterToken p = some (.ok token)) : token.position = p := by
  unfold Piece.read at h
  grind

lemma read_error {rest : List Char} (hcut : CutOff rest piece) {e : ScanError}
    (h : piece.read afterToken p = some (.error e)) :
    e.cause.lexeme = String.ofList piece.text ∧ e.position = p := by
  cases hcut with
  | unexpected =>
    cases h
    exact ⟨rfl, rfl⟩
  | @found rule =>
    unfold Piece.read at h
    cases haction : rule.action with
    | number =>
      simp only [haction] at h
      split at h
      · cases h
      · cases h
        exact ⟨rfl, rfl⟩
    | separator => cases afterToken <;> simp [haction] at h
    | skip | quoted | raw | operator | token => simp [haction] at h

lemma read_none (h : piece.read afterToken p = none) :
    piece.action = some .skip ∨ piece.action = some .separator ∧ afterToken = false := by
  unfold Piece.read at h
  grind

lemma separator_of_not_awaits (h : awaits false tokens = false) :
    ∀ last ∈ tokens.getLast?, last.kind = .separator := by
  intro last hlast
  simpa [awaits, Option.mem_def.mp hlast] using h

lemma explained_of_cutOff {before : List Chunk} {behind : List Char}
    (h : CutOff (piece.text ++ behind) piece) :
    Explained before behind ⟨piece.text, piece.read (awaits false (before.filterMap Chunk.token?))
      (placeBehind (before.flatMap Chunk.text))⟩ := by
  rcases hread : piece.read (awaits false (before.filterMap Chunk.token?))
    (placeBehind (before.flatMap Chunk.text)) with _ | e | token
  · apply Explained.silent
    generalize hrest : piece.text ++ behind = rest at h
    rcases read_none hread with haction | ⟨haction, hawaits⟩
    · cases h with
      | unexpected => cases haction
      | @found rule n hfirst =>
        have hbehind : behind = rest.drop (n + 1) :=
          List.append_cancel_left (hrest.trans (List.take_append_drop (n + 1) rest).symm)
        rw [hbehind]
        exact silent_of_skip hfirst (Option.some.inj haction) _
    · cases h with
      | unexpected => cases haction
      | found hfirst =>
        exact .collapsed (isSeparator_of_first hfirst (Option.some.inj haction))
          (separator_of_not_awaits hawaits)
  · obtain ⟨hlexeme, hplace⟩ := read_error h hread
    exact .error hlexeme hplace
  · exact .token (read_token hread).2 (token_position hread)

lemma endLine_cases (cs : List Char) : endLine cs = cs ∨ endLine cs = cs ++ ['\n'] := by
  unfold endLine
  split
  · exact .inl rfl
  · exact .inr rfl

lemma tokens_eq_chunks (source : String) : (scan source).tokens =
    (chunks false .start (Piece.cut (endLine source.toList))).filterMap Chunk.token? := by
  rw [scan_tokens, readAll_eq_chunks, List.filterMap_filterMap]
  rfl

lemma errors_eq_chunks (source : String) : (scan source).errors =
    (chunks false .start (Piece.cut (endLine source.toList))).filterMap Chunk.error? := by
  rw [scan_errors, readAll_eq_chunks, List.filterMap_filterMap]
  rfl

/-- A source text, with its last line ended, is the chunks of its scan on end. The tokens and the
errors are what the chunks give, in order, each with the text of its chunk and at the place where
the chunk starts, and the scan finishes at the place behind the last chunk. -/
theorem scan_partitions_source (source : String) :
    (endLine source.toList = source.toList ∨ endLine source.toList = source.toList ++ ['\n']) ∧
    ∃ chunks : List Chunk,
      (∀ chunk ∈ chunks, chunk.text ≠ []) ∧
      chunks.flatMap Chunk.text = endLine source.toList ∧
      (scan source).tokens = chunks.filterMap Chunk.token? ∧
      (scan source).errors = chunks.filterMap Chunk.error? ∧
      (∀ before chunk after, chunks = before ++ chunk :: after →
        Explained before (after.flatMap Chunk.text) chunk) ∧
      (scan source).finish = placeBehind (endLine source.toList) := by
  refine ⟨endLine_cases _, chunks false .start (Piece.cut (endLine source.toList)), ?_, ?_,
    tokens_eq_chunks source, errors_eq_chunks source, ?_, start_after _⟩
  · intro chunk hchunk
    obtain ⟨before, after, hsplit⟩ := List.append_of_mem hchunk
    obtain ⟨earlier, piece, later, hpieces, -, rfl⟩ := chunks_split hsplit
    exact text_ne_nil (hpieces ▸ List.mem_append_right earlier List.mem_cons_self)
  · rw [chunks_text, cut_text]
  · intro before chunk after hsplit
    obtain ⟨earlier, piece, later, hpieces, hafter, rfl⟩ := chunks_split hsplit
    rw [hafter, start_after]
    exact explained_of_cutOff (cutOff_of_cut hpieces)

end Chunks

section Statements

lemma awaited_of_separator {rest : List Char} (hcut : CutOff rest piece)
    (hread : piece.read afterToken p = some (.ok token)) (hkind : token.kind = .separator) :
    afterToken = true := by
  have hmakes := (read_token hread).1
  cases hcut with
  | unexpected => cases hmakes
  | found hfirst =>
    have hmakes := hmakes.trans (congrArg some hkind)
    cases afterToken with
    | true => rfl
    | false =>
      rcases table_separator _ (match_of_first hfirst).1 hmakes with rfl | rfl
      · cases hread
      · cases hread

lemma item_of_token {chunk : Chunk} (h : chunk.token? = some token) :
    chunk.item = some (.ok token) := by
  obtain ⟨item, hitem, hok⟩ := Option.bind_eq_some_iff.mp h
  cases item with
  | error => cases hok
  | ok => rw [hitem, Option.some.inj hok]

lemma token_of_awaits (h : awaits false tokens = true) :
    ∃ last ∈ tokens.getLast?, last.kind ≠ .separator := by
  unfold awaits at h
  cases hlast : tokens.getLast? with
  | none => simp [hlast] at h
  | some last => exact ⟨last, rfl, by simpa [hlast] using h⟩

/-- Another token stands before every separator. -/
lemma token_before_separator {source : String} {t u : List Token} {sep : Token}
    (h : (scan source).tokens = t ++ sep :: u) (hsep : sep.kind = .separator) :
    ∃ last ∈ t.getLast?, last.kind ≠ .separator := by
  rw [tokens_eq_chunks] at h
  obtain ⟨before, behind, hbefore, rfl, hbehind⟩ := List.filterMap_eq_append_iff.mp h
  obtain ⟨silent, chunk, after, rfl, hsilent, hchunk, -⟩ := List.filterMap_eq_cons_iff.mp hbehind
  rw [← List.append_assoc] at hbefore
  obtain ⟨earlier, piece, later, hpieces, -, rfl⟩ := chunks_split hbefore
  have hsilent : silent.filterMap Chunk.token? = [] := List.filterMap_eq_nil_iff.mpr hsilent
  rw [List.filterMap_append, hsilent, List.append_nil] at hchunk
  have hawaits := awaited_of_separator (cutOff_of_cut hpieces) (item_of_token hchunk) hsep
  exact token_of_awaits hawaits

/-- No separator stands before or behind a separator. -/
def Alternates (a b : Option Kind) : Prop :=
  a = some .separator → b ≠ some .separator

lemma tokens_alternate (source : String) :
    (scan source).tokens.IsChain fun a b => Alternates (some a.kind) (some b.kind) := by
  rw [List.isChain_iff_forall_rel_of_append_cons_cons]
  intro a b t u h ha hb
  have hsplit : (scan source).tokens = (t ++ [a]) ++ b :: u := by rw [h, List.append_cons]
  obtain ⟨last, hlast, hkind⟩ := token_before_separator hsplit (Option.some.inj hb)
  rw [List.getLast?_concat] at hlast
  cases hlast
  exact hkind (Option.some.inj ha)

/-- Statements, each with its separator behind it. -/
inductive Separated : List Token → Prop
  | nil : Separated []
  | statement {t u : List Token} {sep : Token} (hne : t ≠ [])
      (ht : ∀ token ∈ t, token.kind ≠ .separator) (hsep : sep.kind = .separator)
      (hu : Separated u) : Separated (t ++ sep :: u)

/-- Tokens that end with a separator are the rest of a statement and then statements. -/
lemma statement_of_open (h : Open tokens)
    (hchain : tokens.IsChain fun a b => Alternates (some a.kind) (some b.kind)) :
    ∃ t sep u, tokens = t ++ sep :: u ∧ (∀ token ∈ t, token.kind ≠ .separator) ∧
      sep.kind = .separator ∧ Separated u := by
  induction tokens with
  | nil =>
    obtain ⟨last, hlast, -⟩ := h
    cases hlast
  | cons token tokens ih =>
    obtain ⟨hnext, hchain⟩ := List.isChain_cons.mp hchain
    by_cases hkind : token.kind = .separator
    · refine ⟨[], token, tokens, rfl, by simp, hkind, ?_⟩
      by_cases hnil : tokens = []
      · exact hnil ▸ .nil
      · have hopen : Open tokens := by
          obtain ⟨last, hlast, hlastKind⟩ := h
          exact ⟨last, by rwa [List.getLast?_cons_of_ne_nil hnil] at hlast, hlastKind⟩
        obtain ⟨t, sep, u, rfl, ht, hsep, hu⟩ := ih hopen hchain
        refine .statement ?_ ht hsep hu
        rintro rfl
        exact hnext sep rfl (congrArg some hkind) (congrArg some hsep)
    · obtain ⟨t, sep, u, rfl, ht, hsep, hu⟩ := ih (h.of_cons hkind) hchain
      exact ⟨token :: t, sep, u, rfl, List.forall_mem_cons.mpr ⟨hkind, ht⟩, hsep, hu⟩

lemma scan_separated (source : String) : Separated (scan source).tokens := by
  rcases closed_scan source with hnil | hopen
  · exact hnil ▸ .nil
  · obtain ⟨t, sep, u, htokens, ht, hsep, hu⟩ :=
      statement_of_open hopen (tokens_alternate source)
    obtain ⟨last, hlast, -⟩ := token_before_separator htokens hsep
    rw [htokens]
    refine .statement ?_ ht hsep hu
    rintro rfl
    cases hlast

/-- What the grammar reads: a token, or the end of the text. -/
inductive StreamItem where
  | token (token : Token)
  | finish (place : Position)

def StreamItem.kind? : StreamItem → Option Kind
  | .token t => some t.kind
  | .finish _ => none

def stream (scanned : Scan) : List StreamItem :=
  scanned.tokens.map .token ++ [.finish scanned.finish]

lemma Separated.head (h : Separated tokens) {first : Token} (hfirst : first ∈ tokens.head?) :
    first.kind ≠ .separator := by
  cases h with
  | nil => cases hfirst
  | statement hne ht =>
    apply ht first
    rw [List.head?_append_of_ne_nil _ hne] at hfirst
    exact List.mem_of_mem_head? hfirst

lemma stream_of_tokens {t u : List Token} (h : scanned.tokens = t ++ u) :
    stream scanned = t.map .token ++ (u.map .token ++ [.finish scanned.finish]) := by
  rw [stream, h, List.map_append, List.append_assoc]

lemma stream_alternates
    (h : scanned.tokens.IsChain fun a b => Alternates (some a.kind) (some b.kind)) :
    (stream scanned).IsChain fun a b => Alternates a.kind? b.kind? := by
  refine List.isChain_append.mpr ⟨(List.isChain_map _).mpr h, .singleton _, ?_⟩
  rintro a - b hb - hkind
  cases hb
  cases hkind

lemma finish_last {before after : List StreamItem} {place : Position}
    (h : stream scanned = before ++ .finish place :: after) : after = [] := by
  obtain ⟨tokens, errors, finish⟩ := scanned
  unfold stream at h
  induction tokens generalizing before with
  | nil =>
    cases before with
    | nil => exact (List.cons.inj h).2.symm
    | cons _ before => cases before <;> cases (List.cons.inj h).2
  | cons token tokens ih =>
    cases before with
    | nil => cases (List.cons.inj h).1
    | cons _ before => exact ih (List.cons.inj h).2

/-- The stream of a text is its end alone, or it starts with a token that is no separator and has
a separator right before its end. No two separators stand side by side, the end comes last, and
every statement has its separator behind it. -/
theorem scan_separates_statements (source : String) :
    (stream (scan source) = [.finish (scan source).finish] ∨
      (∃ first rest, stream (scan source) = .token first :: rest ∧ first.kind ≠ .separator) ∧
      ∃ before last, stream (scan source) =
          before ++ [.token last, .finish (scan source).finish] ∧ last.kind = .separator) ∧
    ((stream (scan source)).IsChain fun a b => Alternates a.kind? b.kind?) ∧
    (∀ before place after, stream (scan source) = before ++ .finish place :: after → after = []) ∧
    Separated (scan source).tokens := by
  have hseparated := scan_separated source
  refine ⟨?_, stream_alternates (tokens_alternate source), fun _ _ _ h => finish_last h,
    hseparated⟩
  rcases closed_scan source with hnil | ⟨last, hlast, hkind⟩
  · left
    rw [stream, hnil]
    rfl
  · right
    obtain ⟨before, hbefore⟩ := List.getLast?_eq_some_iff.mp hlast
    refine ⟨?_, before.map .token, last, stream_of_tokens hbefore, hkind⟩
    cases htokens : (scan source).tokens with
    | nil => simp [htokens] at hlast
    | cons first rest =>
      exact ⟨first, _, stream_of_tokens (t := [first]) htokens,
        hseparated.head (by rw [htokens]; rfl)⟩

end Statements

end XBase.Proofs
