import XBase.Token.Basic
import XBase.Token.Pattern

/-!
# The table of scanning rules

At every place of a source text the first rule of the table that matches decides. The order makes
`and` an operator and `endif` a keyword, and not names.
-/

namespace XBase

/-- What is made of the text that a rule matched. -/
inductive Action where
  | skip
  | separator
  /-- A number, unless the text spells none. -/
  | number
  /-- A text whose escapes are decoded. -/
  | quoted
  | raw
  /-- An operator, its category found from its spelling. -/
  | operator (kind : Kind)
  /-- A token that is fixed but for its spelling. -/
  | token (kind : Kind) (category : Category) (literal : Option Literal)

structure Rule where
  pattern : Pattern
  action : Action

namespace Rule

def keyword (spelling : String) (word : Keyword) : Rule :=
  ⟨.word spelling, .token (.keyword word) .keyword none⟩

def constant (pattern : Pattern) (kind : Kind) (value : Literal) : Rule :=
  ⟨pattern, .token kind .literal (some value)⟩

def punctuation (c : Char) (kind : Kind) : Rule :=
  ⟨.one (· == c), .token kind .generic none⟩

/-- Blanks, comments, separators, numbers, texts and the operators that come before the words. -/
def leading : List Rule :=
  [⟨.many Pattern.isSpace, .skip⟩,
   ⟨.lineComment, .skip⟩,
   ⟨.blockComment, .skip⟩,
   ⟨.semicolonBreak, .separator⟩,
   ⟨.one (· == ';'), .skip⟩,
   ⟨.many (· == '\n'), .separator⟩,
   ⟨.number, .number⟩,
   ⟨.quoted '"', .quoted⟩,
   ⟨.quoted Pattern.apostrophe, .quoted⟩,
   ⟨.raw, .raw⟩,
   ⟨.comparison, .operator .relational⟩,
   ⟨.withEquals (fun c => c == '=' || c == '!'), .operator .equality⟩,
   ⟨.either (.spelling ".and.") (.word "and"), .token .and .and none⟩,
   ⟨.either (.spelling ".or.") (.word "or"), .token .or .or none⟩,
   ⟨.one (· == '!'), .operator .not⟩]

/-- The words of declarations and branches. -/
def firstWords : List Rule :=
  [keyword "as" .asWord, keyword "local" .localWord, keyword "public" .publicWord,
   keyword "const" .constWord, keyword "if" .ifWord, keyword "then" .thenWord,
   keyword "else" .elseWord, keyword "endif" .endIf]

/-- The words that stand for a value. -/
def constants : List Rule :=
  [constant (.either (.spelling ".t.") (.either (.spelling ".true.") (.word "true")))
    .trueWord (.boolean true),
   constant (.either (.spelling ".f.") (.either (.spelling ".false.") (.word "false")))
    .falseWord (.boolean false),
   constant (.either (.spelling ".null.") (.word "null")) .nullWord .null]

/-- The other reserved words. -/
def laterWords : List Rule :=
  [keyword "return" .returnWord, keyword "while" .whileWord, keyword "endwhile" .endWhile,
   keyword "enddo" .endDo, keyword "repeat" .repeatWord, keyword "print" .printWord,
   keyword "until" .untilWord, keyword "class" .classWord, keyword "endclass" .endClass,
   keyword "this" .thisWord, keyword "createobject" .createObject, keyword "for" .forWord,
   keyword "to" .toWord, keyword "step" .stepWord, keyword "endfor" .endFor,
   keyword "dodefault" .doDefault, keyword "function" .functionWord,
   keyword "lparameters" .parametersWord, keyword "endfunc" .endFunc, keyword "do" .doWord,
   keyword "case" .caseWord, keyword "otherwise" .otherwiseWord, keyword "endcase" .endCase,
   keyword "exit" .exitWord, keyword "loop" .loopWord, keyword "private" .privateWord,
   keyword "import" .importWord, keyword "module" .moduleWord, keyword "endmodule" .endModule,
   keyword "release" .releaseWord, keyword "defer" .deferWord, keyword "enddefer" .endDefer]

/-- The other operators, names and punctuation. -/
def trailing : List Rule :=
  [⟨.one (· == '='), .operator .assign⟩,
   ⟨.withEquals (fun c => c == '+' || c == '-' || c == '*' || c == '/'),
    .operator .compoundAssign⟩,
   ⟨.one (fun c => c == '+' || c == '-'), .operator .term⟩,
   ⟨.one (fun c => c == '*' || c == '/'), .operator .factor⟩,
   ⟨.many Text.isWord, .token .name .name none⟩,
   punctuation '(' .leftParen, punctuation ')' .rightParen,
   punctuation '[' .leftBracket, punctuation ']' .rightBracket,
   punctuation ',' .comma, punctuation '.' .dot, punctuation ':' .colon,
   punctuation '?' .question, punctuation '&' .ampersand]

def table : List Rule :=
  leading ++ firstWords ++ constants ++ laterWords ++ trailing

/-- The first rule that matches at the start of a text, with the length of its match. -/
def first? (cs : List Char) : Option (Rule × Nat) :=
  table.findSome? fun rule => (rule.pattern cs).map fun n => (rule, n)

end Rule

end XBase
