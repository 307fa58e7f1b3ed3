import DisposalAudit.Yaml.Span

/-!
# Tokens of a document

A document is read line by line. Outside flow collections the indentation
of a line decides where its first token belongs, so every token carries the
indentation that counts for it: the column of the first content of its
line, or its own column while nothing but indicators stands in front.

## Main definitions

* `Yaml.Lexeme`, `Yaml.Token` — what the parts of a document are, and where
  they stand.
* `Yaml.Cursor` — a place in a document, with what the text before it
  settles about the text behind.
* `Yaml.Cursor.step?` — reads what stands at a place.
* `Yaml.tokens?` — the tokens of a document.
-/

namespace DisposalAudit.Yaml

/-- What a token is. -/
inductive Lexeme where
  /-- The sign of a list item. -/
  | dash
  /-- The sign of a key. -/
  | question
  /-- The sign between a key and its value. -/
  | colon
  | comma
  | openList
  | closeList
  | openRecord
  | closeRecord
  | anchor (name : String)
  | tag (source : List Char)
  | reference (name : String)
  | plain (text : List Char)
  /-- A quoted or block text, which a tag alone can make anything else. -/
  | text (value : String)

/-- A token with its place. -/
structure Token where
  lexeme : Lexeme
  line : Nat
  column : Nat
  /-- The line on which the token ends. -/
  lastLine : Nat
  /-- The indentation that counts for the token. -/
  indent : Nat
  /-- Whether nothing but indicators stands in front of it on its line. -/
  first : Bool
  /-- The indentation at which a tab stands in front of a first token. -/
  tab : Option Nat

/-- A place in a document. -/
structure Cursor extends Remaining where
  /-- Number of the current line. -/
  row : Nat
  column : Nat
  /-- Indentation that counts for the next token. -/
  indent : Nat
  /-- The least indentation of lines that go on with a scalar. -/
  least : Nat
  /-- The number of open flow collections. -/
  flow : Nat
  /-- Whether the last token may be a key whose colon need not stand
  alone. -/
  adjacent : Bool
  /-- Whether nothing but indicators has been read on the line. -/
  first : Bool
  /-- Whether a comment may start here. -/
  spaced : Bool
  tab : Option Nat

namespace Cursor

/-- Whether the place is inside a flow collection. -/
def inFlow (c : Cursor) : Bool := 0 < c.flow

/-- The token that ends on the current line before `rest`, and the place
behind it. -/
def take (c : Cursor) (lexeme : Lexeme) (rest : List Char) : Token × Cursor :=
  (⟨lexeme, c.row, c.column, c.row, c.indent, c.first, c.tab⟩,
    { c with
      line := rest
      column := c.column + (c.line.length - rest.length)
      adjacent := false
      first := false
      spaced := false
      tab := none })

/-- The token of a span, and the place behind it. -/
def takeSpan (c : Cursor) (lexeme : Lexeme) (span : Span) : Token × Cursor :=
  let (token, next) := c.take lexeme span.rest.line
  ({ token with lastLine := c.row + span.descent },
    { next with below := span.rest.below, row := c.row + span.descent })

/-! ## Lines and blanks -/

/-- Goes down to the next line. In a flow collection the line has to stand
behind the parent's indentation, unless it closes the outermost one. -/
def descend? (c : Cursor) (line : List Char) (below : List (List Char)) : Option Cursor :=
  let indent := lead line
  let body := line.drop indent
  let hasContent : Bool := match trimStart body with
    | [] => false
    | next :: _ => next != '#'
  let closes := c.flow = 1 ∧ c.least = indent + 1 ∧
    (body.head? = some ']' ∨ body.head? = some '\x7d')
  if hasContent ∧ c.inFlow ∧ indent < c.least ∧ ¬closes then none
  else
    some { c with
      line := body
      below := below
      row := c.row + 1
      column := indent
      indent := indent
      least := if hasContent ∧ !c.inFlow then min c.least indent else c.least
      first := true
      spaced := true
      tab := none }

/-- Skips the blanks at a place. -/
def skipBlanks (c : Cursor) : Cursor :=
  let blanks := c.line.takeWhile isBlank
  if blanks.isEmpty then c
  else
    { c with
      line := c.line.drop blanks.length
      column := c.column + blanks.length
      spaced := true
      tab := if c.first ∧ '\t' ∈ blanks then some c.indent else c.tab }

/-! ## Tokens -/

/-- An indicator. In a block what follows it on the line stands deeper. -/
def indicator (c : Cursor) (lexeme : Lexeme) (rest : List Char) : Token × Cursor :=
  let (token, next) := c.take lexeme rest
  if c.inFlow then (token, next)
  else if c.first then
    let blanks := rest.takeWhile isBlank
    let spaces := if blanks.head? = some ' ' then blanks.length else 0
    let behind := { next with first := true, indent := c.indent + 1, least := c.indent + 1 }
    (token, { behind.skipBlanks with indent := c.indent + 1 + spaces })
  else (token, { next with least := c.indent + 1 })

/-- A bracket of a flow collection. -/
def bracket (c : Cursor) (lexeme : Lexeme) (flow : Nat) (rest : List Char) : Token × Cursor :=
  let (token, next) := c.take lexeme rest
  (token, { next with flow := flow, adjacent := flow < c.flow })

/-- Whether an anchor or a tag may end before a text. -/
def endsProperty (c : Cursor) : List Char → Bool
  | [] => true
  | next :: _ => isBlank next || (c.inFlow && [',', ']', '\x7d'].contains next)

/-- A character of the name of an anchor. -/
def isNameChar (c : Char) : Bool := !isBlank c && !isFlowMark c

/-- A character of a tag that is written out. -/
def isTagChar (c : Char) : Bool := c.isAlphanum || "-#;/?:@&=+$_.!~*'()%".toList.contains c

/-- The characters of a tag, and the rest. -/
def splitTag (source : List Char) : List Char × List Char :=
  match source with
  | '!' :: '<' :: rest =>
    let inside := rest.takeWhile fun c => !isBlank c && c != '>'
    let rest := rest.drop inside.length
    if rest.head? = some '>' then ('!' :: '<' :: inside ++ ['>'], rest.drop 1)
    else ('!' :: '<' :: inside, rest)
  | _ => source.span isTagChar

/-- A quoted text, from behind its opening quote. Its colon may follow
without a blank in a flow collection. -/
def quoted? (c : Cursor) (close? : List Char → Option (List Char × List Char))
    (value? : List (List Char) → Option String) (rest : List Char) : Option (Token × Cursor) := do
  let span ← quotedSpan? close? c.least ⟨rest, c.below⟩
  let value ← value? span.lines
  let (token, next) := c.takeSpan (.text value) span
  pure (token, { next with adjacent := true })

/-- A block text, from behind its indicator. -/
def block? (c : Cursor) (folded : Bool) (rest : List Char) : Option (Token × Cursor) := do
  let (text, span) ← blockSpan? folded c.least ⟨rest, c.below⟩
  pure (c.takeSpan (.text (String.ofList text)) span)

/-- A plain text, which some characters may not begin. -/
def plain? (c : Cursor) (start : Char) : Option (Token × Cursor) :=
  if ['@', '\x60', '%', '|', '>', ',', ']', '\x7d'].contains start then none
  else
    let span := plainSpan c.inFlow c.least c.toRemaining
    some (c.takeSpan (.plain (fold span.lines)) span)

/-- The token that starts with a character. -/
def token? (c : Cursor) (start : Char) (rest : List Char) : Option (Token × Cursor) :=
  if start = ':' ∧ (standsAlone c.inFlow rest ∨ (c.inFlow ∧ c.adjacent)) then
    some (c.indicator .colon rest)
  else if start = '-' ∧ standsAlone c.inFlow rest then some (c.indicator .dash rest)
  else if start = '?' ∧ standsAlone c.inFlow rest then some (c.indicator .question rest)
  else
    match start with
    | '!' =>
      let (source, behind) := splitTag c.line
      if c.endsProperty behind then some (c.take (.tag source) behind) else none
    | '&' =>
      let (name, behind) := rest.span isNameChar
      if name ≠ [] ∧ c.endsProperty behind then
        some (c.take (.anchor (String.ofList name)) behind)
      else none
    | '*' =>
      let (name, behind) := rest.span isNameChar
      if name = [] then none else some (c.take (.reference (String.ofList name)) behind)
    | '"' => c.quoted? doubleQuote? (fun lines => unescape? (['\n'].intercalate lines)) rest
    | '\'' =>
      c.quoted? singleQuote? (fun lines => some (String.ofList (unquote (fold lines)))) rest
    | '[' => some (c.bracket .openList (c.flow + 1) rest)
    | '\x7b' => some (c.bracket .openRecord (c.flow + 1) rest)
    | _ =>
      if c.inFlow then
        match start with
        | ',' => some (c.take .comma rest)
        | ']' => some (c.bracket .closeList (c.flow - 1) rest)
        | '\x7d' => some (c.bracket .closeRecord (c.flow - 1) rest)
        | _ => c.plain? start
      else
        match start with
        | '|' => c.block? false rest
        | '>' => c.block? true rest
        | _ => c.plain? start

/-- Reads what stands at a place: the end of a line, blanks, a comment or a
token. -/
def step? (c : Cursor) : Option (Option Token × Cursor) :=
  match c.line with
  | [] =>
    match c.below with
    | [] => none
    | line :: below => (c.descend? line below).map fun next => (none, next)
  | start :: rest =>
    if isBlank start then some (none, c.skipBlanks)
    else if start = '#' then if c.spaced then some (none, { c with line := [] }) else none
    else (c.token? start rest).map fun (token, next) => (some token, next)

/-- Whether nothing is left behind a place. -/
def atEnd (c : Cursor) : Bool := c.line.isEmpty && c.below.isEmpty

/-- An upper bound of the number of steps from a place: every step takes a
character or a line. -/
def size (c : Cursor) : Nat :=
  c.below.foldl (fun size line => size + line.length + 1) c.line.length

/-- The tokens from a place on, newest first, before those read already. -/
def run? : Nat → List Token → Cursor → Option (List Token)
  | 0, read, c => if c.atEnd then some read else none
  | steps + 1, read, c =>
    if c.atEnd then some read
    else
      match c.step? with
      | none => none
      | some (none, next) => run? steps read next
      | some (some token, next) => run? steps (token :: read) next

/-- The place at the start of a document. Behind a marker no first token of
a line stands. -/
def start (marked : Bool) (source : Remaining) : Cursor where
  toRemaining := source
  row := 0
  column := if marked then 3 else 0
  indent := 0
  least := 0
  flow := 0
  adjacent := false
  first := false
  spaced := true
  tab := none

end Cursor

/-- The tokens of a document, if every part of it has a form. -/
def tokens? (marked : Bool) (source : Remaining) : Option (List Token) :=
  let start := Cursor.start marked source
  (Cursor.run? (start.size + 1) [] start).map List.reverse

end DisposalAudit.Yaml
