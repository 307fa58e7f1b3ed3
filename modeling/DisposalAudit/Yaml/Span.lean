import DisposalAudit.Yaml.Folding

/-!
# How far a scalar reaches

A scalar starts on the current line and may go on below. A line below
belongs to it if it stands deep enough, or if nothing but spaces is on it.

## Main definitions

* `Yaml.Remaining` — the text that is still to be read.
* `Yaml.Span` — the lines of a scalar, and what remains behind it.
* `Yaml.plainSpan`, `Yaml.quotedSpan?`, `Yaml.blockSpan?` — the spans of the
  three kinds of scalars.
-/

namespace DisposalAudit.Yaml

/-- Text to be read: the rest of the current line, and the lines below. -/
structure Remaining where
  line : List Char
  below : List (List Char)

/-- A piece of text that may run over several lines. -/
structure Span where
  lines : List (List Char)
  rest : Remaining

/-- The number of lines that a span goes down. -/
def Span.descent (span : Span) : Nat := span.lines.length - 1

/-- The number of spaces in front of a line. -/
def lead (line : List Char) : Nat := (line.takeWhile (· == ' ')).length

/-- Whether a scalar goes on with a line, if its lines have to stand behind
at least `least` spaces. -/
def continues (least : Nat) (line : List Char) : Bool :=
  line.all (· == ' ') || least ≤ lead line

/-- The marks of flow collections. -/
def isFlowMark (c : Char) : Bool := [',', '[', ']', '\x7b', '\x7d'].contains c

/-- Whether an indicator before this text stands alone: a blank or the end
of the line comes next, or a mark of the flow collection around it. -/
def standsAlone (flow : Bool) : List Char → Bool
  | [] => true
  | c :: _ => isBlank c || (flow && isFlowMark c)

/-! ## Plain texts -/

/-- The part of a line that belongs to a plain text, without blanks behind,
and the rest. It ends before a colon that stands alone, before a comment,
and inside a flow collection before its marks. -/
def plainPart (flow : Bool) : List Char → List Char × List Char
  | [] => ([], [])
  | c :: rest =>
    if (c == ':' && standsAlone flow rest) || (flow && isFlowMark c) ||
        (isBlank c && rest.head? == some '#') then
      ([], c :: rest)
    else
      let (taken, left) := plainPart flow rest
      if taken.isEmpty && isBlank c then ([], c :: rest) else (c :: taken, left)

/-- Lines below that a plain text goes on with, after some empty ones. -/
def plainBelow? (flow : Bool) (least : Nat) (empty : List (List Char)) :
    List (List Char) → Option Span
  | [] => none
  | line :: below =>
    if !continues least line then none
    else
      match trimStart line with
      | [] => plainBelow? flow least ([] :: empty) below
      | '#' :: _ => none
      | body =>
        match plainPart flow body with
        | ([], _) => none
        | (taken, left) =>
          let more := if left.all isBlank then plainBelow? flow least [] below else none
          match more with
          | some span => some { span with lines := empty ++ taken :: span.lines }
          | none => some ⟨empty ++ [taken], ⟨left, below⟩⟩

/-- A plain text. -/
def plainSpan (flow : Bool) (least : Nat) (source : Remaining) : Span :=
  let (taken, left) := plainPart flow source.line
  let more := if left.all isBlank then plainBelow? flow least [] source.below else none
  match more with
  | some span => { span with lines := taken :: span.lines }
  | none => ⟨[taken], ⟨left, source.below⟩⟩

/-! ## Quoted texts -/

/-- The part of a line before a single quote that is not written twice, and
the rest behind it. -/
def singleQuote? : List Char → Option (List Char × List Char)
  | [] => none
  | '\'' :: '\'' :: rest => (singleQuote? rest).map fun (a, b) => ('\'' :: '\'' :: a, b)
  | '\'' :: rest => some ([], rest)
  | c :: rest => (singleQuote? rest).map fun (a, b) => (c :: a, b)

/-- The part of a line before a double quote that is not escaped, and the
rest behind it. -/
def doubleQuote? : List Char → Option (List Char × List Char)
  | [] => none
  | '"' :: rest => some ([], rest)
  | '\\' :: c :: rest => (doubleQuote? rest).map fun (a, b) => ('\\' :: c :: a, b)
  | c :: rest => (doubleQuote? rest).map fun (a, b) => (c :: a, b)

/-- Lines below up to the closing quote. -/
def quotedBelow? (close? : List Char → Option (List Char × List Char)) (least : Nat) :
    List (List Char) → Option Span
  | [] => none
  | line :: below =>
    if !continues least line then none
    else
      match close? line with
      | some (inside, rest) => some ⟨[inside], ⟨rest, below⟩⟩
      | none =>
        (quotedBelow? close? least below).map fun span =>
          { span with lines := line :: span.lines }

/-- A quoted text, from behind its opening quote. -/
def quotedSpan? (close? : List Char → Option (List Char × List Char)) (least : Nat)
    (source : Remaining) : Option Span :=
  match close? source.line with
  | some (inside, rest) => some ⟨[inside], ⟨rest, source.below⟩⟩
  | none =>
    (quotedBelow? close? least source.below).map fun span =>
      { span with lines := source.line :: span.lines }

/-! ## Block texts -/

/-- Whether nothing but a comment follows on a line. -/
def nothingFollows (line : List Char) : Bool :=
  match line with
  | [] => true
  | c :: _ =>
    isBlank c &&
      match trimStart line with
      | [] => true
      | next :: _ => next == '#'

/-- The indentation of a block text: said by its header, counted from the
parent, or else that of its first line, behind no deeper empty one. -/
def blockIndent? (header : BlockHeader) (least : Nat) (below : List (List Char)) : Option Nat :=
  let empty := below.takeWhile fun line => line.all (· == ' ')
  match (below.drop empty.length).head? with
  | none => some 0
  | some line =>
    let first := lead line
    match header.depth with
    | some depth => some (if first < least then 0 else depth + (least - 1))
    | none => if least ≤ first ∧ empty.any (first < ·.length) then none else some first

/-- The text of a block, from behind its indicator, and the span of its
lines. -/
def blockSpan? (folded : Bool) (least : Nat) (source : Remaining) :
    Option (List Char × Span) := do
  let marks := source.line.takeWhile fun c => !isBlank c && c != '#'
  let header ← BlockHeader.ofMarks? folded marks
  if !nothingFollows (source.line.drop marks.length) then none
  let indent ← blockIndent? header least source.below
  let lines := source.below.takeWhile fun line => continues (max least indent) line
  let counted := lines.map fun line => (lead line, line.drop (lead line))
  let closed := if lines.length < source.below.length then counted ++ [(0, [])] else counted
  let rest : Remaining := ⟨[], source.below.drop lines.length⟩
  pure (blockText header indent closed, ⟨source.line :: lines, rest⟩)

end DisposalAudit.Yaml
