import DisposalAudit.Text.Units
import DisposalAudit.Value

/-!
# Text that runs over several lines

Plain and quoted texts may run over several lines. Blanks around a line
break go away; one line break becomes a blank, and of more than one the
first goes away and the others stay. In double quotes an escaped line break
goes away without a trace. A block text keeps its lines, or folds them as
long as none is indented deeper.

## Main definitions

* `Yaml.fold` — a plain or single-quoted text.
* `Yaml.Piece`, `Yaml.unescape?` — a double-quoted text.
* `Yaml.BlockHeader`, `Yaml.blockText` — a block text.
-/

namespace DisposalAudit.Yaml

/-- The two blanks inside a line. -/
def isBlank (c : Char) : Bool := c == ' ' || c == '\t'

/-- A line without the blanks in front. -/
def trimStart (line : List Char) : List Char := line.dropWhile isBlank

/-- A line without the blanks behind. -/
def trimEnd (line : List Char) : List Char := (line.reverse.dropWhile isBlank).reverse

/-! ## Plain and single-quoted texts -/

/-- Joins the lines behind the first one. The flag tells whether the lines
read last were empty; the last line keeps the blanks behind it. -/
def foldLines (empty : Bool) : List (List Char) → List Char
  | [] => []
  | [last] => (if empty then [] else [' ']) ++ trimStart last
  | line :: rest =>
    match trimStart (trimEnd line) with
    | [] => '\n' :: foldLines true rest
    | body => (if empty then [] else [' ']) ++ body ++ foldLines false rest

/-- A text over several lines as one. The first line keeps the blanks in
front of it. -/
def fold : List (List Char) → List Char
  | [] => []
  | [line] => line
  | line :: rest => trimEnd line ++ foldLines false rest

/-! ## Double-quoted texts -/

/-- What a double-quoted text consists of. -/
inductive Piece where
  | blank (c : Char)
  | lineBreak
  | escapedBreak
  | units (us : List UInt16)

/-- The unit of a one-letter escape. -/
def escaped? : Char → Option UInt16
  | '0' => some 0x00
  | 'a' => some 0x07
  | 'b' => some 0x08
  | 't' | '\t' => some 0x09
  | 'n' => some 0x0A
  | 'v' => some 0x0B
  | 'f' => some 0x0C
  | 'r' => some 0x0D
  | 'e' => some 0x1B
  | ' ' => some 0x20
  | '"' => some 0x22
  | '/' => some 0x2F
  | '\\' => some 0x5C
  | 'N' => some 0x85
  | '_' => some 0xA0
  | 'L' => some 0x2028
  | 'P' => some 0x2029
  | _ => none

/-- Whether a character is a hexadecimal digit. -/
def isHexDigit (c : Char) : Bool := c.isDigit || ('a' ≤ c && c ≤ 'f') || ('A' ≤ c && c ≤ 'F')

/-- The units that hexadecimal digits name, if they name a character or
half of one. -/
def hexUnits? (digits : List Char) : Option (List UInt16) :=
  let code := Numeral.natOfDigits 16 digits
  if !digits.all isHexDigit || 0x10FFFF < code then none
  else if code < 0x10000 then some [code.toUInt16]
  else some (Text.charUnits (Char.ofNat code))

/-- The pieces between double quotes. -/
def pieces? : List Char → Option (List Piece)
  | [] => some []
  | '\n' :: rest => (pieces? rest).map (.lineBreak :: ·)
  | '\\' :: '\n' :: rest => (pieces? rest).map (.escapedBreak :: ·)
  | '\\' :: 'x' :: a :: b :: rest => do
    pure (.units (← hexUnits? [a, b]) :: (← pieces? rest))
  | '\\' :: 'u' :: a :: b :: c :: d :: rest => do
    pure (.units (← hexUnits? [a, b, c, d]) :: (← pieces? rest))
  | '\\' :: 'U' :: a :: b :: c :: d :: e :: f :: g :: h :: rest => do
    pure (.units (← hexUnits? [a, b, c, d, e, f, g, h]) :: (← pieces? rest))
  | '\\' :: c :: rest => do
    pure (.units [← escaped? c] :: (← pieces? rest))
  | '\\' :: [] => none
  | c :: rest =>
    (pieces? rest).map ((if isBlank c then .blank c else .units (Text.charUnits c)) :: ·)

/-- A double-quoted text under way: the units so far, newest first; the
blanks read last, newest first; and how many line breaks stand before
them. -/
structure Unfolded where
  units : List UInt16
  blanks : List Char
  breaks : Nat
  /-- Whether an escaped line break has just been read. -/
  joined : Bool

namespace Unfolded

/-- Nothing read yet. -/
def start : Unfolded := ⟨[], [], 0, false⟩

/-- Settles what the blanks and line breaks read last amount to. -/
def settle (u : Unfolded) : List UInt16 :=
  match u.breaks with
  | 0 => u.blanks.flatMap Text.charUnits ++ u.units
  | 1 => 0x20 :: u.units
  | n + 2 => List.replicate (n + 1) 0x0A ++ u.units

/-- One piece read. -/
def step (u : Unfolded) : Piece → Unfolded
  | .blank c => if u.joined || 0 < u.breaks then u else { u with blanks := c :: u.blanks }
  | .lineBreak => { u with blanks := [], breaks := u.breaks + 1, joined := false }
  | .escapedBreak => ⟨u.settle, [], 0, true⟩
  | .units us => ⟨us.reverse ++ u.settle, [], 0, false⟩

end Unfolded

/-- The text between double quotes, if its escapes are known ones. -/
def unescape? (source : List Char) : Option String :=
  (pieces? source).map fun pieces =>
    Text.ofUnits (pieces.foldl Unfolded.step .start).settle.reverse

/-- The text between single quotes, where a quote is written twice. -/
def unquote : List Char → List Char
  | '\'' :: '\'' :: rest => '\'' :: unquote rest
  | c :: rest => c :: unquote rest
  | [] => []

/-! ## Block texts -/

/-- What becomes of the line breaks at the end. -/
inductive Chomping where
  | strip
  | clip
  | keep
  deriving DecidableEq

/-- The header of a block text. -/
structure BlockHeader where
  folded : Bool
  /-- How much deeper than its parent the text stands, if the header says
  so. -/
  depth : Option Nat
  chomping : Chomping

/-- The header that follows the indicator: one digit and one chomping mark
at most, in either order. -/
def BlockHeader.ofMarks? (folded : Bool) (marks : List Char) : Option BlockHeader :=
  marks.foldlM (fun header c =>
    if c = '-' ∧ header.chomping = .clip then some { header with chomping := .strip }
    else if c = '+' ∧ header.chomping = .clip then some { header with chomping := .keep }
    else if '1' ≤ c ∧ c ≤ '9' ∧ header.depth = none then
      some { header with depth := some (c.toNat - '0'.toNat) }
    else none) ⟨folded, none, .clip⟩

/-- A line of a block text: its blanks in front, counted, and the rest. -/
abbrev BlockLine := Nat × List Char

/-- Lines that are not empty up to the last one that has anything in it. -/
def dropEmptyEnd (lines : List BlockLine) : List BlockLine :=
  (lines.reverse.dropWhile fun line => line.2.isEmpty).reverse

/-- The text of a line that stands deeper than the block by some blanks. -/
def indented (trim : Nat) (line : BlockLine) : List Char :=
  List.replicate (line.1 - trim) ' ' ++ line.2

/-- Folded lines under way: the text so far, what goes before the next
line, and whether the last line stood deeper. -/
structure FoldedBlock where
  text : List Char
  separator : List Char
  deeper : Bool

/-- One line of a folded block. Lines that stand deeper keep the breaks
around them. -/
def FoldedBlock.step (trim : Nat) (b : FoldedBlock) (line : BlockLine) : FoldedBlock :=
  if trim < line.1 ∨ line.2.head? = some '\t' then
    let separator :=
      if b.separator = [' '] then ['\n']
      else if !b.deeper ∧ b.separator = ['\n'] then ['\n', '\n'] else b.separator
    ⟨b.text ++ separator ++ indented trim line, ['\n'], true⟩
  else if line.2.isEmpty then
    if b.separator = ['\n'] then { b with text := b.text ++ ['\n'] }
    else { b with separator := ['\n'] }
  else ⟨b.text ++ b.separator ++ line.2, [' '], false⟩

/-- The content of a block text: its empty lines in front, and its lines up
to the last one with anything in it, joined or folded. -/
def blockContent (folded : Bool) (trim : Nat) (lines : List BlockLine) : List Char :=
  let front := lines.takeWhile fun line => line.2.isEmpty
  let body := lines.dropWhile fun line => line.2.isEmpty
  let blankLines := front.flatMap fun line => List.replicate (line.1 - trim) ' ' ++ ['\n']
  blankLines ++
    if folded then (body.foldl (FoldedBlock.step trim) ⟨[], [], false⟩).text
    else ['\n'].intercalate (body.map (indented trim))

/-- A block text whose lines stand behind `trim` blanks. Empty lines at the
end count as content as far as one of them stands deeper. -/
def blockText (header : BlockHeader) (trim : Nat) (lines : List BlockLine) : List Char :=
  let body := dropEmptyEnd lines
  if body.isEmpty then
    match header.chomping with
    | .keep => List.replicate (max 1 (lines.length - 1)) '\n'
    | _ => []
  else
    let tail := lines.drop body.length
    let deep := tail.reverse.dropWhile fun line => line.1 ≤ trim
    let content := lines.take (body.length + deep.length)
    let text := blockContent header.folded trim content
    match header.chomping with
    | .strip => text
    | .clip => text ++ ['\n']
    | .keep =>
      let text := text ++ (lines.drop content.length).flatMap fun line =>
        '\n' :: List.replicate (line.1 - trim) ' '
      if text.getLast? = some '\n' then text else text ++ ['\n']

end DisposalAudit.Yaml
