import DisposalAudit.Text.Units
import DisposalAudit.Value

/-!
# JSON text

Writes a value as JSON. The two layouts differ only in blanks: compact
text has none, pretty text puts every item and member on a line of its own,
two blanks deeper than its parent, and writes an empty list or record
without a line break.

## Main definitions

* `Json.quote` — a text between quotes; only the quote, the backslash, the
  control characters below a blank and halves that are alone are escaped.
* `Json.compact`, `Json.pretty` — the text of a value.
-/

namespace DisposalAudit.Json

/-- A unit by its code, in four lower-case hexadecimal digits. -/
def escapeCode (n : Nat) : List Char :=
  ['\\', 'u', Nat.digitChar (n / 4096 % 16), Nat.digitChar (n / 256 % 16),
    Nat.digitChar (n / 16 % 16), Nat.digitChar (n % 16)]

/-- Escaped form of one character inside quotes. -/
def escape (c : Char) : List Char :=
  match c with
  | '"' => ['\\', '"']
  | '\\' => ['\\', '\\']
  | '\x08' => ['\\', 'b']
  | '\x0c' => ['\\', 'f']
  | '\n' => ['\\', 'n']
  | '\r' => ['\\', 'r']
  | '\t' => ['\\', 't']
  | c =>
    if c < ' ' || Text.firstHalf ≤ c.toNat then
      (Text.charUnits c).flatMap fun u => escapeCode u.toNat
    else [c]

/-- Escaped form of characters inside quotes. Halves that make a character
stand as they are. -/
def escapeAll : List Char → List Char
  | [] => []
  | [c] => escape c
  | c :: d :: rest =>
    if Text.areHalves c d then c :: d :: escapeAll rest else escape c ++ escapeAll (d :: rest)

/-- A text between quotes. -/
def quote (text : String) : String := String.ofList ('"' :: escapeAll text.toList ++ ['"'])

/-- Infinities and `nan` have no JSON form and become `null`. -/
def number : Number → String
  | .finite q => Number.text (.finite q)
  | _ => "null"

/-- Where line breaks and blanks go. -/
structure Layout where
  /-- What separates the parts of a list or record at a depth. -/
  lineBreak : Nat → String
  /-- What follows the name of a member. -/
  colon : String

/-- No blanks at all. -/
def Layout.compact : Layout := ⟨fun _ => "", ":"⟩

/-- One part a line, indented by two blanks a level. -/
def Layout.pretty : Layout :=
  ⟨fun depth => String.ofList ('\n' :: List.replicate (2 * depth) ' '), ": "⟩

/-- Parts between an opening and a closing bracket. -/
def Layout.bracket (layout : Layout) (depth : Nat) (opening closing : String) :
    List String → String
  | [] => opening ++ closing
  | parts =>
    opening ++ layout.lineBreak (depth + 1)
      ++ ("," ++ layout.lineBreak (depth + 1)).intercalate parts
      ++ layout.lineBreak depth ++ closing

mutual

/-- Text of a value at a depth. -/
def render (layout : Layout) (depth : Nat) : Value → String
  | .null => "null"
  | .bool true => "true"
  | .bool false => "false"
  | .number n => number n
  | .text s => quote s
  | .list items => layout.bracket depth "[" "]" (renderItems layout (depth + 1) items)
  | .record members => layout.bracket depth "\x7b" "\x7d" (renderMembers layout (depth + 1) members)

/-- Texts of the items of a list. -/
def renderItems (layout : Layout) (depth : Nat) : List Value → List String
  | [] => []
  | item :: rest => render layout depth item :: renderItems layout depth rest

/-- Texts of the members of a record. -/
def renderMembers (layout : Layout) (depth : Nat) : List (String × Value) → List String
  | [] => []
  | (name, value) :: rest =>
    (quote name ++ layout.colon ++ render layout depth value) :: renderMembers layout depth rest

end

/-- Text without blanks. -/
def compact (value : Value) : String := render .compact 0 value

/-- Text with one part a line. -/
def pretty (value : Value) : String := render .pretty 0 value

end DisposalAudit.Json
