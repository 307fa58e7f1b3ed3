import DisposalAudit.Text.Units
import DisposalAudit.Value

/-!
# JSON tokens

A JSON text as a list of tokens. One scan reads character by character and
knows only where it stands: between tokens, in a word (a number or one of
the three names), in a quoted text, behind a backslash, or in the digits of
an escaped unit. Quoted texts are collected as UTF-16 units, since an
escape names one unit and two of them may spell one character.

## Main definitions

* `Json.Token` — brackets, separators, texts and words.
* `Json.word?` — the value of a word.
* `Json.tokens?` — the tokens of a text, if it has a lexical form.
-/

namespace DisposalAudit.Json

/-- A lexical element of a JSON text. -/
inductive Token where
  | openList
  | closeList
  | openRecord
  | closeRecord
  | colon
  | comma
  | text (value : String)
  | word (value : Value)
  deriving Inhabited

/-- A number in JSON's own form: no plus sign, no leading zero, and digits
on both sides of a point. -/
def number? (text : List Char) : Option Number :=
  (Numeral.ofChars? text).bind fun numeral =>
    if numeral.sign ≠ some '+' ∧ numeral.whole ≠ [] ∧ numeral.fraction ≠ some [] ∧
        (numeral.whole.head? = some '0' → numeral.whole.length = 1) then
      some numeral.value
    else none

/-- The value of a word. -/
def word? (text : List Char) : Option Value :=
  if text = ['t', 'r', 'u', 'e'] then some (.bool true)
  else if text = ['f', 'a', 'l', 's', 'e'] then some (.bool false)
  else if text = ['n', 'u', 'l', 'l'] then some .null
  else (number? text).map .number

/-- Where the scan stands. What has been read of a word or a text is kept
newest first. -/
inductive Mode where
  | between
  | word (read : List Char)
  | text (read : List UInt16)
  | escape (read : List UInt16)
  | code (read : List UInt16) (left value : Nat)

/-- A scan under way, with its tokens newest first. -/
structure Scan where
  mode : Mode
  tokens : List Token

/-- The token of a character that stands for itself. -/
def punctuation? : Char → Option Token
  | '[' => some .openList
  | ']' => some .closeList
  | '\x7b' => some .openRecord
  | '\x7d' => some .closeRecord
  | ':' => some .colon
  | ',' => some .comma
  | _ => none

/-- The four blanks of JSON. -/
def isSpace (c : Char) : Bool := c == ' ' || c == '\t' || c == '\n' || c == '\r'

/-- The unit that a one-letter escape names. -/
def escaped? : Char → Option UInt16
  | '"' => some 0x22
  | '\\' => some 0x5C
  | '/' => some 0x2F
  | 'b' => some 0x08
  | 'f' => some 0x0C
  | 'n' => some 0x0A
  | 'r' => some 0x0D
  | 't' => some 0x09
  | _ => none

/-- The value of a hexadecimal digit. -/
def hexDigit? (c : Char) : Option Nat :=
  if c.isDigit ∨ ('a' ≤ c ∧ c ≤ 'f') ∨ ('A' ≤ c ∧ c ≤ 'F') then
    some (Numeral.natOfDigits 16 [c])
  else none

namespace Scan

/-- One character read between tokens. -/
def start (tokens : List Token) (c : Char) : Scan :=
  match punctuation? c with
  | some token => ⟨.between, token :: tokens⟩
  | none =>
    if isSpace c then ⟨.between, tokens⟩
    else if c = '"' then ⟨.text [], tokens⟩
    else ⟨.word [c], tokens⟩

/-- One character read. A word ends before a blank, a quote or a bracket or
separator. -/
def step (scan : Scan) (c : Char) : Option Scan :=
  match scan.mode with
  | .between => some (start scan.tokens c)
  | .word read =>
    if isSpace c ∨ c = '"' ∨ (punctuation? c).isSome then
      (word? read.reverse).map fun value => start (.word value :: scan.tokens) c
    else some ⟨.word (c :: read), scan.tokens⟩
  | .text read =>
    if c = '"' then some ⟨.between, .text (Text.ofUnits read.reverse) :: scan.tokens⟩
    else if c = '\\' then some ⟨.escape read, scan.tokens⟩
    else if c < ' ' then none
    else some ⟨.text ((Text.charUnits c).reverse ++ read), scan.tokens⟩
  | .escape read =>
    if c = 'u' then some ⟨.code read 4 0, scan.tokens⟩
    else (escaped? c).map fun u => ⟨.text (u :: read), scan.tokens⟩
  | .code read left value =>
    (hexDigit? c).map fun digit =>
      let value := value * 16 + digit
      if left ≤ 1 then ⟨.text (value.toUInt16 :: read), scan.tokens⟩
      else ⟨.code read (left - 1) value, scan.tokens⟩

/-- The tokens at the end of the text, which may end in a word but not in
an open quote. -/
def finish (scan : Scan) : Option (List Token) :=
  match scan.mode with
  | .between => some scan.tokens.reverse
  | .word read => (word? read.reverse).map fun value => (.word value :: scan.tokens).reverse
  | _ => none

end Scan

/-- The tokens of a text, or `none` if it has no lexical form. -/
def tokens? (text : String) : Option (List Token) :=
  (text.toList.foldlM Scan.step ⟨.between, []⟩).bind Scan.finish

end DisposalAudit.Json
