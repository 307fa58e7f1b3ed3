import DisposalAudit.Yaml.Folding

/-!
# Scalars

A plain text is null, a truth value or a number if it is spelled like one,
and a text otherwise. A tag may ask for one of these kinds; a text that is
not spelled like the kind asked for stays a text.

## Main definitions

* `Yaml.plainScalar` — the value of a plain text.
* `Yaml.Tag`, `Yaml.Tag.scalar` — what tags ask for, and what they get.
* `Yaml.Tag.resolve?` — the tag that a shorthand stands for.
-/

namespace DisposalAudit.Yaml

/-! ## Kinds by spelling -/

/-- The spellings of null, the empty text among them. -/
def null? (text : List Char) : Option Value :=
  if ["", "~", "null", "Null", "NULL"].contains (String.ofList text) then some .null else none

/-- The spellings of the truth values. -/
def bool? (text : List Char) : Option Value :=
  let word := String.ofList text
  if ["true", "True", "TRUE"].contains word then some (.bool true)
  else if ["false", "False", "FALSE"].contains word then some (.bool false)
  else none

/-- A decimal numeral that has digits. -/
def decimal? (text : List Char) : Option Numeral :=
  (Numeral.ofChars? text).filter fun numeral =>
    !numeral.whole.isEmpty || !(numeral.fraction.getD []).isEmpty

/-- Digits of a base, at least one of them. -/
def inBase? (base : Nat) (isDigit : Char → Bool) (digits : List Char) : Option Value :=
  if digits.isEmpty ∨ !digits.all isDigit then none
  else some (.number (.nearest (Numeral.natOfDigits base digits : Rat)))

/-- An integer: decimal with a sign or not, octal behind `0o`, hexadecimal
behind `0x`. -/
def int? : List Char → Option Value
  | '0' :: 'o' :: digits => inBase? 8 (fun c => '0' ≤ c && c ≤ '7') digits
  | '0' :: 'x' :: digits => inBase? 16 isHexDigit digits
  | text =>
    (decimal? text).bind fun numeral =>
      if numeral.fraction.isNone ∧ numeral.exponent.isNone then some (.number numeral.value)
      else none

/-- A number with a fraction or an exponent, an infinity, or the number
that is none. -/
def float? (text : List Char) : Option Value :=
  let (sign, unsigned) := Numeral.splitSign text
  if [".inf", ".Inf", ".INF"].contains (String.ofList unsigned) then
    some (.number (.infinite (sign = some '-')))
  else if [".nan", ".NaN", ".NAN"].contains (String.ofList text) then some (.number .nan)
  else
    (decimal? text).bind fun numeral =>
      if numeral.fraction.isSome ∨ numeral.exponent.isSome then some (.number numeral.value)
      else none

/-- The value of a plain text. -/
def plainScalar (text : List Char) : Value :=
  (null? text <|> bool? text <|> int? text <|> float? text).getD (.text (String.ofList text))

/-! ## Tags -/

/-- What a tag asks a scalar to be. Tags of other kinds leave a scalar the
text that it is. -/
inductive Tag where
  | text
  | null
  | bool
  | int
  | float
  deriving DecidableEq

namespace Tag

/-- The value of a scalar under a tag. -/
def scalar (tag : Tag) (text : List Char) : Value :=
  let value := match tag with
    | .text => none
    | .null => null? text
    | .bool => bool? text
    | .int => int? text
    | .float => float? text
  value.getD (.text (String.ofList text))

/-- The tag of a full name. -/
def ofName (name : String) : Tag :=
  match name with
  | "tag:yaml.org,2002:null" => .null
  | "tag:yaml.org,2002:bool" => .bool
  | "tag:yaml.org,2002:int" => .int
  | "tag:yaml.org,2002:float" => .float
  | _ => .text

/-- The part of a shorthand up to its last exclamation mark, and the rest. -/
def splitHandle (source : List Char) : List Char × List Char :=
  let suffix := (source.reverse.takeWhile (· != '!')).reverse
  (source.take (source.length - suffix.length), suffix)

/-- The tag that is written in a document: the lone mark, a full name in
angle brackets, or a handle and a suffix. The handle has to be known, and a
suffix has to be there. -/
def resolve? (handles : List (String × String)) (source : List Char) : Option Tag :=
  match source with
  | ['!'] => some .text
  | '!' :: '<' :: name =>
    match name.reverse with
    | '>' :: reversed =>
      let name := String.ofList reversed.reverse
      if name = "!" ∨ name = "!!" then none else some (ofName name)
    | _ => none
  | _ =>
    let (handle, suffix) := splitHandle source
    if suffix.isEmpty then none
    else
      match handles.lookup (String.ofList handle) with
      | some start => some (ofName (start ++ String.ofList suffix))
      | none => if handle = ['!'] then some .text else none

end Tag

end DisposalAudit.Yaml
