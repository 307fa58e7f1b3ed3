import DisposalAudit.Number.Basic

/-!
# Numerals

Reading a decimal numeral rounds its exact value once. Writing a number
chooses the fewest digits that read back to it, and of several such
numerals the nearest.

The base sixteen form of a number is exact: its fraction is a finite sum of
powers of two and is written out in full.

## Main definitions

* `Numeral` — the parts of a decimal numeral as they were written.
* `Numeral.ofChars?` — splits a text into those parts.
* `Numeral.value` — the number that a numeral stands for.
* `Number.shortest` — digits and place of the shortest numeral.
* `Number.text` — the written form: positional for magnitudes from
  `1e-6` up to `1e21`, otherwise with an exponent.
* `Number.hexText`, `Number.hexInt` — base sixteen form, in lower case.
-/

namespace DisposalAudit

/-! ## Reading -/

/-- A decimal numeral, split but not yet judged: which parts have to be
there, and whether a plus sign may lead, is up to each notation. -/
structure Numeral where
  sign : Option Char
  whole : List Char
  fraction : Option (List Char)
  exponent : Option Int
  deriving DecidableEq

namespace Numeral

/-- The natural number that digits of some base up to sixteen spell. -/
def natOfDigits (base : Nat) (digits : List Char) : Nat :=
  digits.foldl (fun n c => n * base + digitValue c) 0
where
  digitValue (c : Char) : Nat :=
    if c.isDigit then c.toNat - '0'.toNat
    else if 'a' ≤ c then c.toNat - 'a'.toNat + 10
    else c.toNat - 'A'.toNat + 10

/-- A leading plus or minus sign, and the rest. -/
def splitSign : List Char → Option Char × List Char
  | '+' :: rest => (some '+', rest)
  | '-' :: rest => (some '-', rest)
  | text => (none, text)

/-- The exponent at the end of a numeral: absent, or a mark, an optional
sign and at least one digit. -/
def readExponent : List Char → Option (Option Int)
  | [] => some none
  | mark :: text =>
    let (sign, digits) := splitSign text
    if (mark = 'e' ∨ mark = 'E') ∧ digits ≠ [] ∧ digits.all Char.isDigit then
      let n : Int := natOfDigits 10 digits
      some (some (if sign = some '-' then -n else n))
    else none

/-- Splits a whole text into sign, digits, fraction and exponent. -/
def ofChars? (text : List Char) : Option Numeral :=
  let (sign, unsigned) := splitSign text
  let whole := unsigned.takeWhile Char.isDigit
  match unsigned.dropWhile Char.isDigit with
  | '.' :: rest =>
    (readExponent (rest.dropWhile Char.isDigit)).map fun exponent =>
      ⟨sign, whole, some (rest.takeWhile Char.isDigit), exponent⟩
  | rest => (readExponent rest).map fun exponent => ⟨sign, whole, none, exponent⟩

/-- The number nearest to the numeral's exact value. Numerals whose
leading digit lies above `10 ^ 400` or below `10 ^ (-400)` are far
outside the range of the data, so their power of ten is not formed. -/
def value (n : Numeral) : Number :=
  let fraction := n.fraction.getD []
  let digits := natOfDigits 10 (n.whole ++ fraction)
  let exponent := n.exponent.getD 0 - fraction.length
  let place := ((Nat.toDigits 10 digits).length : Int) + exponent
  let unsigned : Number :=
    if digits = 0 ∨ place < -400 then 0
    else if 400 < place then .infinite false
    else .nearest ((digits : Rat) * (10 : Rat) ^ exponent)
  if n.sign = some '-' then -unsigned else unsigned

end Numeral

/-! ## Writing -/

namespace Number

/-- The rationals that round to a positive finite datum form an interval:
half a spacing up, and half a spacing down except at a power of two,
below which the data lie twice as densely. The ends belong to it when
the significand is even. -/
def readsBackTo (datum : Rat) (q : Rat) : Bool :=
  let unit := spacing datum
  let significand := (datum / unit).floor
  let atBinade := significand = Nat.pow 2 52 ∧ (2 : Rat) ^ (-1074 : Int) < unit
  let upper := datum + unit / 2
  let lower := datum - (if atBinade then unit / 4 else unit / 2)
  if significand % 2 = 0 then lower ≤ q ∧ q ≤ upper else lower < q ∧ q < upper

/-- The multiple of `step` that reads back to a positive datum, the nearer
one if both neighbours do and the even one on a tie. -/
def neighbour? (datum step : Rat) : Option Nat :=
  let low := (datum / step).floor
  let fits (n : Int) : Bool := readsBackTo datum ((n : Rat) * step)
  match fits low, fits (low + 1) with
  | true, true => some (halfEven (datum / step)).toNat
  | true, false => some low.toNat
  | false, true => some (low + 1).toNat
  | false, false => none

/-- Digits and place of the shortest numeral of a positive finite datum:
`(d, e)` stands for `d * 10 ^ e`. Seventeen digits always suffice. -/
def shortest (datum : Rat) : Nat × Int :=
  let place := leadingPlace 10 datum
  let attempt (count : Nat) : Option (Nat × Int) :=
    let e := place - count
    (neighbour? datum ((10 : Rat) ^ e)).map fun d => (d, e)
  ((List.range 17).findSome? attempt).getD (datum.floor.toNat, 0)

/-- A digit string without the zeros at its end, and their number. -/
def dropTrailingZeros (digits : List Char) : List Char × Nat :=
  let zeros := (digits.reverse.takeWhile (· == '0')).length
  (digits.take (digits.length - zeros), zeros)

/-- Lays out digits whose decimal point stands after `point` of them:
positional from `1e-6` up to `1e21`, otherwise one digit before the point
and a signed exponent. -/
def layout (digits : List Char) (point : Int) : List Char :=
  let count : Int := digits.length
  if count ≤ point ∧ point ≤ 21 then
    digits ++ List.replicate (point - count).toNat '0'
  else if 0 < point ∧ point ≤ 21 then
    digits.take point.toNat ++ '.' :: digits.drop point.toNat
  else if -6 < point ∧ point ≤ 0 then
    '0' :: '.' :: List.replicate (-point).toNat '0' ++ digits
  else
    let exponent := point - 1
    let sign := if exponent < 0 then '-' else '+'
    let mantissa := match digits with
      | [digit] => [digit]
      | digit :: more => digit :: '.' :: more
      | [] => []
    mantissa ++ 'e' :: sign :: Nat.toDigits 10 exponent.natAbs

/-- The written form of a number. -/
def text : Number → String
  | .nan => "NaN"
  | .infinite negative => if negative then "-Infinity" else "Infinity"
  | .finite q =>
    if q = 0 then "0"
    else
      let (d, e) := shortest (magnitude q)
      let (digits, zeros) := dropTrailingZeros (Nat.toDigits 10 d)
      let body := String.ofList (layout digits (digits.length + zeros + e))
      if q < 0 then "-" ++ body else body

/-! ## Base sixteen -/

/-- Base sixteen digits of a dyadic fraction below one. With `2 ^ k` as
denominator the last digit that is not zero stands at place `k / 4`,
rounded up. -/
def hexFraction (q : Rat) : List Char :=
  let places := (q.den.log2 + 3) / 4
  let digits := Nat.toDigits 16 (q * (Nat.pow 16 places : Rat)).floor.toNat
  List.replicate (places - digits.length) '0' ++ digits

/-- Base sixteen form of a number, with a minus sign in front of a negative
one. -/
def hexText : Number → String
  | .nan => "NaN"
  | .infinite negative => if negative then "-Infinity" else "Infinity"
  | .finite q =>
    let size := magnitude q
    let whole := size.floor
    let rest := size - whole
    let digits := Nat.toDigits 16 whole.toNat ++ if rest = 0 then [] else '.' :: hexFraction rest
    String.ofList (if q < 0 then '-' :: digits else digits)

/-- Base sixteen form of an integer. -/
def hexInt (n : Int) : String := (finite (n : Rat)).hexText

end Number

end DisposalAudit
