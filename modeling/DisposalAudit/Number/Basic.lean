/-!
# Numbers

Offsets, branch targets and stack counts are read from documents whose
numbers are binary64 data: a sign, 53 significant bits and an exponent.
A finite datum is held as the exact rational it stands for, so equality
and order are those of `Rat`, and every operation is an exact rational
operation followed by one rounding.

The sign of a zero is not kept, because no comparison and no printed
form shows it.

## Main definitions

* `Number` — a rational, one of the two infinities, or not a number.
* `Number.nearest` — the datum closest to a rational, ties to the even
  significand, overflowing to an infinity.
* `Number.add`, `Number.sub` — addition and subtraction, rounded once.
* `Number.IsInteger` — finite with no fractional part.
* `Number.isWhole`, `Number.isNonnegative` — what the shape of dumps asks of
  a number.

## Main results

* `Number.nearest_ofInt` — integers of magnitude at most `2 ^ 53` are
  data, so counting never rounds in that range.
-/

namespace DisposalAudit

/-- A binary64 datum, a finite one by its exact value. -/
inductive Number where
  | nan
  | infinite (negative : Bool)
  | finite (value : Rat)
  deriving DecidableEq, Inhabited

namespace Number

instance (n : Nat) : OfNat Number n := ⟨.finite (n : Rat)⟩

/-- A count as a number; the counts met here are far below `2 ^ 53`. -/
def ofNat (n : Nat) : Number := .finite (n : Rat)

/-! ## Rounding -/

/-- The distance of a rational from zero. -/
def magnitude (q : Rat) : Rat := if q < 0 then -q else q

/-- Place of the leading base-`b` digit of a positive rational: the
exponent `e` with `b ^ e ≤ q < b ^ (e + 1)`. Below one it is read off
the reciprocal, which is a power of `b` exactly when `q` is. -/
def leadingPlace (b : Nat) (q : Rat) : Int :=
  if 1 ≤ q then
    ((Nat.toDigits b q.floor.toNat).length : Int) - 1
  else
    let e := (Nat.toDigits b q⁻¹.floor.toNat).length - 1
    if q⁻¹ = (Nat.pow b e : Rat) then -(e : Int) else -(e : Int) - 1

/-- The integer nearest to a rational; a tie goes to the even one. -/
def halfEven (q : Rat) : Int :=
  let below := q.floor
  let rest := q - below
  if rest < 1 / 2 then below
  else if 1 / 2 < rest then below + 1
  else if below % 2 = 0 then below
  else below + 1

/-- Distance between neighbouring data around a nonzero rational: 53
significant bits, and never less than `2 ^ (-1074)`. -/
def spacing (q : Rat) : Rat :=
  (2 : Rat) ^ max (leadingPlace 2 (magnitude q) - 52) (-1074)

/-- The number `2 ^ 53`, up to which every integer is a datum. -/
def countLimit : Nat := Nat.pow 2 53

/-- The datum nearest to a rational. Integers that fit the significand
are their own datum; everything else is rounded to a multiple of the
spacing, and beyond the largest finite datum to an infinity. -/
def nearest (q : Rat) : Number :=
  if q.den = 1 ∧ q.num.natAbs ≤ countLimit then .finite q
  else
    let rounded := (halfEven (q / spacing q) : Rat) * spacing q
    if (2 : Rat) ^ (1024 : Int) ≤ magnitude rounded then .infinite (q < 0)
    else .finite rounded

theorem nearest_ofInt (n : Int) (h : n.natAbs ≤ countLimit) :
    nearest (n : Rat) = .finite (n : Rat) := by
  have den : ((n : Rat)).den = 1 := rfl
  have num : ((n : Rat)).num = n := rfl
  rw [nearest, if_pos ⟨den, num ▸ h⟩]

/-! ## Arithmetic -/

/-- The additive inverse, which is always exact. -/
def neg : Number → Number
  | .nan => .nan
  | .infinite negative => .infinite (!negative)
  | .finite q => .finite (-q)

/-- The exact sum, rounded once; opposite infinities have none. -/
def add : Number → Number → Number
  | .finite p, .finite q => nearest (p + q)
  | .infinite s, .infinite t => if s = t then .infinite s else .nan
  | .infinite s, .finite _ => .infinite s
  | .finite _, .infinite t => .infinite t
  | .nan, _ => .nan
  | _, .nan => .nan

instance : Neg Number := ⟨neg⟩

instance : Add Number := ⟨add⟩

instance : Sub Number := ⟨fun a b => a + -b⟩

/-! ## Order -/

/-- Strictly below. Nothing is below or above `nan`. -/
def below : Number → Number → Bool
  | .finite p, .finite q => p < q
  | .infinite true, .finite _ => true
  | .infinite true, .infinite false => true
  | .finite _, .infinite false => true
  | _, _ => false

instance : LT Number := ⟨fun a b => below a b = true⟩

instance (a b : Number) : Decidable (a < b) :=
  inferInstanceAs (Decidable (below a b = true))

/-- Finite and without a fractional part. -/
def IsInteger : Number → Prop
  | .finite q => q.den = 1
  | _ => False

instance : DecidablePred IsInteger
  | .finite q => inferInstanceAs (Decidable (q.den = 1))
  | .infinite _ => inferInstanceAs (Decidable False)
  | .nan => inferInstanceAs (Decidable False)

/-- Without a fractional part, as far as a division shows one. An infinity
shows none. -/
def isWhole : Number → Bool
  | .finite q => q.den = 1
  | .infinite _ => true
  | .nan => false

/-- Zero or above. -/
def isNonnegative : Number → Bool
  | .finite q => 0 ≤ q
  | .infinite negative => !negative
  | .nan => false

/-- The integer that a number is, if it is one. -/
def toInt? : Number → Option Int
  | .finite q => if q.den = 1 then some q.num else none
  | _ => none

/-- The natural number that a number is, if it is one. -/
def toNat? (a : Number) : Option Nat :=
  match a.toInt? with
  | some (.ofNat n) => some n
  | _ => none

end Number

end DisposalAudit
