import DisposalAudit.Number.Basic
import Mathlib.Algebra.Order.Ring.Rat
import Mathlib.Algebra.Order.Ring.Cast
import Mathlib.Data.Int.Cast.Lemmas

/-!
# Numbers that are counts

Stack counts, positions and offsets are numbers, and up to `2 ^ 53` they
count like naturals. Beyond that a sum may be rounded to its neighbour, so
whoever counts with numbers has to stay below.

Documents may also hold the infinity above all counts where a count is asked
for.

## Main definitions

* `Number.IsCount` — an integer that is not negative.
* `Number.IsLimit` — the infinity above all counts.

## Main results

* `Number.lt_trans` — the order of numbers is transitive.
* `Number.toNat?_eq_some_iff` — the numbers that are naturals.
* `Number.ofNat_sub_ofNat`, `Number.finite_add_ofNat` — exact differences
  and sums in range.
-/

namespace DisposalAudit.Number

/-! ## Order -/

theorem lt_trans {a b c : Number} (hab : a < b) (hbc : b < c) : a < c := by
  change below a b = true at hab
  change below b c = true at hbc
  show below a c = true
  cases b with
  | nan => cases a <;> simp [below] at hab
  | infinite negative =>
      cases negative with
      | true => rcases a with _ | (_ | _) | _ <;> simp [below] at hab
      | false => rcases c with _ | (_ | _) | _ <;> simp [below] at hbc
  | finite q =>
      rcases a with _ | (_ | _) | p <;> rcases c with _ | (_ | _) | r <;>
        simp only [below, decide_eq_true_eq, Bool.false_eq_true] at hab hbc ⊢
      exact hab.trans hbc

/-! ## Integers and counts -/

theorem exists_intCast_of_isInteger {a : Number} (h : a.IsInteger) :
    ∃ n : Int, a = .finite (n : Rat) := by
  cases a with
  | nan => exact h.elim
  | infinite negative => exact h.elim
  | finite q =>
      have hden : q.den = 1 := h
      refine ⟨q.num, ?_⟩
      rw [← Rat.num_div_den q, hden]
      simp

/-- An integer that is not negative. -/
def IsCount (a : Number) : Prop := a.IsInteger ∧ ¬ a < 0

instance : DecidablePred IsCount := fun a => inferInstanceAs (Decidable (a.IsInteger ∧ ¬ a < 0))

theorem toNat?_eq_some_iff {a : Number} {n : Nat} : a.toNat? = some n ↔ a = ofNat n := by
  constructor
  · intro h
    have hinteger : a.IsInteger := by
      cases a with
      | nan => cases h
      | infinite negative => cases h
      | finite q =>
          by_cases hden : q.den = 1
          · exact hden
          · simp [toNat?, toInt?, hden] at h
    obtain ⟨k, rfl⟩ := exists_intCast_of_isInteger hinteger
    cases k with
    | ofNat k =>
        obtain rfl : k = n := Option.some.inj h
        rfl
    | negSucc k => cases h
  · intro heq
    subst heq
    rfl

/-- Numbers are told apart from zero, and ordered, as what they stand for. -/
theorem finite_eq_zero_iff {q : Rat} : Number.finite q = 0 ↔ q = 0 := by
  show Number.finite q = .finite ((0 : Nat) : Rat) ↔ q = 0
  rw [Number.finite.injEq, Nat.cast_zero]

theorem finite_lt_zero_iff {q : Rat} : Number.finite q < 0 ↔ q < 0 := by
  show decide (q < ((0 : Nat) : Rat)) = true ↔ q < 0
  rw [decide_eq_true_iff, Nat.cast_zero]

theorem finite_intCast_eq_zero_iff {n : Int} : Number.finite (n : Rat) = 0 ↔ n = 0 := by
  rw [finite_eq_zero_iff, Int.cast_eq_zero]

theorem finite_intCast_lt_zero_iff {n : Int} : Number.finite (n : Rat) < 0 ↔ n < 0 := by
  rw [finite_lt_zero_iff, Int.cast_lt_zero]

theorem isCount_ofNat (n : Nat) : IsCount (ofNat n) := by
  refine ⟨rfl, ?_⟩
  change ¬ Number.finite ((n : Int) : Rat) < 0
  rw [finite_intCast_lt_zero_iff]
  omega

theorem exists_ofNat_of_isCount {a : Number} (h : a.IsCount) : ∃ n, a = ofNat n := by
  obtain ⟨n, rfl⟩ := exists_intCast_of_isInteger h.1
  have hpos : ¬ n < 0 := fun hneg => h.2 (finite_intCast_lt_zero_iff.2 hneg)
  refine ⟨n.toNat, ?_⟩
  rw [ofNat, ← Int.cast_natCast, Int.toNat_of_nonneg (not_lt.1 hpos)]

/-- The infinity above all counts. -/
def IsLimit (a : Number) : Prop := a = .infinite false

instance : DecidablePred IsLimit := fun a => inferInstanceAs (Decidable (a = .infinite false))

theorem isWhole_iff {a : Number} :
    a.isWhole = true ↔ a.IsInteger ∨ ∃ negative, a = .infinite negative := by
  cases a <;> simp [isWhole, IsInteger]

theorem isNonnegative_iff {a : Number} : a.isNonnegative = true ↔ a ≠ .nan ∧ ¬ a < 0 := by
  cases a with
  | nan => simp [isNonnegative]
  | infinite negative => cases negative <;> decide
  | finite q => simp [isNonnegative, finite_lt_zero_iff]

/-- The numbers that are taken for integers that are not negative. -/
theorem isCount_or_isLimit_iff {a : Number} :
    a.IsCount ∨ a.IsLimit ↔ a.isWhole = true ∧ a.isNonnegative = true := by
  cases a with
  | nan => simp [IsCount, IsInteger, IsLimit, isWhole]
  | infinite negative => cases negative <;> decide
  | finite q =>
      rw [isWhole_iff, isNonnegative_iff]
      simp [IsCount, IsLimit]

theorem ofNat_lt_ofNat {m n : Nat} : ofNat m < ofNat n ↔ m < n := by
  show decide ((m : Rat) < (n : Rat)) = true ↔ m < n
  rw [decide_eq_true_iff, Nat.cast_lt]

/-- The integers above `-1` are the counts. -/
theorem isCount_iff {a : Number} : a.IsCount ↔ -1 < a ∧ a.IsInteger := by
  rw [IsCount, and_comm, and_congr_left_iff]
  intro h
  obtain ⟨n, rfl⟩ := exists_intCast_of_isInteger h
  rw [finite_intCast_lt_zero_iff]
  show ¬ n < 0 ↔ decide (-((1 : Nat) : Rat) < (n : Rat)) = true
  rw [decide_eq_true_iff, Nat.cast_one]
  norm_cast
  omega

/-! ## Exact arithmetic -/

/-- The difference of two counts in range is exact. -/
theorem ofNat_sub_ofNat {a b : Nat} (ha : a ≤ countLimit) (hb : b ≤ countLimit) :
    ofNat a - ofNat b = .finite (((a : Int) - b : Int) : Rat) := by
  have hexact : (a : Rat) + -(b : Rat) = (((a : Int) - b : Int) : Rat) := by
    rw [Int.cast_sub, Int.cast_natCast, Int.cast_natCast, sub_eq_add_neg]
  show nearest ((a : Rat) + -(b : Rat)) = _
  rw [hexact, nearest_ofInt _ (by omega)]

/-- The sum of an integer and a count is exact if it is a count in range. -/
theorem finite_add_ofNat {n : Int} {b c : Nat} (hsum : n + b = c) (hc : c ≤ countLimit) :
    Number.finite (n : Rat) + ofNat b = ofNat c := by
  have hexact : (n : Rat) + (b : Rat) = ((c : Int) : Rat) := by
    rw [← hsum, Int.cast_add, Int.cast_natCast]
  show nearest ((n : Rat) + (b : Rat)) = _
  rw [hexact, nearest_ofInt _ (by omega), Int.cast_natCast, ofNat]

end DisposalAudit.Number
