import DisposalAudit.Proofs.WholeCounts
import Mathlib.Algebra.Order.Field.Basic
import Mathlib.Algebra.Order.Field.Rat
import Mathlib.Tactic.Linarith
import Mathlib.Tactic.NormNum

/-!
# Signs of rounded integers

An integer beyond `2 ^ 53` is rounded to a multiple of the spacing around
it. The spacing is far smaller than the integer, so the integer may be
changed but never to zero or past it.

## Main results

* `Number.two_mul_spacing_le` — the spacing against the integer.
* `Number.nearest_intCast_lt_zero`, `Number.nearest_intCast_of_pos` — rounding
  keeps the sign.
* `Number.ofNat_sub_lt_zero_iff`, `Number.ofNat_sub_eq_zero_iff` — counts are
  compared rightly by their rounded difference.
-/

namespace DisposalAudit.Number

/-! ## The spacing -/

theorem magnitude_intCast (n : Int) : magnitude (n : Rat) = (n.natAbs : Rat) := by
  unfold magnitude
  split
  · rename_i hneg
    have hn : n < 0 := by exact_mod_cast hneg
    have habs : ((n.natAbs : Int) : Rat) = ((-n : Int) : Rat) := by
      congr 1
      omega
    rw [Int.cast_natCast, Int.cast_neg] at habs
    exact habs.symm
  · rename_i hpos
    have hn : 0 ≤ n := by
      have : (0 : Rat) ≤ n := not_lt.1 hpos
      exact_mod_cast this
    have habs : ((n.natAbs : Int) : Rat) = (n : Rat) := by
      congr 1
      omega
    rw [Int.cast_natCast] at habs
    exact habs.symm

theorem leadingPlace_natCast {n : Nat} (hpos : 0 < n) :
    leadingPlace 2 (n : Rat) = ((Nat.toDigits 2 n).length : Int) - 1 := by
  have hone : (1 : Rat) ≤ n := by exact_mod_cast hpos
  have hfloor : ((n : Rat)).floor.toNat = n := by
    show (((n : Int) : Rat)).floor.toNat = n
    rw [Rat.floor_intCast]
    rfl
  rw [leadingPlace, if_pos hone, hfloor]

/-- The number `2 ^ 53` has 54 binary places, so the spacing around a greater
integer is at least two, and it has 52 places less than the integer. -/
theorem two_mul_spacing_le {n : Int} (hlarge : countLimit < n.natAbs) :
    2 * spacing (n : Rat) ≤ (n.natAbs : Rat) := by
  have hlimit : countLimit = 2 ^ 53 := rfl
  have hpos : 0 < n.natAbs := by omega
  obtain ⟨e, he⟩ : ∃ e, (Nat.toDigits 2 n.natAbs).length = e + 52 + 1 := by
    refine ⟨(Nat.toDigits 2 n.natAbs).length - 53, ?_⟩
    have hlong : ¬ (Nat.toDigits 2 n.natAbs).length ≤ 53 := by
      rw [Nat.length_toDigits_le_iff (by omega) (by omega)]
      omega
    omega
  have hplaces : 2 ^ (e + 52) ≤ n.natAbs := by
    have hshort : ¬ (Nat.toDigits 2 n.natAbs).length ≤ e + 52 := by omega
    rw [Nat.length_toDigits_le_iff (by omega) (by omega)] at hshort
    omega
  have hexponent : max (((e + 52 + 1 : Nat) : Int) - 1 - 52) (-1074) = (e : Int) := by omega
  have hspacing : spacing (n : Rat) = (2 : Rat) ^ e := by
    rw [spacing, magnitude_intCast, leadingPlace_natCast hpos, he, hexponent, Rat.zpow_natCast]
  rw [hspacing]
  calc 2 * (2 : Rat) ^ e = ((2 ^ (e + 1) : Nat) : Rat) := by
        rw [Nat.cast_pow, Nat.cast_ofNat, pow_succ, mul_comm]
    _ ≤ ((2 ^ (e + 52) : Nat) : Rat) := by
        exact_mod_cast Nat.pow_le_pow_right (by omega) (by omega)
    _ ≤ (n.natAbs : Rat) := by exact_mod_cast hplaces

/-! ## Rounding -/

theorem one_le_halfEven {q : Rat} (h : 1 ≤ q) : 1 ≤ halfEven q := by
  have hfloor : 1 ≤ q.floor := Rat.le_floor_iff.2 (by exact_mod_cast h)
  unfold halfEven
  dsimp only
  split_ifs <;> omega

theorem halfEven_le_neg_one {q : Rat} (h : q ≤ -2) : halfEven q ≤ -1 := by
  have hfloor : q.floor ≤ -2 := by
    have hle : (q.floor : Rat) ≤ ((-2 : Int) : Rat) :=
      (Rat.floor_le q).trans (by exact_mod_cast h)
    exact_mod_cast hle
  unfold halfEven
  dsimp only
  split_ifs <;> omega

theorem spacing_pos (q : Rat) : 0 < spacing q := Rat.zpow_pos (by norm_num)

/-- What is rounded from a positive integer is neither zero nor below. -/
theorem nearest_intCast_of_pos {n : Int} (hpos : 0 < n) :
    ¬ nearest (n : Rat) = 0 ∧ ¬ nearest (n : Rat) < 0 := by
  have hsign : (0 : Rat) < n := by exact_mod_cast hpos
  by_cases hsmall : n.natAbs ≤ countLimit
  · rw [nearest_ofInt n hsmall, finite_eq_zero_iff, finite_lt_zero_iff]
    exact ⟨hsign.ne', not_lt.2 hsign.le⟩
  · have habs : (n.natAbs : Rat) = (n : Rat) := by
      rw [← Int.cast_natCast, Int.natAbs_of_nonneg hpos.le]
    have hspacing := two_mul_spacing_le (n := n) (by omega)
    have hunit := spacing_pos (n : Rat)
    have hquotient : 1 ≤ (n : Rat) / spacing n := by
      rw [le_div_iff₀ hunit]
      linarith
    have hrounded : 0 < (halfEven ((n : Rat) / spacing n) : Rat) * spacing n := by
      have hone : (1 : Rat) ≤ halfEven ((n : Rat) / spacing n) := by
        exact_mod_cast one_le_halfEven hquotient
      exact mul_pos (by linarith) hunit
    rw [nearest, if_neg (fun hexact => hsmall hexact.2)]
    dsimp only
    split
    · rw [decide_eq_false (not_lt.2 hsign.le)]
      exact ⟨by rintro ⟨⟩, by decide⟩
    · rw [finite_eq_zero_iff, finite_lt_zero_iff]
      exact ⟨hrounded.ne', not_lt.2 hrounded.le⟩

/-- What is rounded from a negative integer is negative. -/
theorem nearest_intCast_lt_zero {n : Int} (hneg : n < 0) : nearest (n : Rat) < 0 := by
  have hsign : (n : Rat) < 0 := by exact_mod_cast hneg
  by_cases hsmall : n.natAbs ≤ countLimit
  · rwa [nearest_ofInt n hsmall, finite_lt_zero_iff]
  · have habs : (n.natAbs : Rat) = -(n : Rat) := by
      rw [← Int.cast_natCast, Int.ofNat_natAbs_of_nonpos hneg.le, Int.cast_neg]
    have hspacing := two_mul_spacing_le (n := n) (by omega)
    have hunit := spacing_pos (n : Rat)
    have hquotient : (n : Rat) / spacing n ≤ -2 := by
      rw [div_le_iff₀ hunit]
      linarith
    have hrounded : (halfEven ((n : Rat) / spacing n) : Rat) * spacing n < 0 := by
      have hone : (halfEven ((n : Rat) / spacing n) : Rat) ≤ -1 := by
        exact_mod_cast halfEven_le_neg_one hquotient
      exact mul_neg_of_neg_of_pos (by linarith) hunit
    rw [nearest, if_neg (fun hexact => hsmall hexact.2)]
    dsimp only
    split
    · rw [decide_eq_true hsign]
      decide
    · rwa [finite_lt_zero_iff]

/-! ## Differences of counts -/

theorem ofNat_sub_ofNat_eq_nearest (a b : Nat) :
    ofNat a - ofNat b = nearest (((a : Int) - b : Int) : Rat) := by
  show nearest ((a : Rat) + -(b : Rat)) = _
  rw [Int.cast_sub, Int.cast_natCast, Int.cast_natCast, sub_eq_add_neg]

theorem ofNat_sub_eq_zero_iff {a b : Nat} : ofNat a - ofNat b = 0 ↔ a = b := by
  rw [ofNat_sub_ofNat_eq_nearest]
  rcases Nat.lt_trichotomy a b with hlt | rfl | hgt
  · refine iff_of_false (fun hzero => ?_) (by omega)
    have hneg := nearest_intCast_lt_zero (n := (a : Int) - b) (by omega)
    rw [hzero] at hneg
    exact absurd hneg (by decide)
  · rw [Int.sub_self, nearest_ofInt 0 (Nat.zero_le _)]
    exact iff_of_true rfl rfl
  · exact iff_of_false (nearest_intCast_of_pos (by omega)).1 (by omega)

theorem ofNat_sub_lt_zero_iff {a b : Nat} : ofNat a - ofNat b < 0 ↔ a < b := by
  rw [ofNat_sub_ofNat_eq_nearest]
  rcases Nat.lt_trichotomy a b with hlt | rfl | hgt
  · exact iff_of_true (nearest_intCast_lt_zero (by omega)) hlt
  · rw [Int.sub_self, nearest_ofInt 0 (Nat.zero_le _)]
    exact iff_of_false (by decide) (Nat.lt_irrefl a)
  · exact iff_of_false (nearest_intCast_of_pos (by omega)).2 (by omega)

end DisposalAudit.Number
