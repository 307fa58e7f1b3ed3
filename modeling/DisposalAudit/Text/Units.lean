/-!
# UTF-16 units

Lengths, single-character wildcards and the order of file names are
defined over UTF-16 units, not over characters: a character of the first
plane is one unit, any other is a high surrogate and a low one.

A sequence of units may hold half of a character alone, which is no
character. In a text such a half stands as one of the last 2048 characters
of the last plane, and these never stand for themselves: each of them is
held as its two halves. So every sequence of units is the sequence of some
text, and texts that units spell are told apart as the units are.

## Main definitions

* `Text.units`, `Text.ofUnits` — a text as units, and back.
* `Text.width` — length in units.
* `Text.unitsLE` — lexicographic order by units.
* `Text.padLeft` — fills a text up to a width.
* `Text.imported`, `Text.exported` — from and to a text outside of the program.

## Main results

* `Text.units_ofUnits` — a text has the units that spell it.
-/

namespace DisposalAudit.Text

/-! ## Units of a text -/

/-- The first of the characters that stand for halves. -/
def firstHalf : Nat := 0x10F800

/-- Units of a character by its code. -/
def codeUnits (code : Nat) : List UInt16 :=
  if code < 0x10000 then [code.toUInt16]
  else
    let offset := code - 0x10000
    [(0xD800 + offset / 0x400).toUInt16, (0xDC00 + offset % 0x400).toUInt16]

/-- Units of one character. -/
def charUnits (c : Char) : List UInt16 :=
  if c.toNat < firstHalf then codeUnits c.toNat
  else [(0xD800 + (c.toNat - firstHalf)).toUInt16]

/-- Units of a text. -/
def units (text : String) : List UInt16 := text.toList.flatMap charUnits

/-- Length of a text in units. -/
def width (text : String) : Nat := (units text).length

/-! ## Texts of units -/

/-- The first half of a character outside the first plane. -/
def isHigh (u : UInt16) : Bool := 0xD800 ≤ u && u < 0xDC00

/-- The second half of a character outside the first plane. -/
def isLow (u : UInt16) : Bool := 0xDC00 ≤ u && u < 0xE000

/-- The code of the character whose halves are two units. -/
def joined (u v : UInt16) : Nat := 0x10000 + (u.toNat - 0xD800) * 0x400 + (v.toNat - 0xDC00)

/-- The characters that units spell. Two halves make a character if its code
lies below a limit; every other unit is spelt alone. -/
def spell (limit : Nat) (alone : UInt16 → Char) : List UInt16 → List Char
  | [] => []
  | [u] => [alone u]
  | u :: v :: rest =>
    if isHigh u && isLow v && joined u v < limit then
      Char.ofNat (joined u v) :: spell limit alone rest
    else alone u :: spell limit alone (v :: rest)

/-- Whether two characters hold the halves of one. -/
def areHalves (c d : Char) : Bool :=
  match charUnits c, charUnits d with
  | [u], [v] => isHigh u && isLow v
  | _, _ => false

/-- The character that holds one unit. -/
def single (u : UInt16) : Char :=
  if isHigh u || isLow u then Char.ofNat (firstHalf + (u.toNat - 0xD800)) else Char.ofNat u.toNat

/-- The text that units spell. -/
def ofUnits (us : List UInt16) : String := String.ofList (spell firstHalf single us)

theorem isHigh_iff (u : UInt16) : isHigh u = true ↔ 0xD800 ≤ u.toNat ∧ u.toNat < 0xDC00 := by
  simp [isHigh, UInt16.le_iff_toNat_le, UInt16.lt_iff_toNat_lt]

theorem isLow_iff (u : UInt16) : isLow u = true ↔ 0xDC00 ≤ u.toNat ∧ u.toNat < 0xE000 := by
  simp [isLow, UInt16.le_iff_toNat_le, UInt16.lt_iff_toNat_lt]

theorem toNat_ofNat_of_isValidChar {n : Nat} (h : n.isValidChar) : (Char.ofNat n).toNat = n := by
  rw [Char.ofNat, dif_pos h]
  rfl

theorem charUnits_single (u : UInt16) : charUnits (single u) = [u] := by
  have hu : u.toNat < 65536 := u.toNat_lt
  have hunit : u.toNat.toUInt16 = u := UInt16.ofNat_toNat
  by_cases hhalf : (isHigh u || isLow u) = true
  · -- a half is held as the character at its place behind the first one
    have hrange : 0xD800 ≤ u.toNat ∧ u.toNat < 0xE000 := by
      rw [Bool.or_eq_true, isHigh_iff, isLow_iff] at hhalf
      omega
    have hvalid : (firstHalf + (u.toNat - 0xD800)).isValidChar :=
      .inr ⟨by simp only [firstHalf]; omega, by simp only [firstHalf]; omega⟩
    have hplace : 0xD800 + (firstHalf + (u.toNat - 0xD800) - firstHalf) = u.toNat := by omega
    rw [single, if_pos hhalf, charUnits, toNat_ofNat_of_isValidChar hvalid,
      if_neg (by omega), hplace, hunit]
  · have hrange : u.toNat < 0xD800 ∨ 0xE000 ≤ u.toNat := by
      rw [Bool.or_eq_true, isHigh_iff, isLow_iff] at hhalf
      omega
    have hvalid : u.toNat.isValidChar := by
      rcases hrange with hbelow | habove
      · exact .inl hbelow
      · exact .inr ⟨by omega, by omega⟩
    rw [single, if_neg hhalf, charUnits, toNat_ofNat_of_isValidChar hvalid,
      if_pos (by simp only [firstHalf]; omega), codeUnits, if_pos (by omega), hunit]

theorem charUnits_joined {u v : UInt16} (hu : isHigh u = true) (hv : isLow v = true)
    (hlimit : joined u v < firstHalf) : charUnits (Char.ofNat (joined u v)) = [u, v] := by
  rw [isHigh_iff] at hu
  rw [isLow_iff] at hv
  obtain ⟨n, hn⟩ : ∃ n, n = joined u v := ⟨_, rfl⟩
  have hcode : n = 0x10000 + (u.toNat - 0xD800) * 0x400 + (v.toNat - 0xDC00) := hn
  rw [← hn] at hlimit ⊢
  have hvalid : n.isValidChar := .inr ⟨by omega, by simp only [firstHalf] at hlimit; omega⟩
  have hhigh : 0xD800 + (n - 0x10000) / 0x400 = u.toNat := by omega
  have hlow : 0xDC00 + (n - 0x10000) % 0x400 = v.toNat := by omega
  rw [charUnits, toNat_ofNat_of_isValidChar hvalid, if_pos hlimit, codeUnits, if_neg (by omega)]
  dsimp only
  rw [hhigh, hlow]
  simp only [Nat.toUInt16_eq, UInt16.ofNat_toNat]

theorem flatMap_charUnits_spell (us : List UInt16) :
    (spell firstHalf single us).flatMap charUnits = us := by
  fun_induction spell firstHalf single us with
  | case1 => rfl
  | case2 u => rw [List.flatMap_singleton, charUnits_single]
  | case3 u v rest hpair ih =>
      simp only [Bool.and_eq_true, decide_eq_true_eq] at hpair
      rw [List.flatMap_cons, ih, charUnits_joined hpair.1.1 hpair.1.2 hpair.2]
      rfl
  | case4 u v rest hpair ih =>
      rw [List.flatMap_cons, ih, charUnits_single]
      rfl

/-- **Spelling loses nothing.** A text has the units that spell it, halves of
characters included. -/
theorem units_ofUnits (us : List UInt16) : units (ofUnits us) = us := by
  rw [units, ofUnits, String.toList_ofList, flatMap_charUnits_spell]

example : ofUnits [0xD800] ≠ ofUnits [0xD801] := by decide

/-! ## Order and filling -/

/-- Lexicographic order of unit lists. -/
def listLE : List UInt16 → List UInt16 → Bool
  | [], _ => true
  | _ :: _, [] => false
  | u :: us, v :: vs => u < v || (u == v && listLE us vs)

/-- Lexicographic order of texts by their units. A character outside the
first plane comes before the last characters of the first plane. -/
def unitsLE (s t : String) : Bool := listLE (units s) (units t)

/-- A text filled up on the left until it is `count` units wide. -/
def padLeft (count : Nat) (fill : Char) (text : String) : String :=
  String.ofList (List.replicate (count - width text) fill) ++ text

/-! ## Texts outside -/

/-- A text that comes from outside, with the last characters as halves. -/
def imported (text : String) : String :=
  String.ofList (text.toList.flatMap fun c =>
    if c.toNat < firstHalf then [c] else (codeUnits c.toNat).map single)

/-- A text as it is put outside. Halves that make a character are joined, and
a half that is alone is replaced. -/
def exported (text : String) : String :=
  String.ofList (spell 0x110000
    (fun u => if isHigh u || isLow u then '\uFFFD' else Char.ofNat u.toNat) (units text))

end DisposalAudit.Text
