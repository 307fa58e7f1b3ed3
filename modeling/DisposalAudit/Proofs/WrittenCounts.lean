import DisposalAudit.Proofs.RoundedSigns
import DisposalAudit.Proofs.WrittenJson

/-!
# The numerals of counts

Whatever the layout of a numeral, JSON can read it as long as its digits begin
with one that is not zero. The digits of a count do: the shortest numeral of a
number that is at least as great as the spacing around it does not stand for
zero, and its last zeros alone are dropped.

## Main results

* `Number.number?_layout` — a layout of digits has the form of a number.
* `Number.shortest_pos` — the shortest numeral has a digit that is not zero.
* `Number.isWord_number_ofNat` — counts have numerals.
-/

namespace DisposalAudit.Number

open Json

/-! ## Layouts -/

/-- Digits, of which the first is not zero. -/
structure Leads (digits : List Char) : Prop where
  isDigit : ∀ c ∈ digits, c.isDigit = true
  first : ∃ c more, digits = c :: more ∧ c ≠ '0'

theorem isPlain_of_isDigit {c : Char} (h : c.isDigit = true) : isPlain c = true := by
  have hne {d : Char} (hd : d.isDigit = false) : c ≠ d := by
    rintro rfl
    rw [h] at hd
    cases hd
  have hpunctuation : punctuation? c = none := by
    unfold punctuation?
    split <;> first | rfl | exact nomatch h
  simp [isPlain, isSpace, hpunctuation, hne (d := '"') rfl, hne (d := ' ') rfl,
    hne (d := '\t') rfl, hne (d := '\n') rfl, hne (d := '\r') rfl]

section Layouts

variable {digits : List Char}

/-- Digits in front of something else are taken as they are. -/
theorem takeWhile_digits (h : ∀ c ∈ digits, c.isDigit = true) {rest : List Char}
    (hrest : ∀ c more, rest = c :: more → c.isDigit = false) :
    (digits ++ rest).takeWhile Char.isDigit = digits ∧
      (digits ++ rest).dropWhile Char.isDigit = rest := by
  have hstop : rest.takeWhile Char.isDigit = [] ∧ rest.dropWhile Char.isDigit = rest := by
    cases rest with
    | nil => exact ⟨rfl, rfl⟩
    | cons c more =>
        have hc := hrest c more rfl
        exact ⟨by rw [List.takeWhile_cons, hc]; rfl, by rw [List.dropWhile_cons, hc]; rfl⟩
  rw [List.takeWhile_append_of_pos h, List.dropWhile_append_of_pos h, hstop.1, hstop.2,
    List.append_nil]
  exact ⟨rfl, rfl⟩

theorem splitSign_of_isDigit {c : Char} (h : c.isDigit = true) (rest : List Char) :
    Numeral.splitSign (c :: rest) = (none, c :: rest) := by
  unfold Numeral.splitSign
  split
  · next heq =>
      obtain rfl := (List.cons.inj heq).1
      exact nomatch h
  · next heq =>
      obtain rfl := (List.cons.inj heq).1
      exact nomatch h
  · rfl

/-- What may stand behind the digits of a numeral: nothing, or an exponent. -/
structure IsTail (tail : List Char) : Prop where
  isSome : (Numeral.readExponent tail).isSome = true
  stops : ∀ c more, tail = c :: more → c.isDigit = false ∧ c ≠ '.'

theorem isTail_nil : IsTail [] := ⟨rfl, fun _ _ h => nomatch h⟩

theorem isTail_exponent {sign : Char} (hsign : sign = '+' ∨ sign = '-') (n : Nat) :
    IsTail ('e' :: sign :: Nat.toDigits 10 n) := by
  have hdigits : (Nat.toDigits 10 n).all Char.isDigit = true :=
    List.all_eq_true.2 fun c hc => Nat.isDigit_of_mem_toDigits (by decide) (by decide) hc
  have hne : Nat.toDigits 10 n ≠ [] := List.ne_nil_of_length_pos Nat.length_toDigits_pos
  refine ⟨?_, fun c more h => ?_⟩
  · rcases hsign with rfl | rfl <;>
      simp [Numeral.readExponent, Numeral.splitSign, hne, hdigits]
  · obtain rfl := (List.cons.inj h).1
    exact ⟨rfl, by decide⟩

/-- The whole part of a numeral in JSON's form. -/
structure IsWhole (whole : List Char) : Prop where
  isDigit : ∀ c ∈ whole, c.isDigit = true
  ne_nil : whole ≠ []
  zero : whole.head? = some '0' → whole.length = 1

theorem IsWhole.of_leads (h : Leads digits) {more : List Char}
    (hmore : ∀ c ∈ more, c.isDigit = true) : IsWhole (digits ++ more) := by
  obtain ⟨c, rest, rfl, hc⟩ := h.first
  refine ⟨fun d hd => ?_, List.cons_ne_nil _ _, fun hhead => ?_⟩
  · exact (List.mem_append.1 hd).elim (h.isDigit d) (hmore d)
  · exact absurd (Option.some.inj hhead) hc

variable {whole tail : List Char}

theorem splitSign_whole (hwhole : IsWhole whole) (rest : List Char) :
    Numeral.splitSign (whole ++ rest) = (none, whole ++ rest) := by
  obtain ⟨c, more, rfl⟩ := List.exists_cons_of_ne_nil hwhole.ne_nil
  exact splitSign_of_isDigit (hwhole.isDigit c List.mem_cons_self) _

/-- A numeral without a fraction. -/
theorem number?_whole (hwhole : IsWhole whole) (htail : IsTail tail) :
    (number? (whole ++ tail)).isSome = true := by
  obtain ⟨exponent, hexponent⟩ := Option.isSome_iff_exists.1 htail.isSome
  obtain ⟨htake, hdrop⟩ := takeWhile_digits hwhole.isDigit fun c more h => (htail.stops c more h).1
  have hnumeral : Numeral.ofChars? (whole ++ tail) = some ⟨none, whole, none, exponent⟩ := by
    rw [Numeral.ofChars?, splitSign_whole hwhole]
    dsimp only
    rw [htake, hdrop]
    split
    · next rest => exact absurd rfl (htail.stops '.' rest rfl).2
    · rw [hexponent, Option.map_some]
  rw [number?, hnumeral, Option.bind_some, if_pos ⟨by simp, hwhole.ne_nil, by simp, hwhole.zero⟩]
  rfl

/-- A numeral with a fraction. -/
theorem number?_fraction (hwhole : IsWhole whole) {fraction : List Char}
    (hfraction : ∀ c ∈ fraction, c.isDigit = true) (hne : fraction ≠ []) (htail : IsTail tail) :
    (number? (whole ++ '.' :: (fraction ++ tail))).isSome = true := by
  obtain ⟨exponent, hexponent⟩ := Option.isSome_iff_exists.1 htail.isSome
  have hpoint (c : Char) (more : List Char) (h : '.' :: (fraction ++ tail) = c :: more) :
      c.isDigit = false := by
    rw [← (List.cons.inj h).1]
    rfl
  obtain ⟨htake, hdrop⟩ := takeWhile_digits hwhole.isDigit hpoint
  obtain ⟨htake', hdrop'⟩ := takeWhile_digits hfraction fun c more h => (htail.stops c more h).1
  have hnumeral : Numeral.ofChars? (whole ++ '.' :: (fraction ++ tail)) =
      some ⟨none, whole, some fraction, exponent⟩ := by
    rw [Numeral.ofChars?, splitSign_whole hwhole]
    dsimp only
    rw [htake, hdrop]
    show (Numeral.readExponent ((fraction ++ tail).dropWhile Char.isDigit)).map (fun exponent =>
      (⟨none, whole, some ((fraction ++ tail).takeWhile Char.isDigit), exponent⟩ : Numeral)) = _
    rw [htake', hdrop', hexponent, Option.map_some]
  rw [number?, hnumeral, Option.bind_some,
    if_pos ⟨by simp, hwhole.ne_nil, by simpa using hne, hwhole.zero⟩]
  rfl

theorem isDigit_of_mem_zeros {n : Nat} {c : Char} (hc : c ∈ List.replicate n '0') :
    c.isDigit = true := by
  rw [List.eq_of_mem_replicate hc]
  rfl

theorem Leads.single {c : Char} {rest : List Char} (h : Leads (c :: rest)) : Leads [c] := by
  obtain ⟨d, more, hsplit, hd⟩ := h.first
  refine ⟨fun e he => ?_, c, [], rfl, (List.cons.inj hsplit).1 ▸ hd⟩
  rw [List.mem_singleton.1 he]
  exact h.isDigit c List.mem_cons_self

/-- Digits with a point between them. -/
theorem number?_pointed (h : Leads digits) {k : Nat} (hlong : k + 1 < digits.length) :
    (number? (digits.take (k + 1) ++ '.' :: digits.drop (k + 1))).isSome = true := by
  obtain ⟨c, rest, rfl, -⟩ := h.first
  have hdigit (d : Char) (hd : d ∈ rest) : d.isDigit = true :=
    h.isDigit d (List.mem_cons_of_mem c hd)
  have hfront : IsWhole (c :: rest.take k) :=
    .of_leads h.single fun d hd => hdigit d (List.mem_of_mem_take hd)
  have hback : rest.drop k ≠ [] := by
    rw [List.length_cons] at hlong
    exact List.ne_nil_of_length_pos (by rw [List.length_drop]; omega)
  rw [List.take_succ_cons, List.drop_succ_cons, ← List.append_nil (rest.drop k)]
  exact number?_fraction hfront (fun d hd => hdigit d (List.mem_of_mem_drop hd)) hback isTail_nil

/-- Digits behind a point and zeros. -/
theorem number?_small (hdigits : ∀ c ∈ digits, c.isDigit = true) (hne : digits ≠ [])
    (zeros : Nat) :
    (number? ('0' :: '.' :: List.replicate zeros '0' ++ digits)).isSome = true := by
  have hzero : IsWhole ['0'] := ⟨by simp [Char.isDigit], by simp, fun _ => rfl⟩
  have hfraction : ∀ d ∈ List.replicate zeros '0' ++ digits, d.isDigit = true :=
    fun d hd => (List.mem_append.1 hd).elim isDigit_of_mem_zeros (hdigits d)
  have hform := number?_fraction hzero hfraction (by simp [hne]) isTail_nil
  rw [List.append_nil] at hform
  exact hform

/-- **A layout of digits has the form of a number.** -/
theorem number?_layout (h : Leads digits) (point : Int) :
    (number? (layout digits point)).isSome = true := by
  unfold layout
  dsimp only
  split
  · -- zeros behind the digits
    rw [← List.append_nil (_ ++ _)]
    exact number?_whole (.of_leads h fun _ => isDigit_of_mem_zeros) isTail_nil
  split
  · next hwhole hpoint =>
      obtain ⟨k, hk⟩ : ∃ k, point.toNat = k + 1 := ⟨point.toNat - 1, by omega⟩
      rw [hk]
      exact number?_pointed h (by omega)
  obtain ⟨c, rest, rfl, -⟩ := h.first
  split
  · exact number?_small h.isDigit (List.cons_ne_nil c rest) _
  · -- an exponent behind one digit, or behind one digit, a point and the others
    have hone : IsWhole ([c] ++ []) := .of_leads h.single (by simp)
    have hsign : (if point - 1 < 0 then '-' else '+') = '+' ∨
        (if point - 1 < 0 then '-' else '+') = '-' := by
      split <;> simp
    have htail := isTail_exponent hsign (point - 1).natAbs
    cases rest with
    | nil => exact number?_whole hone htail
    | cons d more =>
        exact number?_fraction hone (fun e he => h.isDigit e (List.mem_cons_of_mem c he)) (by simp)
          htail

/-- No character of a layout ends a word. -/
theorem isPlain_of_mem_layout (h : ∀ c ∈ digits, c.isDigit = true) (point : Int) {c : Char}
    (hc : c ∈ layout digits point) : isPlain c = true := by
  have hdigit {d : Char} (hd : d ∈ digits) : isPlain d = true := isPlain_of_isDigit (h d hd)
  have hzeros {n : Nat} {d : Char} (hd : d ∈ List.replicate n '0') : isPlain d = true :=
    isPlain_of_isDigit (isDigit_of_mem_zeros hd)
  unfold layout at hc
  dsimp only at hc
  split at hc
  · exact (List.mem_append.1 hc).elim hdigit hzeros
  split at hc
  · rcases List.mem_append.1 hc with hfront | hback
    · exact hdigit (List.mem_of_mem_take hfront)
    · rcases List.mem_cons.1 hback with rfl | hback
      · rfl
      · exact hdigit (List.mem_of_mem_drop hback)
  split at hc
  · rcases List.mem_cons.1 hc with rfl | hc
    · rfl
    rcases List.mem_cons.1 hc with rfl | hc
    · rfl
    exact (List.mem_append.1 hc).elim hzeros hdigit
  · rcases List.mem_append.1 hc with hfront | hback
    · rcases digits with _ | ⟨d, _ | ⟨e, more⟩⟩
      · exact nomatch hfront
      · exact hdigit hfront
      · simp only [List.mem_cons] at hfront
        rcases hfront with rfl | rfl | hfront
        · exact hdigit List.mem_cons_self
        · rfl
        · exact hdigit (by simp [hfront])
    · rcases List.mem_cons.1 hback with rfl | hback
      · rfl
      rcases List.mem_cons.1 hback with rfl | hback
      · split <;> rfl
      exact isPlain_of_isDigit (Nat.isDigit_of_mem_toDigits (by decide) (by decide) hback)

end Layouts

/-! ## The digits -/

/-- The digits of a number that is not zero begin with one that is not. -/
theorem leads_toDigits (d : Nat) (hd : 0 < d) : Leads (Nat.toDigits 10 d) := by
  refine ⟨fun c hc => Nat.isDigit_of_mem_toDigits (by decide) (by decide) hc, ?_⟩
  induction d using Nat.strongRecOn with
  | ind d ih =>
      by_cases hsmall : d < 10
      · rw [Nat.toDigits_of_lt_base hsmall]
        refine ⟨_, _, rfl, ?_⟩
        have hall : ∀ d : Fin 10, 0 < d.val → Nat.digitChar d ≠ '0' := by decide
        exact hall ⟨d, hsmall⟩ hd
      · obtain ⟨c, more, hdigits, hc⟩ := ih (d / 10) (by omega) (by omega)
        rw [Nat.toDigits_of_base_le (by decide) (by omega), hdigits]
        exact ⟨c, _, rfl, hc⟩

/-- It still does without the zeros at their end. -/
theorem Leads.dropTrailingZeros {digits : List Char} (h : Leads digits) :
    Leads (dropTrailingZeros digits).1 := by
  obtain ⟨c, rest, rfl, hc⟩ := h.first
  have hmem : ∀ d ∈ (Number.dropTrailingZeros (c :: rest)).1, d.isDigit = true :=
    fun d hd => h.isDigit d (List.mem_of_mem_take hd)
  refine ⟨hmem, ?_⟩
  -- the first digit is not among the zeros, so fewer than all are dropped
  have hfewer : ((c :: rest).reverse.takeWhile (· == '0')).length < (c :: rest).length := by
    have hreverse : (c :: rest).reverse.length = (c :: rest).length := List.length_reverse
    rw [← hreverse]
    refine Nat.lt_of_le_of_ne (List.takeWhile_prefix _).length_le fun hall => ?_
    have heq : (c :: rest).reverse.takeWhile (· == '0') = (c :: rest).reverse :=
      (List.takeWhile_prefix _).eq_of_length hall
    have hzeros := List.all_takeWhile (p := (· == '0')) (l := (c :: rest).reverse)
    rw [heq, List.all_eq_true] at hzeros
    exact hc (beq_iff_eq.1 (hzeros c (List.mem_reverse.2 List.mem_cons_self)))
  rw [Number.dropTrailingZeros]
  dsimp only
  obtain ⟨k, hk⟩ : ∃ k, (c :: rest).length -
      ((c :: rest).reverse.takeWhile (· == '0')).length = k + 1 :=
    ⟨_, (Nat.succ_pred_eq_of_pos (Nat.sub_pos_of_lt hfewer)).symm⟩
  rw [hk]
  exact ⟨c, rest.take k, rfl, hc⟩

/-! ## The shortest numeral -/

section Shortest

variable {datum : Rat}

/-- Zero does not read back to a number that is as great as the spacing around
it. -/
theorem pos_of_readsBackTo {q : Rat} (hspacing : spacing datum ≤ datum)
    (h : readsBackTo datum q = true) : 0 < q := by
  have hunit := spacing_pos datum
  have hlower : 0 < datum - spacing datum / 2 := by linarith
  have hquarter : 0 < datum - spacing datum / 4 := by linarith
  have hends : datum - spacing datum / 4 ≤ q ∨ datum - spacing datum / 2 ≤ q := by
    simp only [readsBackTo] at h
    split at h
    · simp only [decide_eq_true_eq] at h
      split at h
      · exact .inl h.1
      · exact .inr h.1
    · simp only [decide_eq_true_eq] at h
      split at h
      · exact .inl h.1.le
      · exact .inr h.1.le
  rcases hends with hend | hend
  · exact lt_of_lt_of_le hquarter hend
  · exact lt_of_lt_of_le hlower hend

theorem neighbour?_pos {step : Rat} (hspacing : spacing datum ≤ datum) (hstep : 0 < step)
    {d : Nat} (h : neighbour? datum step = some d) : 0 < d := by
  have hfits (n : Int) (hn : readsBackTo datum ((n : Rat) * step) = true) : 0 < n := by
    have hpos := pos_of_readsBackTo hspacing hn
    exact_mod_cast pos_of_mul_pos_left hpos hstep.le
  rw [neighbour?] at h
  dsimp only at h
  split at h
  · next hlow _ =>
      have hfloor : ((1 : Int) : Rat) ≤ datum / step := Rat.le_floor_iff.1 (hfits _ hlow)
      have hhalf := one_le_halfEven (by exact_mod_cast hfloor)
      obtain rfl := Option.some.inj h
      omega
  · next hlow _ =>
      have := hfits _ hlow
      obtain rfl := Option.some.inj h
      omega
  · next hhigh =>
      have := hfits _ hhigh
      obtain rfl := Option.some.inj h
      omega
  · exact nomatch h

/-- **The shortest numeral does not stand for zero.** -/
theorem shortest_pos (hspacing : spacing datum ≤ datum) (hone : 1 ≤ datum) :
    0 < (shortest datum).1 := by
  rw [shortest]
  dsimp only
  cases hfound : (List.range 17).findSome? fun count : Nat =>
      (neighbour? datum ((10 : Rat) ^ (leadingPlace 10 datum - count))).map fun d =>
        (d, leadingPlace 10 datum - count) with
  | none =>
      have hfloor : (1 : Int) ≤ datum.floor := Rat.le_floor_iff.2 (by exact_mod_cast hone)
      show 0 < datum.floor.toNat
      omega
  | some found =>
      obtain ⟨count, -, hcount⟩ := List.exists_of_findSome?_eq_some hfound
      obtain ⟨d, hd, rfl⟩ := Option.map_eq_some_iff.1 hcount
      exact neighbour?_pos hspacing (Rat.zpow_pos (by norm_num)) hd

end Shortest

/-- The spacing around a count is no greater than the count. -/
theorem spacing_natCast_le {n : Nat} (hpos : 0 < n) : spacing (n : Rat) ≤ n := by
  obtain ⟨e, he⟩ : ∃ e, (Nat.toDigits 2 n).length = e + 1 :=
    ⟨_, (Nat.succ_pred_eq_of_pos Nat.length_toDigits_pos).symm⟩
  have hplaces : 2 ^ e ≤ n := by
    rcases Nat.eq_zero_or_pos e with rfl | he'
    · exact hpos
    · have hshort : ¬ (Nat.toDigits 2 n).length ≤ e := by omega
      rwa [Nat.length_toDigits_le_iff (by omega) (by omega), Nat.not_lt] at hshort
  have hmagnitude : magnitude (n : Rat) = n := magnitude_intCast n
  have hexponent : max (((e + 1 : Nat) : Int) - 1 - 52) (-1074) ≤ (e : Int) := by omega
  rw [spacing, hmagnitude, leadingPlace_natCast hpos, he]
  calc (2 : Rat) ^ max (((e + 1 : Nat) : Int) - 1 - 52) (-1074)
      ≤ (2 : Rat) ^ (e : Int) := zpow_le_zpow_right₀ (by norm_num) hexponent
    _ = ((2 ^ e : Nat) : Rat) := by rw [Rat.zpow_natCast, Nat.cast_pow, Nat.cast_ofNat]
    _ ≤ n := by exact_mod_cast hplaces

/-- **Counts have numerals**, which JSON reads. -/
theorem isWord_number_ofNat (n : Nat) : IsWord (number (.ofNat n)).toList := by
  rcases Nat.eq_zero_or_pos n with rfl | hpos
  · exact ⟨by decide, List.all_eq_true.1 rfl, rfl⟩
  have hzero : ¬ ((n : Rat) = 0) := by exact_mod_cast hpos.ne'
  have hsign : ¬ ((n : Rat) < 0) := not_lt.2 (by exact_mod_cast hpos.le)
  have hmagnitude : magnitude (n : Rat) = n := magnitude_intCast n
  have hdigits := shortest_pos (spacing_natCast_le hpos) (by exact_mod_cast hpos)
  have hleads := (leads_toDigits _ hdigits).dropTrailingZeros
  obtain ⟨point, htext⟩ : ∃ point, (number (.ofNat n)).toList =
      layout (dropTrailingZeros (Nat.toDigits 10 (shortest (n : Rat)).1)).1 point := by
    rw [Number.ofNat, Json.number, Number.text]
    dsimp only
    rw [if_neg hzero, if_neg hsign, hmagnitude, String.toList_ofList]
    exact ⟨_, rfl⟩
  rw [htext]
  have hnumber := number?_layout hleads point
  refine ⟨?_, fun c hc => isPlain_of_mem_layout hleads.isDigit point hc, ?_⟩
  · intro hnil
    rw [hnil] at hnumber
    exact absurd hnumber (by decide)
  · unfold word?
    split_ifs <;> first | rfl | rwa [Option.isSome_map]

end DisposalAudit.Number
