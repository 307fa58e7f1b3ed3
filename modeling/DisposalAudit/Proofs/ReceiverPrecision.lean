import DisposalAudit.Proofs.BodyValidity
import DisposalAudit.Proofs.ReceiverSoundness
import DisposalAudit.Proofs.RoundedSigns
import Mathlib.Order.Bounds.Defs

/-!
# Receivers in straight-line code

How far the backward walk can see is limited by the code: it goes back to
the last place where control may come from elsewhere. From there on the code
can be executed forward without knowing anything about the stack, by keeping
for each value the instruction that pushed it. Here the walk is compared
with that execution. It names an instruction whenever the execution does,
and it gives up only where the value was on the stack before, or is not the
deepest one of those pushed with it.

The comparison needs that the count of pending values is not spoilt by
rounding. Beyond `2 ^ 53` it can be, and then the walk may name the wrong
instruction.

## Main definitions

* `Layout`, `Method.layout?` — the stack as known from executing a stretch.
* `Method.RunsStraight` — a stretch that control comes into at its first
  instruction only.
* `CountsExactly` — the count of pending values is not rounded.

## Main results

* `producerBefore?_eq_producer?` — the walk finds the origin of a value.
* `Method.producer?_precise` — the same for a receiver, and when the walk
  gives up.
* `clearedMethod_producer?` — a body in which the walk passes over the
  instance.
-/

namespace DisposalAudit

/-! ## Symbolic execution -/

/-- Where a value on the stack is from. -/
inductive Origin where
  /-- It was on the stack before, so many values below the top. -/
  | before (depth : Nat)
  /-- An instruction pushed it, above so many values of the same
  execution. -/
  | pushed (source rank : Nat)
  deriving DecidableEq

/-- The instruction that pushed a value as the deepest of its values. -/
def Origin.producer? : Origin → Option Nat
  | pushed source 0 => some source
  | _ => none

/-- The origins of the values on a stack of unlimited depth, from the top. -/
abbrev Layout := Nat → Origin

namespace Layout

/-- Nothing has been executed yet. -/
def initial : Layout := Origin.before

/-- The layout after an instruction. -/
def after (layout : Layout) (source pop push : Nat) : Layout := fun depth =>
  if depth < push then .pushed source (push - 1 - depth) else layout (depth - push + pop)

end Layout

namespace Method

/-- The layout after so many instructions, executed one after the other from
a position on. An instruction whose counts are not natural numbers cannot be
executed. -/
def layout? (m : Method) (first : Nat) : Nat → Option Layout
  | 0 => some .initial
  | count + 1 => do
    let layout ← m.layout? first count
    let ins ← m.body[first + count]?
    let pop ← ins.popCount?
    let push ← ins.pushCount?
    return layout.after (first + count) pop push

/-- Whether some instruction jumps to a position. -/
def isTarget (m : Method) (index : Nat) : Bool :=
  (m.body[index]?).any fun ins => m.branchTargets.contains ins.offset

/-- Whether control falls through the instruction at a position. -/
def fallsThrough (m : Method) (index : Nat) : Bool :=
  (m.body[index]?).any fun ins => ins.flow.fallsThrough

/-- The code between two positions is only ever entered at the first, and
control runs through all of it to the last. -/
structure RunsStraight (m : Method) (first last : Nat) : Prop where
  le : first ≤ last
  not_isTarget : ∀ index ≤ last, first < index → m.isTarget index = false
  fallsThrough : ∀ index < last, first ≤ index → m.fallsThrough index = true

end Method

/-! ## Exact counts -/

/-- The count of pending values, made with numbers, remains the depth of the
value behind each instruction that the value lies below. -/
def CountsExactly (depth : Nat) : List Instruction → Prop
  | [] => True
  | ins :: earlier =>
    match ins.popCount?, ins.pushCount? with
    | some pop, some push =>
      push < depth →
        Number.ofNat depth - .ofNat push + .ofNat pop = .ofNat (depth - push + pop) ∧
          CountsExactly (depth - push + pop) earlier
    | _, _ => True

namespace Method

theorem stretch_succ_of_none {m : Method} {first index : Nat} (hnone : m.body[index]? = none) :
    m.stretch first (index + 1) = m.stretch first index := by
  rw [stretch, List.take_add_one, hnone, Option.toList_none, List.append_nil, stretch]

/-- As long as the counts stay in range, nothing is rounded. -/
theorem countsExactly_of_range {m : Method} {first : Nat} :
    ∀ (count depth : Nat), depth + m.countBefore (first + count) ≤ Number.countLimit →
      CountsExactly depth (m.stretch first (first + count)) := by
  intro count
  induction count with
  | zero =>
      intro depth _
      rw [Nat.add_zero, stretch_self]
      trivial
  | succ count ih =>
      intro depth hrange
      rw [← Nat.add_assoc] at hrange ⊢
      cases hins : m.body[first + count]? with
      | none =>
          rw [stretch_succ_of_none hins]
          exact ih depth (by simp only [countBefore] at hrange; omega)
      | some ins =>
          rw [stretch_succ hins (Nat.le_add_right first count), CountsExactly]
          cases hpop : ins.popCount? with
          | none => trivial
          | some pop =>
              cases hpush : ins.pushCount? with
              | none => trivial
              | some push =>
                  simp only [countBefore, hins, Option.bind_some, hpop, hpush,
                    Option.getD_some] at hrange
                  intro hbelow
                  refine ⟨?_, ih _ (by omega)⟩
                  rw [Number.ofNat_sub_ofNat (by omega) (by omega)]
                  exact Number.finite_add_ofNat (by omega) (by omega)

end Method

/-! ## The walk -/

theorem Instruction.exists_effect_of_popCount? {ins : Instruction} {pop : Nat}
    (h : ins.popCount? = some pop) :
    ∃ effect, ins.stackEffect? = some effect ∧ effect.pop = .ofNat pop := by
  obtain ⟨effect, heffect, hpop⟩ := Option.bind_eq_some_iff.1 h
  exact ⟨effect, heffect, Number.toNat?_eq_some_iff.1 hpop⟩

namespace Method

theorem isTarget_eq {m : Method} {index : Nat} {ins : Instruction}
    (hins : m.body[index]? = some ins) :
    m.isTarget index = m.branchTargets.contains ins.offset := by
  rw [isTarget, hins, Option.any_some]

theorem fallsThrough_eq {m : Method} {index : Nat} {ins : Instruction}
    (hins : m.body[index]? = some ins) : m.fallsThrough index = ins.flow.fallsThrough := by
  rw [fallsThrough, hins, Option.any_some]

theorem RunsStraight.pred {m : Method} {index last : Nat} (h : m.RunsStraight (index + 1) last)
    (htarget : m.isTarget (index + 1) = false) (hfalls : m.fallsThrough index = true) :
    m.RunsStraight index last where
  le := Nat.le_of_succ_le h.le
  not_isTarget other hle hlt := by
    rcases Nat.eq_or_lt_of_le (Nat.succ_le_of_lt hlt) with rfl | hbehind
    · exact htarget
    · exact h.not_isTarget other hle hbehind
  fallsThrough other hlt hle := by
    rcases Nat.eq_or_lt_of_le hle with rfl | hbehind
    · exact hfalls
    · exact h.fallsThrough other hlt hbehind

/-- The layout after one more instruction. -/
theorem layout?_succ_eq_some {m : Method} {first count : Nat} {layout : Layout}
    (h : m.layout? first (count + 1) = some layout) :
    ∃ earlier ins pop push, m.layout? first count = some earlier ∧
      m.body[first + count]? = some ins ∧ ins.popCount? = some pop ∧
      ins.pushCount? = some push ∧ layout = earlier.after (first + count) pop push := by
  simp only [layout?, bind, Option.bind_eq_some_iff, pure, Option.some.injEq] at h
  obtain ⟨earlier, hearlier, ins, hins, pop, hpop, push, hpush, rfl⟩ := h
  exact ⟨earlier, ins, pop, push, hearlier, hins, hpop, hpush, rfl⟩

end Method

/-- The walk stops where the stretch cannot be made longer. -/
theorem producerBefore?_eq_none_of_isLeast {m : Method} {first last : Nat} {pending : Number}
    {consumer : Instruction} (hfirst : IsLeast {start | m.RunsStraight start last} first)
    (hconsumer : m.body[first]? = some consumer) :
    producerBefore? m.branchTargets pending consumer (m.body.take first).reverse = none := by
  cases first with
  | zero => rfl
  | succ index =>
      obtain ⟨hstraight, hleast⟩ := hfirst
      obtain ⟨producer, hproducer⟩ : ∃ producer, m.body[index]? = some producer := by
        obtain ⟨hbound, -⟩ := List.getElem?_eq_some_iff.1 hconsumer
        exact ⟨_, List.getElem?_eq_getElem (Nat.lt_of_succ_lt hbound)⟩
      have hstop : ¬ (m.isTarget (index + 1) = false ∧ m.fallsThrough index = true) := by
        rintro ⟨htarget, hfalls⟩
        exact Nat.not_succ_le_self index (hleast (hstraight.pred htarget hfalls))
      rw [Method.isTarget_eq hconsumer, Method.fallsThrough_eq hproducer] at hstop
      rw [Method.reverse_take_succ hproducer, producerBefore?]
      by_cases htarget : m.branchTargets.contains consumer.offset = true
      · rw [if_pos htarget]
      · rw [if_neg htarget, if_pos]
        rw [Bool.not_eq_true] at htarget
        simpa using fun hfalls => hstop ⟨htarget, hfalls⟩

/-- One step of the walk inside a stretch, by what the step does to the
depth of the value. -/
theorem producerBefore?_step {m : Method} {index depth pop push : Nat}
    {consumer producer : Instruction} (hconsumer : m.body[index + 1]? = some consumer)
    (hproducer : m.body[index]? = some producer)
    (htarget : m.isTarget (index + 1) = false) (hfalls : m.fallsThrough index = true)
    (hpop : producer.popCount? = some pop) (hpush : producer.pushCount? = some push) :
    producerBefore? m.branchTargets (.ofNat depth) consumer (m.body.take (index + 1)).reverse =
      if depth = push then some index
      else if depth < push then none
      else producerBefore? m.branchTargets (.ofNat depth - .ofNat push + .ofNat pop) producer
        (m.body.take index).reverse := by
  obtain ⟨effect, heffect, hpops⟩ := Instruction.exists_effect_of_popCount? hpop
  have hpushes := Instruction.push_eq_of_pushCount? heffect hpush
  have hlength : (m.body.take index).reverse.length = index := by
    obtain ⟨hbound, -⟩ := List.getElem?_eq_some_iff.1 hproducer
    rw [List.length_reverse, List.length_take]
    omega
  rw [Method.isTarget_eq hconsumer] at htarget
  rw [Method.fallsThrough_eq hproducer] at hfalls
  rw [Method.reverse_take_succ hproducer, producerBefore?]
  simp only [htarget, hfalls, heffect, Bool.false_eq_true, if_false, Bool.not_true, hpops,
    hpushes, Number.ofNat_sub_eq_zero_iff, Number.ofNat_sub_lt_zero_iff, hlength]

/-- The walk from any instruction of a stretch finds the origin of a value
that lies below the top there. -/
theorem producerBefore?_eq_producer? {m : Method} {first last : Nat}
    (hfirst : IsLeast {start | m.RunsStraight start last} first) :
    ∀ (count depth : Nat) (consumer : Instruction) (layout : Layout),
      first + count ≤ last → m.body[first + count]? = some consumer →
      m.layout? first count = some layout → 0 < depth →
      CountsExactly depth (m.stretch first (first + count)) →
      producerBefore? m.branchTargets (.ofNat depth) consumer
        (m.body.take (first + count)).reverse = (layout (depth - 1)).producer? := by
  intro count
  induction count with
  | zero =>
      intro depth consumer layout _ hconsumer hlayout _ _
      obtain rfl := Option.some.inj hlayout
      exact producerBefore?_eq_none_of_isLeast hfirst hconsumer
  | succ count ih =>
      intro depth consumer layout hle hconsumer hlayout hpos hexact
      rw [← Nat.add_assoc] at hle hconsumer hexact ⊢
      obtain ⟨earlier, producer, pop, push, hearlier, hproducer, hpop, hpush, rfl⟩ :=
        Method.layout?_succ_eq_some hlayout
      have hstraight := hfirst.1
      rw [producerBefore?_step hconsumer hproducer
        (hstraight.not_isTarget _ hle (by omega)) (hstraight.fallsThrough _ hle (by omega))
        hpop hpush]
      rw [Method.stretch_succ hproducer (Nat.le_add_right first count), CountsExactly, hpop,
        hpush] at hexact
      rcases Nat.lt_trichotomy depth push with hlt | rfl | hgt
      · -- The value has others of the same execution below it.
        rw [if_neg (by omega), if_pos hlt, Layout.after, if_pos (by omega)]
        obtain ⟨rank, hrank⟩ : ∃ rank, push - 1 - (depth - 1) = rank + 1 :=
          ⟨push - depth - 1, by omega⟩
        rw [hrank]
        rfl
      · -- The value is the deepest of its execution.
        rw [if_pos rfl, Layout.after, if_pos (by omega), Nat.sub_self]
        rfl
      · -- The value was there before the instruction.
        obtain ⟨hcount, hrest⟩ := hexact hgt
        have hbelow : depth - 1 - push + pop = depth - push + pop - 1 := by omega
        rw [if_neg (by omega), if_neg (by omega), hcount, Layout.after, if_neg (by omega),
          hbelow]
        exact ih _ producer earlier (by omega) hproducer hearlier (by omega) hrest

/-! ## Receivers -/

/-- An instruction that fits, with integers for its counts, can be
executed. -/
theorem Instruction.Fits.exists_counts {ins : Instruction} (hfits : ins.Fits)
    (hwhole : ∀ effect ∈ ins.stackEffect?,
      effect.pop.IsInteger ∧ effect.push.IsInteger) :
    ∃ pop push, ins.popCount? = some pop ∧ ins.pushCount? = some push := by
  obtain ⟨effect, heffect, hpop, hpush⟩ := hfits.counts
  obtain ⟨pop, hpops⟩ := Number.exists_ofNat_of_isCount ⟨(hwhole effect heffect).1, hpop⟩
  obtain ⟨push, hpushes⟩ := Number.exists_ofNat_of_isCount ⟨(hwhole effect heffect).2, hpush⟩
  refine ⟨pop, push, ?_, ?_⟩
  · rw [Instruction.popCount?, heffect, Option.bind_some, Number.toNat?_eq_some_iff, hpops]
  · rw [Instruction.pushCount?, heffect, Option.bind_some, Number.toNat?_eq_some_iff, hpushes]

namespace Method

theorem exists_layout? {m : Method} {first : Nat} (hvalid : m.hasValidBody = true) :
    ∀ (count : Nat), first + count ≤ m.body.length →
      (∀ ins ∈ m.stretch first (first + count), ∀ effect ∈ ins.stackEffect?,
        effect.pop.IsInteger ∧ effect.push.IsInteger) →
      ∃ layout, m.layout? first count = some layout := by
  obtain ⟨-, -, hfits, -⟩ := hasValidBody_iff.1 hvalid
  intro count
  induction count with
  | zero => exact fun _ _ => ⟨.initial, rfl⟩
  | succ count ih =>
      intro hbound hwhole
      rw [← Nat.add_assoc] at hbound hwhole
      have hins := List.getElem?_eq_getElem (Nat.lt_of_succ_le hbound)
      rw [stretch_succ hins (Nat.le_add_right first count), List.forall_mem_cons] at hwhole
      obtain ⟨earlier, hearlier⟩ := ih (Nat.le_of_succ_le hbound) hwhole.2
      obtain ⟨pop, push, hpop, hpush⟩ :=
        (hfits _ (List.getElem_mem (Nat.lt_of_succ_le hbound))).exists_counts hwhole.1
      refine ⟨earlier.after (first + count) pop push, ?_⟩
      rw [layout?, hearlier, hins]
      simp only [bind, Option.bind_some, hpop, hpush, pure]

/--
**Receivers in straight-line code.** Take the longest stretch of code in
front of an instruction that control only enters at its first instruction
and runs straight through. If no count on the way back is rounded, which is
so if all counts up to the instruction add up to at most `2 ^ 53`, then the
walk names an instruction exactly if executing the stretch shows that it
pushed the deepest operand, as the deepest of its values; and it gives up
exactly if the operand was on the stack before, or has another value of the
same execution below it.
-/
theorem producer?_precise {m : Method} {k first pop : Nat} {consumer : Instruction}
    (hvalid : m.hasValidBody = true) (hconsumer : m.body[k]? = some consumer)
    (hpop : consumer.popCount? = some pop) (hpos : 0 < pop)
    (hfirst : IsLeast {start | m.RunsStraight start k} first)
    (hwhole : ∀ ins ∈ m.stretch first k, ∀ effect ∈ ins.stackEffect?,
      effect.pop.IsInteger ∧ effect.push.IsInteger) :
    ∃ layout, m.layout? first (k - first) = some layout ∧
      (pop + m.countBefore k ≤ Number.countLimit → CountsExactly pop (m.stretch first k)) ∧
      (CountsExactly pop (m.stretch first k) →
        (∀ p, m.producer? m.branchTargets k = some p ↔ layout (pop - 1) = .pushed p 0) ∧
        (m.producer? m.branchTargets k = none ↔
          (∃ depth, layout (pop - 1) = .before depth) ∨
            ∃ p rank, layout (pop - 1) = .pushed p (rank + 1))) := by
  obtain ⟨hbound, -⟩ := List.getElem?_eq_some_iff.1 hconsumer
  obtain ⟨count, rfl⟩ : ∃ count, k = first + count := ⟨k - first, by have := hfirst.1.le; omega⟩
  rw [Nat.add_sub_cancel_left]
  obtain ⟨layout, hlayout⟩ := exists_layout? hvalid count hbound.le hwhole
  refine ⟨layout, hlayout, countsExactly_of_range count pop, fun hexact => ?_⟩
  have hfound : m.producer? m.branchTargets (first + count) = (layout (pop - 1)).producer? := by
    obtain ⟨effect, heffect, hpops⟩ := Instruction.exists_effect_of_popCount? hpop
    have hnonzero : ¬ effect.pop = 0 := by
      rw [hpops]
      exact fun hzero => hpos.ne' (Nat.cast_eq_zero.1 (Number.finite_eq_zero_iff.1 hzero))
    rw [producer?, hconsumer]
    simp only [heffect, if_neg hnonzero]
    rw [hpops]
    exact producerBefore?_eq_producer? hfirst count pop consumer layout (Nat.le_refl _)
      hconsumer hlayout hpos hexact
  rw [hfound]
  cases layout (pop - 1) with
  | before depth => simp [Origin.producer?]
  | pushed source rank => cases rank <;> simp [Origin.producer?]

end Method

/-- A method that doubles its instance, reads a field of the one and writes
the value to the other. -/
def copyingMethod : Method where
  declaringType := "T"
  name := "Copy"
  returnType := voidType
  parameters := []
  flags := ⟨true, false, false, false, false, false, false⟩
  body :=
    [⟨0, some .other, .nothing, .next, some ⟨0, 1⟩, none⟩,
      ⟨1, some .other, .targets [6], .branch, some ⟨1, 0⟩, none⟩,
      ⟨2, some .loadSelf, .nothing, .next, none, none⟩,
      ⟨3, some .other, .nothing, .next, some ⟨1, 2⟩, none⟩,
      ⟨4, some .loadField, .field ⟨"T", "state", "System.Object"⟩, .next, none, none⟩,
      ⟨5, some .storeField, .field ⟨"T", "former", "System.Object"⟩, .next, none, none⟩,
      ⟨6, some .other, .nothing, .returns, some ⟨0, 0⟩, none⟩]

theorem copyingMethod_isLeast {last : Nat} (hlast : last ≤ 5) :
    IsLeast {start | copyingMethod.RunsStraight start last} 0 := by
  refine ⟨⟨Nat.zero_le last, fun index hle hlt => ?_, fun index hlt hle => ?_⟩,
    fun _ _ => Nat.zero_le _⟩
  · have hnone : ∀ index ≤ 5, 0 < index → copyingMethod.isTarget index = false := by
      decide +kernel
    exact hnone index (hle.trans hlast) hlt
  · have hall : ∀ index < 5, 0 ≤ index → copyingMethod.fallsThrough index = true := by
      decide +kernel
    exact hall index (hlt.trans_le hlast) hle

/-- The value written is an instance that the doubling pushed below another;
of the field that is read the doubling pushed the instance as well, but not
as its deepest value. -/
theorem copyingMethod_producer? :
    copyingMethod.hasValidBody = true ∧
      IsLeast {start | copyingMethod.RunsStraight start 5} 0 ∧
      copyingMethod.producer? copyingMethod.branchTargets 5 = some 3 ∧
      copyingMethod.producer? copyingMethod.branchTargets 4 = none := by
  have hvalid : copyingMethod.hasValidBody = true := by decide +kernel
  have hfirst := copyingMethod_isLeast (Nat.le_refl 5)
  refine ⟨hvalid, hfirst, ?_, ?_⟩
  · obtain ⟨layout, hlayout, hrange, hprecise⟩ :=
      Method.producer?_precise hvalid rfl rfl (Nat.zero_lt_succ 1)
        hfirst (by decide +kernel)
    obtain rfl := Option.some.inj hlayout
    exact ((hprecise (hrange (by decide +kernel))).1 3).2 rfl
  · obtain ⟨layout, hlayout, hrange, hprecise⟩ :=
      Method.producer?_precise hvalid rfl rfl (Nat.zero_lt_succ 0)
        (copyingMethod_isLeast (Nat.le_succ 4)) (by decide +kernel)
    obtain rfl := Option.some.inj hlayout
    exact (hprecise (hrange (by decide +kernel))).2.2 (.inr ⟨3, 0, rfl⟩)

/-! ## Counts out of range -/

/-- A method that loads its instance, puts as many values on top as the
largest exact count, takes them off again and reads a field. -/
def clearedMethod : Method where
  declaringType := "T"
  name := "Clear"
  returnType := voidType
  parameters := []
  flags := ⟨true, false, false, false, false, false, false⟩
  body :=
    [⟨0, some .loadSelf, .nothing, .next, none, none⟩,
      ⟨1, some .other, .nothing, .next, some ⟨0, 9007199254740992⟩, none⟩,
      ⟨2, some .other, .nothing, .next, some ⟨9007199254740992, 0⟩, none⟩,
      ⟨3, some .loadField, .field ⟨"T", "state", "System.Object"⟩, .next, none, none⟩]

/-- The walk comes to `1 + 2 ^ 53` pending values, rounds that to `2 ^ 53`
and stops at the values on top, although the receiver is the instance below
them. -/
theorem clearedMethod_producer? :
    clearedMethod.hasValidBody = true ∧
      (clearedMethod.body[3]?.bind Instruction.popCount?) = some 1 ∧
      IsLeast {start | clearedMethod.RunsStraight start 3} 0 ∧
      (∃ layout, clearedMethod.layout? 0 3 = some layout ∧ layout 0 = .pushed 0 0) ∧
      clearedMethod.producer? clearedMethod.branchTargets 3 = some 1 ∧
      clearedMethod.consumesSelf clearedMethod.branchTargets 3 = false := by
  refine ⟨by decide +kernel, rfl, ⟨⟨Nat.zero_le 3, by decide +kernel, by decide +kernel⟩,
    fun _ _ => Nat.zero_le _⟩, ⟨_, rfl, rfl⟩, by decide +kernel, by decide +kernel⟩

end DisposalAudit
