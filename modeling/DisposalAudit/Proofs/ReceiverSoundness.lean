import DisposalAudit.Body.Receiver
import DisposalAudit.Body.Validity
import DisposalAudit.Proofs.StackMachine
import DisposalAudit.Proofs.WholeCounts

/-!
# Receivers in every run

The backward walk names a producer without running anything. Here it is
compared with all runs: whenever the consumer is about to run, the deepest
of its operands is the deepest value that the last execution of the
producer pushed.

The walk counts with numbers, which are rounded beyond `2 ^ 53`. What it
names is right exactly if the same count without rounding ends there too,
and that is so whenever the counts of the body add up to at most `2 ^ 53`.
The invariant is the depth of one value: `depthBefore?` follows it backward
through straight-line code, and every step of a run moves it by the same
amount.

## Main results

* `takesFrom_iff_of_walk` — the walk against a run, by the depth.
* `pushesDeepest_of_walk` — small counts are not rounded.
* `producer?_sound_iff` — both, for the receiver of an instruction.
* `producer?_rounds` — a body in which the walk is led astray.
-/

namespace DisposalAudit

namespace Instruction

variable {ins : Instruction} {effect : StackEffect} {count : Nat}

theorem pop_eq_of_popCount? (heffect : ins.stackEffect? = some effect)
    (hcount : ins.popCount? = some count) : effect.pop = .ofNat count := by
  rw [← Number.toNat?_eq_some_iff, ← hcount, popCount?, heffect, Option.bind_some]

theorem push_eq_of_pushCount? (heffect : ins.stackEffect? = some effect)
    (hcount : ins.pushCount? = some count) : effect.push = .ofNat count := by
  rw [← Number.toNat?_eq_some_iff, ← hcount, pushCount?, heffect, Option.bind_some]

end Instruction

/-! ## Depths without rounding -/

/-- Depth in front of some instructions, latest first, of the value that
stands `depth` deep behind them, if it was there already. -/
def depthBefore? (depth : Nat) : List Instruction → Option Nat
  | [] => some depth
  | ins :: earlier =>
    match ins.popCount?, ins.pushCount? with
    | some pop, some push =>
      if push < depth then depthBefore? (depth - push + pop) earlier else none
    | _, _ => none

namespace Method

/-- The instructions from one position to another, latest first. -/
def stretch (m : Method) (first last : Nat) : List Instruction :=
  ((m.body.take last).drop first).reverse

/-- The instructions strictly between two positions, latest first. -/
def between (m : Method) (first last : Nat) : List Instruction :=
  ((m.body.take last).drop (first + 1)).reverse

/-- Whether the value `depth` deep in front of the instruction at `last` is
the deepest one that the instruction at `first` pushes, if the code between
them runs straight on. -/
def PushesDeepest (m : Method) (first last depth : Nat) : Prop :=
  ∃ producer push, m.body[first]? = some producer ∧ producer.pushCount? = some push ∧
    depthBefore? depth (m.between first last) = some push

/-- All values that the instructions in front of a position take off and put
onto the stack, each instruction counted once. -/
def countBefore (m : Method) : Nat → Nat
  | 0 => 0
  | index + 1 =>
    m.countBefore index +
      ((m.body[index]?.bind Instruction.popCount?).getD 0 +
        (m.body[index]?.bind Instruction.pushCount?).getD 0)

/-! ### One instruction further -/

theorem reverse_take_succ {m : Method} {index : Nat} {ins : Instruction}
    (hins : m.body[index]? = some ins) :
    (m.body.take (index + 1)).reverse = ins :: (m.body.take index).reverse := by
  rw [List.take_add_one, hins, Option.toList_some, List.reverse_append]
  rfl

theorem stretch_self (m : Method) (index : Nat) : m.stretch index index = [] := by
  rw [stretch, List.drop_eq_nil_of_le (by simp), List.reverse_nil]

theorem stretch_succ {m : Method} {first index : Nat} {ins : Instruction}
    (hins : m.body[index]? = some ins) (hle : first ≤ index) :
    m.stretch first (index + 1) = ins :: m.stretch first index := by
  obtain ⟨hbound, -⟩ := List.getElem?_eq_some_iff.1 hins
  have hlen : first ≤ (m.body.take index).length := by
    rw [List.length_take]
    omega
  rw [stretch, List.take_add_one, hins, List.drop_append_of_le_length hlen, Option.toList_some,
    List.reverse_append]
  rfl

theorem between_self (m : Method) (index : Nat) : m.between index (index + 1) = [] :=
  m.stretch_self (index + 1)

theorem between_succ {m : Method} {first index : Nat} {ins : Instruction}
    (hins : m.body[index]? = some ins) (hlt : first < index) :
    m.between first (index + 1) = ins :: m.between first index :=
  stretch_succ hins hlt

theorem pushesDeepest_self_iff {m : Method} {index push depth : Nat} {ins : Instruction}
    (hins : m.body[index]? = some ins) (hpush : ins.pushCount? = some push) :
    m.PushesDeepest index (index + 1) depth ↔ depth = push := by
  simp only [PushesDeepest, between_self, depthBefore?, Option.some.injEq, hins]
  constructor
  · intro hall
    obtain ⟨_, _, rfl, hcount, rfl⟩ := hall
    exact Option.some.inj (hcount.symm.trans hpush)
  · rintro rfl
    exact ⟨ins, depth, rfl, hpush, rfl⟩

theorem pushesDeepest_succ_iff {m : Method} {first index pop push depth : Nat}
    {ins : Instruction} (hins : m.body[index]? = some ins) (hpop : ins.popCount? = some pop)
    (hpush : ins.pushCount? = some push) (hlt : first < index) :
    m.PushesDeepest first (index + 1) depth ↔
      push < depth ∧ m.PushesDeepest first index (depth - push + pop) := by
  simp only [PushesDeepest, between_succ hins hlt, depthBefore?, hpop, hpush]
  by_cases hdepth : push < depth <;> simp [hdepth]

end Method

/-! ## Depths along a run -/

namespace Machine

/-- The instruction that has just run is the origin of the values that it
pushed, and of no other. -/
theorem takesFrom_after_self_iff {m : Method} {c : Machine} {pop push next depth : Nat}
    (run : Reaches m c) (hpos : 0 < depth) :
    (c.after pop push next).TakesFrom depth c.next ↔ depth = push := by
  have htime : lastTime? c.next (c.after pop push next).history = some c.history.length := by
    simp [after, lastTime?]
  simp only [TakesFrom, htime, Option.some.injEq, exists_eq_left']
  by_cases hle : depth ≤ push
  · rw [getElem?_after_of_le hpos hle]
    simp only [Option.some.injEq, StackValue.mk.injEq, true_and]
    omega
  · rw [getElem?_after_of_lt (by omega)]
    constructor
    · intro hvalue
      have hold := run.time_lt _ (List.mem_of_getElem? hvalue)
      exact absurd hold (Nat.lt_irrefl _)
    · intro heq
      omega

/-- A value that another instruction pushed was there before. -/
theorem takesFrom_after_iff {c : Machine} {pop push next depth index : Nat} (hpos : 0 < depth)
    (hne : c.next ≠ index) :
    (c.after pop push next).TakesFrom depth index ↔
      push < depth ∧ c.TakesFrom (depth - push + pop) index := by
  have htime : lastTime? index (c.after pop push next).history = lastTime? index c.history := by
    simp [after, lastTime?, hne]
  simp only [TakesFrom, htime]
  by_cases hlt : push < depth
  · simp only [getElem?_after_of_lt hlt, hlt, true_and]
  · rw [getElem?_after_of_le hpos (by omega)]
    simp [hlt, hne]

end Machine

/-! ## The walk -/

theorem producerBefore?_cons_eq_some {targets : List Number} {pending : Number}
    {consumer producer : Instruction} {earlier : List Instruction} {p : Nat}
    (h : producerBefore? targets pending consumer (producer :: earlier) = some p) :
    consumer.offset ∉ targets ∧ ∃ effect, producer.stackEffect? = some effect ∧
      ((pending - effect.push = 0 ∧ p = earlier.length) ∨
        (¬ pending - effect.push = 0 ∧ ¬ pending - effect.push < 0 ∧
          producerBefore? targets (pending - effect.push + effect.pop) producer earlier =
            some p)) := by
  rw [producerBefore?] at h
  split at h
  · cases h
  · rename_i htarget
    split at h
    · cases h
    · split at h
      · cases h
      · rename_i effect heffect
        refine ⟨by simpa using htarget, effect, heffect, ?_⟩
        dsimp only at h
        split at h
        · exact .inl ⟨‹_›, (Option.some.inj h).symm⟩
        · split at h
          · cases h
          · exact .inr ⟨‹_›, ‹_›, h⟩

theorem producerBefore?_lt {targets : List Number} {p : Nat} (earlier : List Instruction) :
    ∀ (pending : Number) (consumer : Instruction),
      producerBefore? targets pending consumer earlier = some p → p < earlier.length := by
  induction earlier with
  | nil =>
      intro pending consumer h
      cases h
  | cons producer earlier ih =>
      intro pending consumer h
      obtain ⟨-, effect, -, ⟨-, rfl⟩ | ⟨-, -, hrest⟩⟩ := producerBefore?_cons_eq_some h
      · exact Nat.lt_succ_self _
      · exact Nat.lt_succ_of_lt (ih _ _ hrest)

/-- The walk and a run go back together: where the walk passes from an
instruction to the one before it, the run has come the same way, and both
see the same counts. -/
theorem walk_succ {m : Method} {p index : Nat} {pending : Number} {consumer : Instruction}
    {c : Machine} (hconsumer : m.body[index + 1]? = some consumer)
    (hwalk : producerBefore? m.branchTargets pending consumer
      (m.body.take (index + 1)).reverse = some p)
    (run : Machine.Reaches m c) (hnext : c.next = index + 1) :
    ∃ producer before pop push, m.body[index]? = some producer ∧
      producer.popCount? = some pop ∧ producer.pushCount? = some push ∧
      Machine.Reaches m before ∧ before.next = index ∧ pop ≤ before.stack.length ∧
      c = before.after pop push (index + 1) ∧
      ((pending - .ofNat push = 0 ∧ p = index) ∨
        (¬ pending - .ofNat push = 0 ∧ ¬ pending - .ofNat push < 0 ∧ p < index ∧
          producerBefore? m.branchTargets (pending - .ofNat push + .ofNat pop) producer
            (m.body.take index).reverse = some p)) := by
  obtain ⟨producer, hproducer⟩ : ∃ producer, m.body[index]? = some producer := by
    obtain ⟨hbound, -⟩ := List.getElem?_eq_some_iff.1 hconsumer
    exact ⟨_, List.getElem?_eq_getElem (Nat.lt_of_succ_lt hbound)⟩
  have hlength : (m.body.take index).reverse.length = index := by
    obtain ⟨hbound, -⟩ := List.getElem?_eq_some_iff.1 hproducer
    rw [List.length_reverse, List.length_take]
    omega
  rw [Method.reverse_take_succ hproducer] at hwalk
  obtain ⟨hjump, effect, heffect, hcase⟩ := producerBefore?_cons_eq_some hwalk
  obtain ⟨before, ins, pop, push, hbefore, hindex, hins, hpop, hpush, henough, hafter⟩ :=
    run.predecessor hnext hconsumer hjump
  rw [hproducer] at hins
  obtain rfl := Option.some.inj hins
  rw [Instruction.pop_eq_of_popCount? heffect hpop, Instruction.push_eq_of_pushCount? heffect hpush,
    hlength] at hcase
  refine ⟨producer, before, pop, push, hproducer, hpop, hpush, hbefore, hindex, henough, hafter,
    ?_⟩
  rcases hcase with hend | ⟨hzero, hneg, hrest⟩
  · exact .inl hend
  · exact .inr ⟨hzero, hneg, hlength ▸ producerBefore?_lt _ _ _ hrest, hrest⟩

/-- A producer that the walk names is right if and only if the depth of the
operand, followed without rounding, says the same. -/
theorem takesFrom_iff_of_walk {m : Method} {p : Nat} :
    ∀ (index : Nat) (pending : Number) (depth : Nat) (consumer : Instruction) (c : Machine),
      m.body[index]? = some consumer →
      producerBefore? m.branchTargets pending consumer (m.body.take index).reverse = some p →
      Machine.Reaches m c → c.next = index → 0 < depth → depth ≤ c.stack.length →
      (c.TakesFrom depth p ↔ m.PushesDeepest p index depth) := by
  intro index
  induction index with
  | zero =>
      intro pending depth consumer c _ hwalk
      cases hwalk
  | succ index ih =>
      intro pending depth consumer c hconsumer hwalk run hnext hpos hdepth
      obtain ⟨producer, before, pop, push, hproducer, hpop, hpush, hbefore, hindex, henough, rfl,
        ⟨-, rfl⟩ | ⟨-, -, hlt, hrest⟩⟩ := walk_succ hconsumer hwalk run hnext
      · -- The walk ends here, so the value counts only if this step pushed it.
        rw [Method.pushesDeepest_self_iff hproducer hpush, ← hindex]
        exact Machine.takesFrom_after_self_iff hbefore hpos
      · rw [Method.pushesDeepest_succ_iff hproducer hpop hpush hlt,
          Machine.takesFrom_after_iff hpos (by omega)]
        refine and_congr_right fun hbelow => ?_
        simp only [Machine.after, List.length_append, Machine.length_pushed,
          List.length_drop] at hdepth
        exact ih _ _ producer before hproducer hrest hbefore hindex (by omega) (by omega)

/-- As long as the counts stay in range, the walk counts without rounding. -/
theorem pushesDeepest_of_walk {m : Method} {p : Nat} :
    ∀ (index depth : Nat) (consumer : Instruction) (c : Machine),
      m.body[index]? = some consumer →
      producerBefore? m.branchTargets (.ofNat depth) consumer (m.body.take index).reverse =
        some p →
      Machine.Reaches m c → c.next = index →
      depth + m.countBefore index ≤ Number.countLimit →
      m.PushesDeepest p index depth := by
  intro index
  induction index with
  | zero =>
      intro depth consumer c _ hwalk
      cases hwalk
  | succ index ih =>
      intro depth consumer c hconsumer hwalk run hnext hrange
      obtain ⟨producer, before, pop, push, hproducer, hpop, hpush, hbefore, hindex, -, -, hcase⟩ :=
        walk_succ hconsumer hwalk run hnext
      simp only [Method.countBefore, hproducer, Option.bind_some, hpop, hpush,
        Option.getD_some] at hrange
      rw [Number.ofNat_sub_ofNat (by omega) (by omega), Number.finite_intCast_eq_zero_iff,
        Number.finite_intCast_lt_zero_iff] at hcase
      rcases hcase with ⟨hzero, rfl⟩ | ⟨hzero, hneg, hlt, hrest⟩
      · rw [Method.pushesDeepest_self_iff hproducer hpush]
        omega
      · rw [Number.finite_add_ofNat (c := depth - push + pop) (by omega) (by omega)] at hrest
        rw [Method.pushesDeepest_succ_iff hproducer hpop hpush hlt]
        exact ⟨by omega, ih _ producer before hproducer hrest hbefore hindex (by omega)⟩

/-! ## Receivers -/

namespace Machine

/-- Whether the deepest of the `count` topmost values was pushed by an
instruction that loads the method's own instance. -/
def TakesSelf (c : Machine) (m : Method) (count : Nat) : Prop :=
  ∃ value ins, c.stack[count - 1]? = some value ∧ m.body[value.source]? = some ins ∧
    ins.opcode = some .loadSelf

end Machine

namespace Method

theorem producer?_eq_some {m : Method} {targets : List Number} {index p : Nat}
    (h : m.producer? targets index = some p) :
    ∃ consumer effect, m.body[index]? = some consumer ∧ consumer.stackEffect? = some effect ∧
      effect.pop ≠ 0 ∧
      producerBefore? targets effect.pop consumer (m.body.take index).reverse = some p := by
  rw [producer?] at h
  split at h
  · cases h
  · rename_i consumer hconsumer
    split at h
    · cases h
    · rename_i effect heffect
      split at h
      · cases h
      · exact ⟨consumer, effect, hconsumer, heffect, ‹_›, h⟩

theorem consumesSelf_eq_true {m : Method} {targets : List Number} {index : Nat}
    (h : m.consumesSelf targets index = true) :
    m.flags.isStatic = false ∧ ∃ p producer, m.producer? targets index = some p ∧
      m.body[p]? = some producer ∧ producer.opcode = some .loadSelf := by
  rw [consumesSelf, Bool.and_eq_true, Bool.not_eq_true'] at h
  refine ⟨h.1, ?_⟩
  cases hfound : m.producer? targets index with
  | none => simp [hfound] at h
  | some p =>
      cases hproducer : m.body[p]? with
      | none => simp [hfound, hproducer] at h
      | some producer => exact ⟨p, producer, rfl, hproducer, by simpa [hfound, hproducer] using h.2⟩

end Method

/--
**The receiver walk against all runs.** Whenever a run is about to execute an
instruction for which the walk has named a producer, the deepest operand is
the deepest value of the producer's last execution if and only if the count
from the consumer back to the producer, made without rounding, comes out at
the same value; and it does so if the counts up to the consumer add up to at
most `2 ^ 53`. A receiver that is taken for the method's own instance has
then been loaded as that, in a method that is not static.
-/
theorem producer?_sound_iff {m : Method} {k p pop : Nat} {consumer : Instruction} {c : Machine}
    (hconsumer : m.body[k]? = some consumer) (hpop : consumer.popCount? = some pop)
    (hfound : m.producer? m.branchTargets k = some p)
    (run : Machine.Reaches m c) (hnext : c.next = k) (henough : pop ≤ c.stack.length) :
    (c.TakesFrom pop p ↔ m.PushesDeepest p k pop) ∧
      (pop + m.countBefore k ≤ Number.countLimit → m.PushesDeepest p k pop) ∧
      (m.consumesSelf m.branchTargets k = true →
        m.flags.isStatic = false ∧ (m.PushesDeepest p k pop → c.TakesSelf m pop)) := by
  obtain ⟨ins, effect, hins, heffect, hnonzero, hwalk⟩ := Method.producer?_eq_some hfound
  rw [hconsumer] at hins
  obtain rfl := Option.some.inj hins
  have hpops : effect.pop = .ofNat pop := Instruction.pop_eq_of_popCount? heffect hpop
  have hpos : 0 < pop := by
    refine Nat.pos_of_ne_zero fun hzero => hnonzero ?_
    rw [hpops, hzero]
    rfl
  have hiff : c.TakesFrom pop p ↔ m.PushesDeepest p k pop :=
    takesFrom_iff_of_walk k _ pop consumer c hconsumer hwalk run hnext hpos henough
  refine ⟨hiff, fun hrange => ?_, fun hself => ?_⟩
  · exact pushesDeepest_of_walk k pop consumer c hconsumer (hpops ▸ hwalk) run hnext hrange
  · obtain ⟨hstatic, q, producer, hq, hproducer, hopcode⟩ := Method.consumesSelf_eq_true hself
    obtain rfl := Option.some.inj (hq.symm.trans hfound)
    refine ⟨hstatic, fun hdeepest => ?_⟩
    obtain ⟨time, -, hvalue⟩ := hiff.2 hdeepest
    exact ⟨_, producer, hvalue, hproducer, hopcode⟩

/-- A method that reads a field of its instance until the field is null. -/
def pollingMethod : Method where
  declaringType := "T"
  name := "Poll"
  returnType := voidType
  parameters := []
  flags := ⟨true, false, false, false, false, false, false⟩
  body :=
    [⟨0, some .loadSelf, .nothing, .next, none, none⟩,
      ⟨1, some .loadField, .field ⟨"T", "state", "System.Object"⟩, .next, none, none⟩,
      ⟨2, some .other, .targets [0], .branch, some ⟨1, 0⟩, none⟩,
      ⟨3, some .other, .nothing, .returns, some ⟨0, 0⟩, none⟩]

/-- The configuration in front of the second reading. -/
def secondReading : Machine :=
  (((Machine.start.after 0 1 1).after 1 1 2).after 1 0 0).after 0 1 1

theorem reaches_secondReading : Machine.Reaches pollingMethod secondReading := by
  have load : Machine.Step pollingMethod .start (Machine.start.after 0 1 1) :=
    .run rfl rfl rfl (by decide) (.fall rfl)
  have read : Machine.Step pollingMethod _ ((Machine.start.after 0 1 1).after 1 1 2) :=
    .run rfl rfl rfl (by decide) (.fall rfl)
  have again : Machine.Step pollingMethod _
      (((Machine.start.after 0 1 1).after 1 1 2).after 1 0 0) :=
    .run rfl rfl rfl (by decide) (.jump rfl (by decide))
  have reload : Machine.Step pollingMethod _ secondReading :=
    .run rfl rfl rfl (by decide) (.fall rfl)
  exact .tail (.tail (.tail (.single load) read) again) reload

theorem secondReading_takesSelf :
    Machine.Reaches pollingMethod secondReading ∧ secondReading.next = 1 ∧
      pollingMethod.producer? pollingMethod.branchTargets 1 = some 0 ∧
      secondReading.TakesFrom 1 0 ∧ pollingMethod.flags.isStatic = false ∧
      secondReading.TakesSelf pollingMethod 1 := by
  have hfound : pollingMethod.producer? pollingMethod.branchTargets 1 = some 0 := by
    decide +kernel
  have henough : 1 ≤ secondReading.stack.length := by decide
  obtain ⟨hiff, hexact, hself⟩ :=
    producer?_sound_iff rfl rfl hfound reaches_secondReading rfl henough
  have hdeepest := hexact (by decide +kernel)
  obtain ⟨hstatic, htakes⟩ := hself (by decide +kernel)
  exact ⟨reaches_secondReading, rfl, hfound, hiff.2 hdeepest, hstatic, htakes hdeepest⟩

/-! ## Counts out of range -/

/-- A method with counts around `2 ^ 53`: a null, the instance, as many more
values as a number can count, all of them but the null taken off again, and
a field written through what is left. -/
def crowdedMethod : Method where
  declaringType := "T"
  name := "Crowd"
  returnType := voidType
  parameters := []
  flags := ⟨true, false, false, false, false, false, false⟩
  body :=
    [⟨0, some .other, .nothing, .next, some ⟨0, 1⟩, none⟩,
      ⟨1, some .loadSelf, .nothing, .next, none, none⟩,
      ⟨2, some .other, .nothing, .next, some ⟨0, 9007199254740991⟩, none⟩,
      ⟨3, some .other, .nothing, .next, some ⟨9007199254740992, 1⟩, none⟩,
      ⟨4, some .storeField, .field ⟨"T", "state", "System.Object"⟩, .next, none, none⟩]

/-- The configuration in front of the clearing instruction, with so many
values on top of the null and the instance. -/
def crowding (count : Nat) : Machine :=
  ((Machine.start.after 0 1 1).after 0 1 2).after 0 count 3

/-- The configuration in front of the field access. -/
def crowdedWriting (count : Nat) : Machine := (crowding count).after (count + 1) 1 4

theorem crowding_stack (count : Nat) :
    (crowding count).stack = Machine.pushed 2 2 count ++ [⟨1, 1, 0⟩, ⟨0, 0, 0⟩] := rfl

/-- However many values there were, only the null is left below the new
one. -/
theorem crowdedWriting_stack (count : Nat) :
    (crowdedWriting count).stack = [⟨3, 3, 0⟩, ⟨0, 0, 0⟩] := by
  have hrest : (crowding count).stack.drop (count + 1) = [⟨0, 0, 0⟩] := by
    rw [crowding_stack, ← List.drop_drop, List.drop_left' (Machine.length_pushed 2 2 count)]
    rfl
  rw [crowdedWriting, Machine.after, hrest]
  rfl

theorem reaches_crowdedWriting :
    Machine.Reaches crowdedMethod (crowdedWriting 9007199254740991) := by
  have null : Machine.Step crowdedMethod .start (Machine.start.after 0 1 1) :=
    .run rfl rfl rfl (Nat.zero_le _) (.fall rfl)
  have load : Machine.Step crowdedMethod _ ((Machine.start.after 0 1 1).after 0 1 2) :=
    .run rfl rfl rfl (Nat.zero_le _) (.fall rfl)
  have crowd : Machine.Step crowdedMethod _ (crowding 9007199254740991) :=
    .run rfl rfl rfl (Nat.zero_le _) (.fall rfl)
  have room : 9007199254740991 + 1 ≤ (crowding 9007199254740991).stack.length := by
    rw [crowding_stack, List.length_append, Machine.length_pushed]
    decide
  have clear : Machine.Step crowdedMethod _ (crowdedWriting 9007199254740991) :=
    .run rfl rfl rfl room (.fall rfl)
  exact .tail (.tail (.tail (.single null) load) crowd) clear

/-- The walk comes to `1 + 2 ^ 53` pending values, rounds that to `2 ^ 53`,
and so takes the instance for the receiver, which is the null below it. -/
theorem producer?_rounds :
    crowdedMethod.hasValidBody = true ∧
      crowdedMethod.producer? crowdedMethod.branchTargets 4 = some 1 ∧
      crowdedMethod.consumesSelf crowdedMethod.branchTargets 4 = true ∧
      (crowdedMethod.body[4]?.bind Instruction.popCount?) = some 2 ∧
      ∃ c, Machine.Reaches crowdedMethod c ∧ c.next = 4 ∧ 2 ≤ c.stack.length ∧
        ¬ c.TakesFrom 2 1 ∧ ¬ c.TakesSelf crowdedMethod 2 := by
  refine ⟨by decide +kernel, by decide +kernel, by decide +kernel, rfl,
    crowdedWriting 9007199254740991, reaches_crowdedWriting, rfl, ?_, ?_, ?_⟩
  · rw [crowdedWriting_stack]
    decide
  · intro hall
    obtain ⟨time, -, hvalue⟩ := hall
    rw [crowdedWriting_stack] at hvalue
    cases hvalue
  · intro hall
    obtain ⟨value, ins, hvalue, hins, hself⟩ := hall
    rw [crowdedWriting_stack] at hvalue
    cases hvalue
    cases hins
    cases hself

end DisposalAudit
