import DisposalAudit.Body.Method
import Mathlib.Logic.Relation

/-!
# Runs of a method body

The forward meaning of stack effects. A machine starts at the first
instruction with an empty stack. An instruction takes its values off the
stack and puts its own onto it; each value remembers which execution of
which instruction pushed it, and how many values of that execution lie
below it. Control then falls through or jumps to any target.

A count that is not a natural number cannot be carried out, so a run never
gets past an instruction that has one.

## Main definitions

* `Machine`, `StackValue` — a configuration and what its stack holds.
* `Machine.Step`, `Machine.Reaches` — one instruction, and any run.
* `Machine.TakesFrom` — where the deepest of some topmost values is from.

## Main results

* `Machine.Reaches.time_lt` — a value on the stack is older than now.
* `Machine.Reaches.predecessor` — in front of an instruction that nothing
  jumps to, the instruction before it has just run.
-/

namespace DisposalAudit

namespace Instruction

/-- Number of values that the instruction takes off the stack, if that is a
natural number. -/
def popCount? (ins : Instruction) : Option Nat :=
  ins.stackEffect?.bind fun effect => effect.pop.toNat?

/-- Number of values that the instruction puts onto the stack, if that is a
natural number. -/
def pushCount? (ins : Instruction) : Option Nat :=
  ins.stackEffect?.bind fun effect => effect.push.toNat?

end Instruction

/-! ## Configurations -/

/-- A value on the stack, known by its origin. -/
structure StackValue where
  /-- Position of the instruction that pushed it. -/
  source : Nat
  /-- Number of instructions that had run before that execution. -/
  time : Nat
  /-- Number of values that the same execution pushed below it. -/
  rank : Nat
  deriving DecidableEq

/-- A configuration in front of an instruction. -/
structure Machine where
  /-- Position of the instruction that is about to run. -/
  next : Nat
  /-- Values on the stack, topmost first. -/
  stack : List StackValue
  /-- Positions of the instructions that have run, latest first. -/
  history : List Nat

namespace Machine

/-- The configuration in front of the first instruction. -/
def start : Machine := ⟨0, [], []⟩

/-- The values that one execution pushes, topmost first. -/
def pushed (source time count : Nat) : List StackValue :=
  (List.range count).reverse.map fun rank => ⟨source, time, rank⟩

/-- The configuration after the instruction that is about to run. -/
def after (c : Machine) (pop push next : Nat) : Machine where
  next := next
  stack := pushed c.next c.history.length push ++ c.stack.drop pop
  history := c.next :: c.history

/-- Where control can go behind an instruction. -/
inductive Follows (m : Method) (index : Nat) (ins : Instruction) : Nat → Prop
  | fall (falls : ins.flow.fallsThrough) : Follows m index ins (index + 1)
  | jump {target : Nat} {landing : Instruction} (lands : m.body[target]? = some landing)
      (named : landing.offset ∈ ins.targets) : Follows m index ins target

/-- One instruction runs. -/
inductive Step (m : Method) (c : Machine) : Machine → Prop
  | run {ins : Instruction} {pop push next : Nat} (here : m.body[c.next]? = some ins)
      (pops : ins.popCount? = some pop) (pushes : ins.pushCount? = some push)
      (enough : pop ≤ c.stack.length) (follows : Follows m c.next ins next) :
      Step m c (c.after pop push next)

/-- The configurations that runs of a method come to. -/
def Reaches (m : Method) (c : Machine) : Prop := Relation.ReflTransGen (Step m) start c

/-- When an instruction ran last, by the number of those that ran before. -/
def lastTime? (index : Nat) : List Nat → Option Nat
  | [] => none
  | latest :: earlier => if latest = index then some earlier.length else lastTime? index earlier

/-- Whether the deepest of the `count` topmost values is the deepest value
that the last execution of the instruction at `index` pushed. -/
def TakesFrom (c : Machine) (count index : Nat) : Prop :=
  ∃ time, lastTime? index c.history = some time ∧
    c.stack[count - 1]? = some ⟨index, time, 0⟩

@[simp] theorem after_next (c : Machine) (pop push next : Nat) :
    (c.after pop push next).next = next := rfl

/-! ## What one step pushes -/

@[simp] theorem length_pushed (source time count : Nat) :
    (pushed source time count).length = count := by
  simp [pushed]

theorem getElem?_pushed {source time count depth : Nat} (hpos : 0 < depth)
    (hle : depth ≤ count) :
    (pushed source time count)[depth - 1]? = some ⟨source, time, count - depth⟩ := by
  have hrank : count - 1 - (depth - 1) = count - depth := by omega
  rw [pushed, List.getElem?_map, List.getElem?_reverse (by simp; omega), List.length_range, hrank,
    List.getElem?_range (by omega)]
  rfl

/-- A value that was pushed by the step is found at its own depth. -/
theorem getElem?_after_of_le {c : Machine} {pop push next depth : Nat} (hpos : 0 < depth)
    (hle : depth ≤ push) :
    (c.after pop push next).stack[depth - 1]? =
      some ⟨c.next, c.history.length, push - depth⟩ := by
  rw [after, List.getElem?_append_left (by rw [length_pushed]; omega), getElem?_pushed hpos hle]

/-- A value that lies below all that the step pushed was there before, below
the values that the step took off. -/
theorem getElem?_after_of_lt {c : Machine} {pop push next depth : Nat} (hlt : push < depth) :
    (c.after pop push next).stack[depth - 1]? = c.stack[depth - push + pop - 1]? := by
  have hbelow : depth - 1 - push + pop = depth - push + pop - 1 := by omega
  rw [after, List.getElem?_append_right (by rw [length_pushed]; omega), length_pushed,
    List.getElem?_drop, Nat.add_comm, hbelow]

/-! ## Invariants of runs -/

/-- A value on the stack was pushed by an execution in the past. -/
theorem Reaches.time_lt {m : Method} {c : Machine} (run : Reaches m c) :
    ∀ v ∈ c.stack, v.time < c.history.length := by
  induction run with
  | refl =>
      intro v hv
      simp [start] at hv
  | @tail before _ _ step ih =>
      obtain ⟨_, _, _, _, _⟩ := step
      intro v hv
      rcases List.mem_append.1 hv with hnew | hold
      · obtain ⟨rank, -, rfl⟩ := List.mem_map.1 hnew
        exact Nat.lt_succ_self before.history.length
      · exact Nat.lt_succ_of_lt (ih v (List.mem_of_mem_drop hold))

/-- The instruction in front of which a run stands has been come to from the
one before it, unless it is the first one or some instruction jumps to it. -/
theorem Reaches.predecessor {m : Method} {c : Machine} {index : Nat} {ins : Instruction}
    (run : Reaches m c) (hnext : c.next = index + 1) (hins : m.body[index + 1]? = some ins)
    (hjump : ins.offset ∉ m.branchTargets) :
    ∃ before producer pop push, Reaches m before ∧ before.next = index ∧
      m.body[index]? = some producer ∧ producer.popCount? = some pop ∧
      producer.pushCount? = some push ∧ pop ≤ before.stack.length ∧
      c = before.after pop push (index + 1) := by
  cases run with
  | refl => cases hnext
  | @tail before _ earlier step =>
      obtain @⟨producer, pop, push, next, here, pops, pushes, enough, follows⟩ := step
      rw [after_next] at hnext
      subst hnext
      generalize hsource : before.next = source at follows
      cases follows with
      | fall falls =>
          exact ⟨before, producer, pop, push, earlier, hsource, hsource ▸ here, pops, pushes,
            enough, rfl⟩
      | jump lands named =>
          rw [hins] at lands
          obtain rfl := Option.some.inj lands
          refine absurd ?_ hjump
          rw [Method.branchTargets, List.mem_eraseDups, List.mem_flatMap]
          exact ⟨producer, List.mem_of_getElem? here, named⟩

end Machine

end DisposalAudit
