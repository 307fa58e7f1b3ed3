import DisposalAudit.Body.Method

/-!
# Valid bodies

What has to hold of a body before the stack can be traced through it:
offsets are natural numbers that increase, every instruction has the
operand and the stack effect of its category, and every branch lands on an
instruction. A body that is not valid is reported by its first flaw.

## Main definitions

* `Flaw` — the ways in which an instruction can be wrong.
* `MalformedBody` — a flaw with its place.
* `Method.firstFlaw?` — the first flaw of a body, or `none`.
-/

namespace DisposalAudit

/-- What is wrong with an instruction. -/
inductive Flaw where
  | offsetOrder
  | operandKind (opcode : Opcode) (expected found : OperandKind)
  | stackEffect
  | danglingTarget (target : Number)
  deriving DecidableEq

/-- Description of a flaw. -/
def Flaw.text : Flaw → String
  | offsetOrder => "offsets are not strictly increasing"
  | operandKind opcode expected found =>
    opcode.name ++ " expects a " ++ expected.name ++ " operand, got " ++ found.name
  | stackEffect => "missing stack effect"
  | danglingTarget target =>
    "branch to " ++ offsetLabel target ++ " does not land on an instruction"

/-- A body that cannot be interpreted. -/
structure MalformedBody where
  /-- Declaring type and name of the method. -/
  method : String
  /-- Position of the instruction in the body. -/
  index : Nat
  /-- Its offset. -/
  offset : Number
  flaw : Flaw
  deriving DecidableEq

namespace MalformedBody

/-- A complaint about a method, at an offset if one is known. -/
def describe (method text : String) (offset : Option Number) : String :=
  match offset with
  | some offset => method ++ ": " ++ text ++ " at " ++ offsetLabel offset
  | none => method ++ ": " ++ text

/-- Message of the error. -/
def message (e : MalformedBody) : String := describe e.method e.flaw.text (some e.offset)

end MalformedBody

namespace Instruction

/-- The flaw of an instruction that follows one at `previous`, targets
aside. -/
def flaw? (previous : Number) (ins : Instruction) : Option Flaw :=
  if ¬ (ins.offset.IsInteger ∧ previous < ins.offset) then some .offsetOrder
  else
    match operandFlaw? with
    | some flaw => some flaw
    | none =>
      match ins.stackEffect? with
      | none => some .stackEffect
      | some effect => if effect.pop < 0 ∨ effect.push < 0 then some .stackEffect else none
where
  operandFlaw? : Option Flaw :=
    match ins.opcode, ins.expectedOperand? with
    | some opcode, some expected =>
      if ins.operand.kind = expected then none
      else some (.operandKind opcode expected ins.operand.kind)
    | _, _ => none

/-- The first target that is not the offset of an instruction. -/
def dangling? (offsets : List Number) (ins : Instruction) : Option Flaw :=
  (ins.targets.find? fun target => !offsets.contains target).map .danglingTarget

end Instruction

/-- The first instruction with a flaw of its own, and its position. -/
def firstOwnFlaw? (previous : Number) (index : Nat) :
    List Instruction → Option (Nat × Instruction × Flaw)
  | [] => none
  | ins :: rest =>
    match ins.flaw? previous with
    | some flaw => some (index, ins, flaw)
    | none => firstOwnFlaw? ins.offset (index + 1) rest

/-- The first instruction with a branch to nowhere, and its position. -/
def firstDangling? (offsets : List Number) (index : Nat) :
    List Instruction → Option (Nat × Instruction × Flaw)
  | [] => none
  | ins :: rest =>
    match ins.dangling? offsets with
    | some flaw => some (index, ins, flaw)
    | none => firstDangling? offsets (index + 1) rest

namespace Method

/-- The first flaw of the body. Branches are judged only once every
instruction has passed, since only then are all offsets known. -/
def firstFlaw? (m : Method) : Option MalformedBody :=
  let found := (firstOwnFlaw? (-1) 0 m.body).or
    (firstDangling? (m.body.map Instruction.offset) 0 m.body)
  found.map fun (index, ins, flaw) => ⟨m.label, index, ins.offset, flaw⟩

/-- Whether the body can be interpreted. -/
def hasValidBody (m : Method) : Bool := m.firstFlaw?.isNone

end Method

end DisposalAudit
