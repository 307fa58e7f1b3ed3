import DisposalAudit.Body.Opcode

/-!
# Instructions

One decoded instruction of a method body: where it stands, what it is, what
it refers to, and how control leaves it. How many values it takes off the
evaluation stack and puts onto it follows from its operand, except for
`other` instructions, which carry the two counts themselves.

## Main definitions

* `Instruction`, `Operand`, `MethodRef`, `FieldRef` — the data.
* `Instruction.stackEffect?` — values popped and pushed, if known.
* `offsetLabel` — the written form of an offset.
-/

namespace DisposalAudit

/-- Full name of the type without values. -/
def voidType : String := "System.Void"

/-! ## Control flow -/

/-- How control leaves an instruction. -/
inductive Flow where
  | next
  | jump
  | branch
  | returns
  | throws
  deriving DecidableEq, Inhabited

namespace Flow

/-- Every way, in the order of the definition. -/
def all : List Flow := [next, jump, branch, returns, throws]

/-- Written form. -/
def name : Flow → String
  | next => "next"
  | jump => "branch"
  | branch => "conditional-branch"
  | returns => "return"
  | throws => "throw"

/-- The way of a written form. -/
def ofName? (text : String) : Option Flow := all.find? fun flow => flow.name = text

/-- Whether the instruction behind can run next. -/
def fallsThrough : Flow → Bool
  | next | branch => true
  | jump | returns | throws => false

end Flow

/-! ## Operands -/

/-- A field, by name. -/
structure FieldRef where
  declaringType : String
  name : String
  fieldType : String
  deriving DecidableEq, Inhabited

/-- A method, by name and parameter types. -/
structure MethodRef where
  declaringType : String
  name : String
  returnType : String
  parameters : List String
  /-- Whether the callee takes an instance besides its parameters; unknown
  until a dump or the loaded callee tells. -/
  hasThis : Option Bool
  deriving DecidableEq, Inhabited

/-- What an instruction refers to. -/
inductive Operand where
  | nothing
  | field (ref : FieldRef)
  | method (ref : MethodRef)
  | targets (offsets : List Number)
  deriving DecidableEq, Inhabited

/-- The kinds of operand, without their content. -/
inductive OperandKind where
  | nothing
  | field
  | method
  | targets
  deriving DecidableEq, Inhabited

/-- Written form of a kind. -/
def OperandKind.name : OperandKind → String
  | nothing => "none"
  | field => "field"
  | method => "method"
  | targets => "branch"

/-- The kind of an operand. -/
def Operand.kind : Operand → OperandKind
  | nothing => .nothing
  | field _ => .field
  | method _ => .method
  | targets _ => .targets

/-! ## Instructions -/

/-- Values taken from and put onto the evaluation stack. -/
structure StackEffect where
  pop : Number
  push : Number
  deriving DecidableEq, Inhabited

/-- A decoded instruction. -/
structure Instruction where
  offset : Number
  /-- The category; a few reserved mnemonics have none, and no body that
  holds one is accepted. -/
  opcode : Option Opcode
  operand : Operand
  flow : Flow
  /-- Counts of an `other` instruction. -/
  stack : Option StackEffect
  /-- The name as written in the dump. -/
  mnemonic : Option String
  deriving DecidableEq, Inhabited

namespace MethodRef

/-- Values that a call to this method takes: its parameters, and an
instance unless it is known to have none. -/
def arity (ref : MethodRef) : Number :=
  .ofNat (ref.parameters.length + if ref.hasThis.getD true then 1 else 0)

end MethodRef

namespace Instruction

/-- Values popped and pushed, if known. A constructor call takes only its
parameters and pushes the new object. -/
def stackEffect? (ins : Instruction) : Option StackEffect :=
  match ins.opcode with
  | some .callDirect | some .callVirtual =>
    match ins.operand with
    | .method ref => some ⟨ref.arity, if ref.returnType = voidType then 0 else 1⟩
    | _ => none
  | some .construct =>
    match ins.operand with
    | .method ref => some ⟨.ofNat ref.parameters.length, 1⟩
    | _ => none
  | some .loadField | some .loadFieldAddress => some ⟨1, 1⟩
  | some .storeField => some ⟨2, 0⟩
  | some .loadSelf => some ⟨0, 1⟩
  | some .other => ins.stack
  | none => none

/-- The kind of operand that the category asks for, if it asks for one. -/
def expectedOperand? (ins : Instruction) : Option OperandKind :=
  match ins.opcode with
  | some .callDirect | some .callVirtual | some .construct => some .method
  | some .loadField | some .storeField | some .loadFieldAddress => some .field
  | some .loadSelf => some .nothing
  | some .other | none => none

/-- Offsets that the instruction may jump to. -/
def targets (ins : Instruction) : List Number :=
  match ins.operand with
  | .targets offsets => offsets
  | _ => []

end Instruction

/-- Written form of an offset: upper-case hexadecimal, at least four places
wide, sign and point included. -/
def offsetLabel (offset : Number) : String :=
  let digits := offset.hexText.toList.map Char.toUpper
  "IL_" ++ Text.padLeft 4 '0' (String.ofList digits)

end DisposalAudit
