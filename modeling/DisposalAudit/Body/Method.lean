import DisposalAudit.Body.Instruction

/-!
# Methods

A method with its declaration and its body, and the facts about a body
that need nothing but its instructions.

## Main definitions

* `Method`, `MethodFlags`, `Parameter` — the data.
* `Method.signature` — the written form used in findings.
* `BodyFacts` — opcode categories and branch targets of a body.
-/

namespace DisposalAudit

/-- A declared parameter. -/
structure Parameter where
  name : String
  type : String
  deriving DecidableEq, Inhabited

/-- What a declaration says about a method. -/
structure MethodFlags where
  isPublic : Bool
  isStatic : Bool
  isConstructor : Bool
  isFinalizer : Bool
  isPropertyGetter : Bool
  isEventAccessor : Bool
  isGenerated : Bool
  deriving DecidableEq, Inhabited

/-- A method of a loaded type. -/
structure Method where
  declaringType : String
  name : String
  returnType : String
  parameters : List Parameter
  flags : MethodFlags
  body : List Instruction
  deriving DecidableEq, Inhabited

/-- Written form of a declaring type, a name and parameter types. -/
def referenceText (declaringType name : String) (parameters : List String) : String :=
  declaringType ++ "::" ++ name ++ "(" ++ ",".intercalate parameters ++ ")"

namespace Method

/-- Types of the parameters, in order. -/
def parameterTypes (m : Method) : List String := m.parameters.map Parameter.type

/-- Declaring type and name. -/
def label (m : Method) : String := m.declaringType ++ "::" ++ m.name

/-- Written form with return type and parameter types. -/
def signature (m : Method) : String :=
  m.returnType ++ " " ++ referenceText m.declaringType m.name m.parameterTypes

/-- Categories that occur in the body. -/
def opcodes (m : Method) : OpcodeSet :=
  m.body.foldl (fun s ins => (ins.opcode.map s.insert).getD s) .empty

/-- Offsets that some instruction jumps to, each once, in order of first
appearance. -/
def branchTargets (m : Method) : List Number :=
  (m.body.flatMap Instruction.targets).eraseDups

end Method

/-- Facts about a body that depend on its opcodes and targets alone. What a
call passes to its callee has no part in them. -/
structure BodyFacts where
  opcodes : OpcodeSet
  targets : List Number
  deriving DecidableEq, Inhabited

/-- The facts about a method's body. -/
def Method.facts (m : Method) : BodyFacts := ⟨m.opcodes, m.branchTargets⟩

end DisposalAudit
