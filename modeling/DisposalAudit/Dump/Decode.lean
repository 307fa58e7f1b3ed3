import DisposalAudit.Codebase.Basic
import DisposalAudit.Dump.Basic
import DisposalAudit.Dump.Mnemonic

/-!
# Decoding dumps

A dump becomes a module: every part that was left out gets its default, and
every mnemonic its category, flow and stack effect. What an instruction of
the dump says itself is preferred to what its mnemonic would say.

## Main definitions

* `InstructionDump.decode`, `MethodDump.decode`, `TypeDump.decode`,
  `ModuleDump.decode` — the parts.
* `Module.ofValue` — the module of a document value, or all violations of
  the shape of dumps.
* `dumpErrorText` — the message for violations.
-/

namespace DisposalAudit

namespace CallDump

/-- The reference, which stays open about the instance if the dump is. -/
def decode (d : CallDump) : MethodRef where
  declaringType := d.declaringType
  name := d.name
  returnType := d.returnType.getD voidType
  parameters := d.parameters.getD []
  hasThis := d.hasThis

end CallDump

namespace FieldDump

/-- The reference; a field of unknown type holds an object. -/
def decode (d : FieldDump) : FieldRef where
  declaringType := d.declaringType
  name := d.name
  fieldType := d.fieldType.getD "System.Object"

end FieldDump

namespace InstructionDump

/-- The operand: a method before a field, a field before branch targets. -/
def operand (d : InstructionDump) : Operand :=
  match d.method, d.field, d.targets with
  | some call, _, _ => .method call.decode
  | none, some field, _ => .field field.decode
  | none, none, some offsets => .targets offsets
  | none, none, none => .nothing

/-- The stack effect, each count from the instruction if it gives it and
from its mnemonic if not. -/
def stackEffect? (d : InstructionDump) (op returnType : String) : Option StackEffect :=
  let known := Mnemonic.stackEffect? op returnType
  match d.pop.or (known.map StackEffect.pop), d.push.or (known.map StackEffect.push) with
  | some pop, some push => some ⟨pop, push⟩
  | _, _ => none

/-- The instruction, in a method that is or is not static and returns a
type. -/
def decode (d : InstructionDump) (isStatic : Bool) (returnType : String) : Instruction :=
  let op := Mnemonic.fold d.op
  let opcode := Mnemonic.category? op isStatic
  { offset := d.offset
    opcode := opcode
    operand := d.operand
    flow := d.flow.getD (Mnemonic.flow op d.operand)
    stack := if opcode = some .other then d.stackEffect? op returnType else none
    mnemonic := some d.op }

end InstructionDump

namespace MethodDump

/-- The kind; a method with the name of a constructor is one unless the
dump says otherwise. -/
def kindOrDefault (d : MethodDump) : MethodKind :=
  d.kind.getD (if d.name = ".ctor" ∨ d.name = ".cctor" then .constructor else .method)

/-- The method of a type, which may be generated as a whole. -/
def decode (d : MethodDump) (declaringType : String) (generatedType : Bool) : Method :=
  let kind := d.kindOrDefault
  let isStatic := d.isStatic.getD false
  let returnType := d.returnType.getD voidType
  { declaringType := declaringType
    name := d.name
    returnType := returnType
    parameters := d.parameters.zipIdx.map fun (p, i) =>
      ⟨p.name.getD ("arg" ++ toString (i + 1)), p.type⟩
    flags :=
      { isPublic := d.visibility = some "public"
        isStatic := isStatic
        isConstructor := kind = .constructor
        isFinalizer := kind = .finalizer
        isPropertyGetter := kind = .getter
        isEventAccessor := kind = .eventAccessor
        isGenerated := generatedType || d.attributes.any isGeneratedAttribute }
    body := d.body.map fun ins => ins.decode isStatic returnType }

end MethodDump

namespace TypeDump

/-- The type with its methods. -/
def decode (d : TypeDump) : TypeDefinition where
  name := d.name
  baseType := d.baseType
  interfaces := d.interfaces
  attributes := d.attributes
  methods := d.methods.map fun m => m.decode d.name (isGeneratedType d.name d.attributes)

end TypeDump

namespace ModuleDump

/-- The module, read from a source. -/
def decode (d : ModuleDump) (source : String) : Module where
  name := d.name
  source := source
  types := d.types.map TypeDump.decode

end ModuleDump

/-- The module that a document value describes, or the violations that keep
it from being a dump. -/
def Module.ofValue (source : String) (value : Value) : Except (List Violation) Module :=
  match ModuleDump.shape.violations [] value with
  | [] => .ok ((ModuleDump.ofValue value).decode source)
  | violations => .error violations

/-- Message for a value that is not a dump. -/
def dumpErrorText (violations : List Violation) : String :=
  "Invalid module dump:\n" ++ "\n".intercalate (violations.map fun v => "  " ++ v.text)

end DisposalAudit
