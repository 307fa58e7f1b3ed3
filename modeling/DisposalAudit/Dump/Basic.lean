import DisposalAudit.Body.Instruction
import DisposalAudit.Dump.Shape

/-!
# Module dumps

A dump describes the types, methods and instructions of one module. Much of
it may be left out; what is left out has a default, which is filled in when
the dump is decoded.

## Main definitions

* `ModuleDump`, `TypeDump`, `MethodDump`, `InstructionDump`, … — a dump as
  it was written.
* `ModuleDump.shape` — the values that are dumps.
* `ModuleDump.ofValue` — the dump that a value of that shape describes.
-/

namespace DisposalAudit

/-! ## The data -/

/-- A field as an instruction names it. -/
structure FieldDump where
  declaringType : String
  name : String
  fieldType : Option String
  deriving Inhabited

/-- A method as an instruction names it. -/
structure CallDump where
  declaringType : String
  name : String
  returnType : Option String
  parameters : Option (List String)
  hasThis : Option Bool
  deriving Inhabited

/-- An instruction as it was written. -/
structure InstructionDump where
  offset : Number
  op : String
  field : Option FieldDump
  method : Option CallDump
  targets : Option (List Number)
  pop : Option Number
  push : Option Number
  flow : Option Flow
  deriving Inhabited

/-- What a method is, apart from its signature. -/
inductive MethodKind where
  | method
  | constructor
  | finalizer
  | getter
  | setter
  | eventAccessor
  deriving DecidableEq, Inhabited

namespace MethodKind

/-- Every kind. -/
def all : List MethodKind := [method, constructor, finalizer, getter, setter, eventAccessor]

/-- Written form. -/
def name : MethodKind → String
  | method => "method"
  | constructor => "constructor"
  | finalizer => "finalizer"
  | getter => "getter"
  | setter => "setter"
  | eventAccessor => "event-accessor"

/-- The kind of a written form. -/
def ofName? (text : String) : Option MethodKind := all.find? fun kind => kind.name = text

end MethodKind

/-- A parameter as it was written. -/
structure ParameterDump where
  name : Option String
  type : String
  deriving Inhabited

/-- A method as it was written. -/
structure MethodDump where
  name : String
  visibility : Option String
  isStatic : Option Bool
  kind : Option MethodKind
  returnType : Option String
  parameters : List ParameterDump
  attributes : List String
  body : List InstructionDump
  deriving Inhabited

/-- A type as it was written. -/
structure TypeDump where
  name : String
  baseType : Option String
  interfaces : List String
  attributes : List String
  methods : List MethodDump
  deriving Inhabited

/-- A module as it was written. -/
structure ModuleDump where
  name : String
  types : List TypeDump
  deriving Inhabited

/-! ## The shape of a dump -/

namespace Shape

/-- A name, which is a text that is not empty. -/
def nameText : Shape := .text true

/-- A list of names. -/
def names : Shape := .list false nameText

/-- A required member. -/
def required (name : String) (shape : Shape) : String × Bool × Shape := (name, true, shape)

/-- A member that may be left out. -/
def optional (name : String) (shape : Shape) : String × Bool × Shape := (name, false, shape)

end Shape

open Shape

/-- Shape of a field that an instruction names. -/
def FieldDump.shape : Shape := .record
  [required "declaringType" nameText, required "name" nameText, optional "fieldType" nameText]

/-- Shape of a method that an instruction names. -/
def CallDump.shape : Shape := .record
  [required "declaringType" nameText, required "name" nameText, optional "returnType" nameText,
    optional "parameters" names, optional "hasThis" .bool]

/-- Shape of an instruction. -/
def InstructionDump.shape : Shape := .record
  [required "offset" .count, required "op" nameText, optional "field" FieldDump.shape,
    optional "method" CallDump.shape, optional "targets" (.list true .count),
    optional "pop" .count, optional "push" .count,
    optional "flow" (.choice (Flow.all.map Flow.name))]

/-- Shape of a parameter. -/
def ParameterDump.shape : Shape := .record [optional "name" (.text false), required "type" nameText]

/-- Shape of a method. -/
def MethodDump.shape : Shape := .record
  [required "name" nameText,
    optional "visibility"
      (.choice ["public", "private", "family", "assembly", "famandassem", "famorassem"]),
    optional "static" .bool, optional "kind" (.choice (MethodKind.all.map MethodKind.name)),
    optional "returnType" nameText, optional "parameters" (.list false ParameterDump.shape),
    optional "attributes" (.list false (.text false)),
    optional "body" (.list false InstructionDump.shape)]

/-- Shape of a type. -/
def TypeDump.shape : Shape := .record
  [required "name" nameText, optional "baseType" nameText, optional "interfaces" names,
    optional "attributes" (.list false (.text false)),
    optional "methods" (.list false MethodDump.shape)]

/-- Shape of a module. -/
def ModuleDump.shape : Shape := .record
  [required "module" nameText, required "types" (.list false TypeDump.shape)]

/-! ## From values

A value is read for what it holds at the places of its shape. What a value
of another shape would give there does not matter, for such a value is
refused before. -/

namespace Value

/-- The text in a member. -/
def text? (v : Value) (name : String) : Option String :=
  match v.member? name with
  | some (.text s) => some s
  | _ => none

/-- The truth value in a member. -/
def bool? (v : Value) (name : String) : Option Bool :=
  match v.member? name with
  | some (.bool b) => some b
  | _ => none

/-- The number in a member. -/
def number? (v : Value) (name : String) : Option Number :=
  match v.member? name with
  | some (.number n) => some n
  | _ => none

/-- The list in a member. -/
def items? (v : Value) (name : String) : Option (List Value) :=
  match v.member? name with
  | some (.list items) => some items
  | _ => none

/-- The texts in a list. -/
def texts (items : List Value) : List String :=
  items.filterMap fun
    | .text s => some s
    | _ => none

/-- The numbers in a list. -/
def numbers (items : List Value) : List Number :=
  items.filterMap fun
    | .number n => some n
    | _ => none

end Value

/-- The field that a value names. -/
def FieldDump.ofValue (v : Value) : FieldDump where
  declaringType := (v.text? "declaringType").getD ""
  name := (v.text? "name").getD ""
  fieldType := v.text? "fieldType"

/-- The method that a value names. -/
def CallDump.ofValue (v : Value) : CallDump where
  declaringType := (v.text? "declaringType").getD ""
  name := (v.text? "name").getD ""
  returnType := v.text? "returnType"
  parameters := (v.items? "parameters").map Value.texts
  hasThis := v.bool? "hasThis"

/-- The instruction that a value describes. -/
def InstructionDump.ofValue (v : Value) : InstructionDump where
  offset := (v.number? "offset").getD 0
  op := (v.text? "op").getD ""
  field := (v.member? "field").map FieldDump.ofValue
  method := (v.member? "method").map CallDump.ofValue
  targets := (v.items? "targets").map Value.numbers
  pop := v.number? "pop"
  push := v.number? "push"
  flow := (v.text? "flow").bind Flow.ofName?

/-- The parameter that a value describes. -/
def ParameterDump.ofValue (v : Value) : ParameterDump where
  name := v.text? "name"
  type := (v.text? "type").getD ""

/-- The method that a value describes. -/
def MethodDump.ofValue (v : Value) : MethodDump where
  name := (v.text? "name").getD ""
  visibility := v.text? "visibility"
  isStatic := v.bool? "static"
  kind := (v.text? "kind").bind MethodKind.ofName?
  returnType := v.text? "returnType"
  parameters := ((v.items? "parameters").getD []).map ParameterDump.ofValue
  attributes := Value.texts ((v.items? "attributes").getD [])
  body := ((v.items? "body").getD []).map InstructionDump.ofValue

/-- The type that a value describes. -/
def TypeDump.ofValue (v : Value) : TypeDump where
  name := (v.text? "name").getD ""
  baseType := v.text? "baseType"
  interfaces := Value.texts ((v.items? "interfaces").getD [])
  attributes := Value.texts ((v.items? "attributes").getD [])
  methods := ((v.items? "methods").getD []).map MethodDump.ofValue

/-- The module that a value describes. -/
def ModuleDump.ofValue (v : Value) : ModuleDump where
  name := (v.text? "module").getD ""
  types := ((v.items? "types").getD []).map TypeDump.ofValue

end DisposalAudit
