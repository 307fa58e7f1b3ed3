import DisposalAudit.Body.Method
import DisposalAudit.Text.Search

/-!
# Codebases

The modules that are audited together, with the look-ups that rules make
over all of them. A name that is defined more than once stands for its last
definition, in the order in which the modules were loaded.

Code that a compiler or a tool has written is marked by an attribute, or by
a type name with an angle bracket, which no source language allows.

A dump may leave open whether a call passes an instance. Loading modules
together settles that for every call in them: the callee tells if it is
loaded, and a callee that is not loaded is taken for an instance method.
What a dump or an earlier load has settled stays.

## Main definitions

* `TypeDefinition`, `Module`, `Codebase` — the data.
* `isGeneratedAttribute`, `isGeneratedType` — the marks of generated code.
* `Codebase.findType?` — the definition of a type name.
* `Codebase.resolve?` — the method that a reference means.
* `Codebase.isGenerated` — whether a method is generated code.
* `MethodRef.settle`, `Method.mapRefs` — one reference, all of a method.
* `Codebase.link` — the codebase with every call settled.

## Main results

* `find?_reverse_eq_some_iff` — what the last entry of a kind is.
-/

namespace DisposalAudit

/-- A type of a module. -/
structure TypeDefinition where
  name : String
  baseType : Option String
  interfaces : List String
  attributes : List String
  methods : List Method
  deriving Inhabited

/-- A decoded module. -/
structure Module where
  name : String
  /-- Where the dump of the module was read from. -/
  source : String
  types : List TypeDefinition
  deriving Inhabited

/-- The modules of one audit, in loading order. -/
structure Codebase where
  modules : List Module
  deriving Inhabited

/-- What a rule may know about the callee of a reference. -/
structure Callee where
  declaringType : String
  name : String
  isPublic : Bool
  isStatic : Bool
  deriving DecidableEq, Inhabited

/-! ## Generated code -/

/-- Full names of the attributes that mark generated code. -/
def generatedAttributes : List String :=
  ["System.Runtime.CompilerServices.CompilerGeneratedAttribute",
    "System.CodeDom.Compiler.GeneratedCodeAttribute"]

/-- Whether an attribute marks generated code, by its full or short name, with
or without the ending of attribute names. -/
def isGeneratedAttribute (mark : String) : Bool :=
  let name :=
    if Text.endsWith mark "Attribute" then mark else mark ++ "Attribute"
  generatedAttributes.any fun full => full = name || Text.endsWith full ("." ++ name)

/-- Whether a type of that name with those attributes is generated. -/
def isGeneratedType (name : String) (attributes : List String) : Bool :=
  Text.contains name "<" || attributes.any isGeneratedAttribute

/-! ## References -/

/-- Written form of a reference; two references with the same written form
mean the same method. -/
def MethodRef.key (ref : MethodRef) : String :=
  referenceText ref.declaringType ref.name ref.parameters

namespace TypeDefinition

/-- The methods that references to this type can mean, under their written
forms. -/
def callees (t : TypeDefinition) : List (String × Callee) :=
  t.methods.map fun m =>
    (referenceText t.name m.name m.parameterTypes,
      ⟨t.name, m.name, m.flags.isPublic, m.flags.isStatic⟩)

end TypeDefinition

/-- The last definition of a type name in a list. -/
def lastType? (types : List TypeDefinition) (name : String) : Option TypeDefinition :=
  types.reverse.find? fun t => t.name = name

/-- The last callee under a written form. -/
def lastCallee? (callees : List (String × Callee)) (key : String) : Option Callee :=
  (callees.reverse.find? fun entry => entry.1 = key).map Prod.snd

/-- The last entry with a property is one that has no other behind it. -/
theorem find?_reverse_eq_some_iff {α : Type} {p : α → Bool} {l : List α} {x : α} :
    l.reverse.find? p = some x ↔
      ∃ before after, l = before ++ x :: after ∧ p x = true ∧ ∀ later ∈ after, p later = false := by
  rw [List.find?_eq_some_iff_append]
  constructor
  · rintro ⟨hx, after, before, hsplit, hlater⟩
    refine ⟨before.reverse, after.reverse, ?_, hx, fun later hmem => ?_⟩
    · rw [List.reverse_eq_iff.1 hsplit]
      simp
    · simpa using hlater later (List.mem_reverse.1 hmem)
  · rintro ⟨before, after, hsplit, hx, hlater⟩
    refine ⟨hx, after.reverse, before.reverse, by simp [hsplit], fun later hmem => ?_⟩
    simpa using hlater later (List.mem_reverse.1 hmem)

namespace Codebase

/-- All types, in loading order. -/
def types (c : Codebase) : List TypeDefinition := c.modules.flatMap Module.types

/-- All methods that references can mean, in loading order. -/
def callees (c : Codebase) : List (String × Callee) := c.types.flatMap TypeDefinition.callees

/-- Number of methods. -/
def countMethods (c : Codebase) : Nat := (c.types.flatMap TypeDefinition.methods).length

/-- The definition of a type name. -/
def findType? (c : Codebase) (name : String) : Option TypeDefinition := lastType? c.types name

/-- The method that a reference means, if it is loaded. -/
def resolve? (c : Codebase) (ref : MethodRef) : Option Callee := lastCallee? c.callees ref.key

/-- Whether a method is generated: by its own mark, or because the type of
the name that it was declared on is. -/
def isGenerated (c : Codebase) (m : Method) : Bool :=
  m.flags.isGenerated ||
    (c.findType? m.declaringType).any fun t => isGeneratedType t.name t.attributes

end Codebase

/-! ## Linking -/

/-- A reference that says whether it passes an instance. -/
def MethodRef.settle (resolve? : MethodRef → Option Callee) (ref : MethodRef) : MethodRef :=
  match ref.hasThis with
  | some _ => ref
  | none => { ref with hasThis := some ((resolve? ref).all fun callee => !callee.isStatic) }

/-- Changes the reference of an instruction that has one. -/
def Instruction.mapRef (f : MethodRef → MethodRef) (ins : Instruction) : Instruction :=
  match ins.operand with
  | .method ref => { ins with operand := .method (f ref) }
  | _ => ins

/-- Changes every reference in a body. -/
def Method.mapRefs (f : MethodRef → MethodRef) (m : Method) : Method :=
  { m with body := m.body.map (Instruction.mapRef f) }

/-- Changes every reference in a type. -/
def TypeDefinition.mapRefs (f : MethodRef → MethodRef) (t : TypeDefinition) : TypeDefinition :=
  { t with methods := t.methods.map (Method.mapRefs f) }

/-- Changes every reference in a module. -/
def Module.mapRefs (f : MethodRef → MethodRef) (m : Module) : Module :=
  { m with types := m.types.map (TypeDefinition.mapRefs f) }

namespace Codebase

/-- The codebase with every call settled. -/
def link (c : Codebase) : Codebase :=
  let callees := c.callees
  let settle := MethodRef.settle fun ref => lastCallee? callees ref.key
  ⟨c.modules.map (Module.mapRefs settle)⟩

/-- The codebase of freshly decoded modules. -/
def load (modules : List Module) : Codebase := link ⟨modules⟩

end Codebase

end DisposalAudit
