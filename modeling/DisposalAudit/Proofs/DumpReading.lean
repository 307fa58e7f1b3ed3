import DisposalAudit.Proofs.DumpShape
import DisposalAudit.Proofs.ViolationOrder
import Mathlib.Data.List.Forall2

/-!
# What a module says of its dump

A dump of the right shape is decoded part by part. Nothing that it declares
is lost or changes its place, and what it leaves out is the default: no
result, no parameters, no attributes, and for instructions what their names
say. A value of any other shape is answered with all its violations.

Below, a part of a module is compared with the value that it was decoded
from, member by member.

## Main definitions

* `Value.Enumerates` — a list that is described entry by entry.
* `Instruction.IsDescribedBy`, `Method.IsDescribedBy`,
  `TypeDefinition.IsDescribedBy`, `Module.IsDescribedBy` — the parts.

## Main results

* `ModuleDump.decode_isDescribedBy` — what is decoded of a dump.
* `Module.ofValue_describes` — which values are dumps, what is decoded, and
  how any other value is answered.
-/

namespace DisposalAudit

/-! ## Parts and the values that describe them -/

namespace Value

/-- What is written in a member, or the default if it is left out. -/
def memberOr (v : Value) (name : String) (default : Value) : Value :=
  (v.member? name).getD default

/-- A member is a list whose entries describe some things one by one, in
their order; without the member there are none. -/
def Enumerates {α : Type} (v : Value) (name : String) (describes : α → Value → Prop)
    (things : List α) : Prop :=
  ∃ values, v.memberOr name (.list []) = .list values ∧ List.Forall₂ describes things values

end Value

/-- A field, which holds objects unless its type is given. -/
structure FieldRef.IsDescribedBy (ref : FieldRef) (v : Value) : Prop where
  declaringType : v.member? "declaringType" = some (.text ref.declaringType)
  name : v.member? "name" = some (.text ref.name)
  fieldType : v.memberOr "fieldType" (.text "System.Object") = .text ref.fieldType

/-- A method that is called. Whether it takes an instance stays open if it
is not given. -/
structure MethodRef.IsDescribedBy (ref : MethodRef) (v : Value) : Prop where
  declaringType : v.member? "declaringType" = some (.text ref.declaringType)
  name : v.member? "name" = some (.text ref.name)
  returnType : v.memberOr "returnType" (.text voidType) = .text ref.returnType
  parameters : v.memberOr "parameters" (.list []) = .list (ref.parameters.map .text)
  hasThis : v.member? "hasThis" = ref.hasThis.map .bool

/-- The operand of an instruction: a method before a field, a field before
targets, and nothing if none is given. -/
def Operand.IsDescribedBy (operand : Operand) (v : Value) : Prop :=
  match operand with
  | .method ref => ∃ value, v.member? "method" = some value ∧ ref.IsDescribedBy value
  | .field ref => v.member? "method" = none ∧
    ∃ value, v.member? "field" = some value ∧ ref.IsDescribedBy value
  | .targets offsets => v.member? "method" = none ∧ v.member? "field" = none ∧
    v.member? "targets" = some (.list (offsets.map .number))
  | .nothing => v.member? "method" = none ∧ v.member? "field" = none ∧ v.member? "targets" = none

/-- What an instruction has from its name: its category, and the flow and
the counts that are not given. Counts are kept for the category without
known ones, if both are known. -/
structure Instruction.HasName (i : Instruction) (name : String) (v : Value) (isStatic : Bool)
    (returnType : String) : Prop where
  mnemonic : i.mnemonic = some name
  opcode : i.opcode = Mnemonic.category? (Mnemonic.fold name) isStatic
  flow : v.memberOr "flow" (.text (Mnemonic.flow (Mnemonic.fold name) i.operand).name) =
    .text i.flow.name
  stack : ∀ effect, i.stack = some effect ↔ i.opcode = some .other ∧
    (v.member? "pop").or ((Mnemonic.stackEffect? (Mnemonic.fold name) returnType).map
      fun known => .number known.pop) = some (.number effect.pop) ∧
    (v.member? "push").or ((Mnemonic.stackEffect? (Mnemonic.fold name) returnType).map
      fun known => .number known.push) = some (.number effect.push)

/-- An instruction of a method that is or is not static and returns a
type. -/
structure Instruction.IsDescribedBy (i : Instruction) (v : Value) (isStatic : Bool)
    (returnType : String) : Prop where
  offset : v.member? "offset" = some (.number i.offset)
  name : ∃ name, v.member? "op" = some (.text name) ∧ i.HasName name v isStatic returnType
  operand : i.operand.IsDescribedBy v

/-- A parameter by its place, from which it is called unless it has a
name. -/
structure Parameter.IsDescribedBy (p : Parameter) (index : Nat) (v : Value) : Prop where
  name : v.memberOr "name" (.text ("arg" ++ toString (index + 1))) = .text p.name
  type : v.member? "type" = some (.text p.type)

/-- The flags of a method by its kind, which is that of a constructor or of
a plain method unless it is given. -/
structure MethodFlags.HasKind (flags : MethodFlags) (kind : MethodKind) : Prop where
  isConstructor : flags.isConstructor = true ↔ kind = .constructor
  isFinalizer : flags.isFinalizer = true ↔ kind = .finalizer
  isPropertyGetter : flags.isPropertyGetter = true ↔ kind = .getter
  isEventAccessor : flags.isEventAccessor = true ↔ kind = .eventAccessor

/-- A method of a type, which may be generated as a whole. -/
structure Method.IsDescribedBy (m : Method) (v : Value) (type : String) (generatedType : Bool) :
    Prop where
  declaringType : m.declaringType = type
  name : v.member? "name" = some (.text m.name)
  returnType : v.memberOr "returnType" (.text voidType) = .text m.returnType
  parameters : v.Enumerates "parameters" (fun p value => p.1.IsDescribedBy p.2 value)
    m.parameters.zipIdx
  isPublic : m.flags.isPublic = true ↔ v.member? "visibility" = some (.text "public")
  isStatic : v.memberOr "static" (.bool false) = .bool m.flags.isStatic
  kind : ∃ kind, m.flags.HasKind kind ∧ v.memberOr "kind"
    (.text (if m.name = ".ctor" ∨ m.name = ".cctor" then "constructor" else "method")) =
      .text kind.name
  isGenerated : ∃ marks : List String,
    v.memberOr "attributes" (.list []) = .list (marks.map .text) ∧
      (m.flags.isGenerated = true ↔
        generatedType = true ∨ ∃ mark ∈ marks, isGeneratedAttribute mark = true)
  body : v.Enumerates "body" (fun i value => i.IsDescribedBy value m.flags.isStatic m.returnType)
    m.body

/-- A type with its methods. -/
structure TypeDefinition.IsDescribedBy (t : TypeDefinition) (v : Value) : Prop where
  name : v.member? "name" = some (.text t.name)
  baseType : v.member? "baseType" = t.baseType.map .text
  interfaces : v.memberOr "interfaces" (.list []) = .list (t.interfaces.map .text)
  attributes : v.memberOr "attributes" (.list []) = .list (t.attributes.map .text)
  methods : v.Enumerates "methods"
    (fun m value => m.IsDescribedBy value t.name (isGeneratedType t.name t.attributes)) t.methods

/-- A module with its types. -/
structure Module.IsDescribedBy (m : Module) (v : Value) : Prop where
  name : v.member? "module" = some (.text m.name)
  types : v.Enumerates "types" TypeDefinition.IsDescribedBy m.types

/-! ## Members of a value that has its shape -/

namespace Shape.Admits

variable {v : Value} {name : String} {isRequired nonempty : Bool} {item : Shape}
  {fields : List (String × Bool × Shape)}

/-- Below, a member is looked up in its shape, which is a computation; that it
is among the members of the shape would have to be proved each time. -/
theorem mem_of_lookup {shape : Shape} (h : fields.lookup name = some (isRequired, shape)) :
    (name, isRequired, shape) ∈ fields := by
  obtain ⟨before, after, rfl, -⟩ := List.lookup_eq_some_iff.1 h
  simp

theorem text_member (h : (Shape.record fields).Admits v)
    (hfield : fields.lookup name = some (isRequired, .text nonempty)) :
    v.member? name = (v.text? name).map .text := by
  unfold Value.text?
  cases hpart : v.member? name with
  | none => rfl
  | some part =>
      obtain ⟨s, rfl, -⟩ := (h.member (mem_of_lookup hfield) hpart).text
      rfl

theorem text_required (h : (Shape.record fields).Admits v)
    (hfield : fields.lookup name = some (true, .text nonempty)) :
    v.member? name = some (.text ((v.text? name).getD "")) := by
  obtain ⟨s, hs, -⟩ := h.isSome_text (mem_of_lookup hfield)
  rw [h.text_member hfield, hs]
  rfl

/-- A choice in a member is one of the things that are chosen from. -/
theorem choice_member {α : Type} {ofName? : String → Option α} {nameOf : α → String}
    {names : List String} (h : (Shape.record fields).Admits v)
    (hfield : fields.lookup name = some (isRequired, .choice names))
    (hnames : ∀ s ∈ names, (ofName? s).map nameOf = some s) :
    v.member? name = ((v.text? name).bind ofName?).map fun a => .text (nameOf a) := by
  unfold Value.text?
  cases hpart : v.member? name with
  | none => rfl
  | some part =>
      cases admits_iff.1 (h.member (mem_of_lookup hfield) hpart) with
      | choice listed =>
          have hname := congrArg (Option.map Value.text) (hnames _ listed)
          rw [Option.map_map] at hname
          exact hname.symm

theorem bool_member (h : (Shape.record fields).Admits v)
    (hfield : fields.lookup name = some (isRequired, .bool)) :
    v.member? name = (v.bool? name).map .bool := by
  unfold Value.bool?
  cases hpart : v.member? name with
  | none => rfl
  | some part =>
      cases admits_iff.1 (h.member (mem_of_lookup hfield) hpart) with
      | bool => rfl

theorem number_member (h : (Shape.record fields).Admits v)
    (hfield : fields.lookup name = some (isRequired, .count)) :
    v.member? name = (v.number? name).map .number := by
  unfold Value.number?
  cases hpart : v.member? name with
  | none => rfl
  | some part =>
      obtain ⟨n, rfl, -⟩ := (h.member (mem_of_lookup hfield) hpart).count
      rfl

theorem number_required (h : (Shape.record fields).Admits v)
    (hfield : fields.lookup name = some (true, .count)) :
    v.member? name = some (.number ((v.number? name).getD 0)) := by
  obtain ⟨n, hn⟩ := h.isSome_number (mem_of_lookup hfield)
  rw [h.number_member hfield, hn]
  rfl

theorem items_member (h : (Shape.record fields).Admits v)
    (hfield : fields.lookup name = some (isRequired, .list nonempty item)) :
    v.member? name = (v.items? name).map .list := by
  unfold Value.items?
  cases hpart : v.member? name with
  | none => rfl
  | some part =>
      obtain ⟨parts, rfl, -⟩ := (h.member (mem_of_lookup hfield) hpart).items
      rfl

/-- A list in a member is written as it is read, entry by entry. -/
theorem list_member {α : Type} {read : List Value → List α} {write : α → Value}
    (h : (Shape.record fields).Admits v)
    (hfield : fields.lookup name = some (isRequired, .list nonempty item))
    (hread : ∀ values, (∀ value ∈ values, item.Admits value) → (read values).map write = values) :
    v.member? name = ((v.items? name).map read).map fun things => .list (things.map write) := by
  have hitems := h.listed (mem_of_lookup hfield)
  rw [h.items_member hfield]
  cases hvalues : v.items? name with
  | none => rfl
  | some values =>
      rw [hvalues] at hitems
      rw [Option.map_some, Option.map_some, Option.map_some, hread values hitems]

/-- Entries that are all read are written again as they were. -/
theorem map_filterMap_eq {α : Type} {read : Value → Option α} {write : α → Value}
    {values : List Value} (h : ∀ value ∈ values, ∃ a, read value = some a ∧ write a = value) :
    (values.filterMap read).map write = values := by
  induction values with
  | nil => rfl
  | cons value rest ih =>
      obtain ⟨⟨a, hread, hwrite⟩, hrest⟩ := List.forall_mem_cons.1 h
      rw [List.filterMap_cons_some hread, List.map_cons, hwrite, ih hrest]

theorem map_texts {values : List Value} (h : ∀ value ∈ values, (Shape.text nonempty).Admits value) :
    (Value.texts values).map .text = values := by
  refine map_filterMap_eq fun value hvalue => ?_
  obtain ⟨s, rfl, -⟩ := (h value hvalue).text
  exact ⟨s, rfl, rfl⟩

theorem map_numbers {values : List Value} (h : ∀ value ∈ values, Shape.count.Admits value) :
    (Value.numbers values).map .number = values := by
  refine map_filterMap_eq fun value hvalue => ?_
  obtain ⟨n, rfl, -⟩ := (h value hvalue).count
  exact ⟨n, rfl, rfl⟩

theorem texts_member {nonemptyItems : Bool} (h : (Shape.record fields).Admits v)
    (hfield : fields.lookup name = some (isRequired, .list nonempty (.text nonemptyItems))) :
    v.memberOr name (.list []) =
      .list ((Value.texts ((v.items? name).getD [])).map .text) := by
  rw [Value.memberOr, h.list_member hfield fun _ => map_texts, Option.map_map]
  exact Option.getD_map (fun values => Value.list ((Value.texts values).map .text)) [] _

theorem items_memberOr (h : (Shape.record fields).Admits v)
    (hfield : fields.lookup name = some (isRequired, .list nonempty item)) :
    v.memberOr name (.list []) = .list ((v.items? name).getD []) := by
  rw [Value.memberOr, h.items_member hfield]
  exact Option.getD_map Value.list [] _

/-- What is read of the entries of a list is described by them. -/
theorem enumerates {α : Type} {describes : α → Value → Prop} {read : Value → α}
    (h : (Shape.record fields).Admits v)
    (hfield : fields.lookup name = some (isRequired, .list nonempty item))
    (hread : ∀ value, item.Admits value → describes (read value) value) :
    v.Enumerates name describes (((v.items? name).getD []).map read) := by
  refine ⟨_, h.items_memberOr hfield, ?_⟩
  rw [List.forall₂_map_left_iff, List.forall₂_same]
  exact fun value hvalue => hread value (h.listed (mem_of_lookup hfield) value hvalue)

end Shape.Admits

/-! ## What is decoded -/

namespace Value

variable {v : Value} {name : String}

/-- A default takes the place of what is not given. -/
theorem memberOr_eq {α : Type} {given : Option α} {write : α → Value}
    (h : v.member? name = given.map write) (default : α) :
    v.memberOr name (write default) = write (given.getD default) := by
  rw [memberOr, h, Option.getD_map]

theorem text?_eq_some_iff {s : String} :
    v.text? name = some s ↔ v.member? name = some (.text s) := by
  unfold text?
  cases v.member? name with
  | none => simp
  | some part => cases part <;> simp

end Value

theorem FieldDump.decode_isDescribedBy {v : Value} (h : FieldDump.shape.Admits v) :
    (FieldDump.ofValue v).decode.IsDescribedBy v where
  declaringType := h.text_required rfl
  name := h.text_required rfl
  fieldType := Value.memberOr_eq (h.text_member rfl) _

theorem CallDump.decode_isDescribedBy {v : Value} (h : CallDump.shape.Admits v) :
    (CallDump.ofValue v).decode.IsDescribedBy v where
  declaringType := h.text_required rfl
  name := h.text_required rfl
  returnType := Value.memberOr_eq (h.text_member rfl) _
  parameters := by
    show _ = Value.list ((((v.items? "parameters").map Value.texts).getD []).map .text)
    rw [h.texts_member rfl, ← Option.getD_map Value.texts [] _]
    rfl
  hasThis := h.bool_member rfl

theorem InstructionDump.operand_isDescribedBy {v : Value} (h : InstructionDump.shape.Admits v) :
    (InstructionDump.ofValue v).operand.IsDescribedBy v := by
  have htargets : v.member? "targets" =
      (InstructionDump.ofValue v).targets.map fun offsets => .list (offsets.map .number) :=
    h.list_member rfl fun _ => Shape.Admits.map_numbers
  unfold InstructionDump.operand
  cases hmethod : v.member? "method" with
  | some value =>
      have hvalue : CallDump.shape.Admits value :=
        h.member (Shape.Admits.mem_of_lookup rfl) hmethod
      simp only [InstructionDump.ofValue, hmethod, Option.map_some]
      exact ⟨value, hmethod, CallDump.decode_isDescribedBy hvalue⟩
  | none =>
      cases hfield : v.member? "field" with
      | some value =>
          have hvalue : FieldDump.shape.Admits value :=
            h.member (Shape.Admits.mem_of_lookup rfl) hfield
          simp only [InstructionDump.ofValue, hmethod, hfield, Option.map_some, Option.map_none]
          exact ⟨hmethod, value, hfield, FieldDump.decode_isDescribedBy hvalue⟩
      | none =>
          cases hoffsets : (InstructionDump.ofValue v).targets with
          | some offsets =>
              rw [hoffsets] at htargets
              simp only [InstructionDump.ofValue, hmethod, hfield, Option.map_none]
              exact ⟨hmethod, hfield, htargets⟩
          | none =>
              rw [hoffsets] at htargets
              simp only [InstructionDump.ofValue, hmethod, hfield, Option.map_none]
              exact ⟨hmethod, hfield, htargets⟩

theorem InstructionDump.stackEffect?_eq_some_iff {d : InstructionDump} {op returnType : String}
    {effect : StackEffect} :
    d.stackEffect? op returnType = some effect ↔
      d.pop.or ((Mnemonic.stackEffect? op returnType).map StackEffect.pop) = some effect.pop ∧
        d.push.or ((Mnemonic.stackEffect? op returnType).map StackEffect.push) =
          some effect.push := by
  obtain ⟨pop, push⟩ := effect
  unfold stackEffect?
  dsimp only
  split
  · rename_i hpop hpush
    rw [hpop, hpush, Option.some.injEq, StackEffect.mk.injEq, Option.some.injEq,
      Option.some.injEq]
  · rename_i hneither
    simp only [reduceCtorEq, false_iff, not_and]
    exact fun hpop hpush => hneither pop push hpop hpush

theorem Flow.ofName?_name :
    ∀ s ∈ Flow.all.map Flow.name, (Flow.ofName? s).map Flow.name = some s := by
  decide

theorem MethodKind.ofName?_name :
    ∀ s ∈ MethodKind.all.map MethodKind.name,
      (MethodKind.ofName? s).map MethodKind.name = some s := by
  decide

/-- A count is the given one before the known one. -/
theorem Value.or_number_eq_some_iff {given known : Option Number} {n : Number} :
    (given.map Value.number).or (known.map Value.number) = some (.number n) ↔
      given.or known = some n := by
  cases given <;> cases known <;> simp

theorem InstructionDump.stack_decode_iff {v : Value} (h : InstructionDump.shape.Admits v)
    {isStatic : Bool} {returnType : String} {known : Option StackEffect}
    (hknown : known =
      Mnemonic.stackEffect? (Mnemonic.fold (InstructionDump.ofValue v).op) returnType)
    (effect : StackEffect) :
    ((InstructionDump.ofValue v).decode isStatic returnType).stack = some effect ↔
      ((InstructionDump.ofValue v).decode isStatic returnType).opcode = some .other ∧
        (v.member? "pop").or (known.map fun e => .number e.pop) = some (.number effect.pop) ∧
        (v.member? "push").or (known.map fun e => .number e.push) = some (.number effect.push) := by
  have hpop : v.member? "pop" = (InstructionDump.ofValue v).pop.map .number :=
    h.number_member rfl
  have hpush : v.member? "push" = (InstructionDump.ofValue v).push.map .number :=
    h.number_member rfl
  have hknownPop : (known.map fun e => Value.number e.pop) =
      (known.map StackEffect.pop).map .number := by rw [Option.map_map]; rfl
  have hknownPush : (known.map fun e => Value.number e.push) =
      (known.map StackEffect.push).map .number := by rw [Option.map_map]; rfl
  rw [hpop, hpush, hknownPop, hknownPush, Value.or_number_eq_some_iff,
    Value.or_number_eq_some_iff, hknown, ← stackEffect?_eq_some_iff]
  unfold InstructionDump.decode
  dsimp only
  split
  · rename_i hother
    simp only [hother, true_and]
  · rename_i hother
    simp only [hother, false_and, reduceCtorEq]

theorem InstructionDump.decode_isDescribedBy {v : Value} (h : InstructionDump.shape.Admits v)
    (isStatic : Bool) (returnType : String) :
    ((InstructionDump.ofValue v).decode isStatic returnType).IsDescribedBy v isStatic
      returnType where
  offset := h.number_required rfl
  name := by
    have hflow : v.member? "flow" =
        (InstructionDump.ofValue v).flow.map fun flow => .text flow.name :=
      h.choice_member rfl Flow.ofName?_name
    exact ⟨_, h.text_required rfl, rfl, rfl, Value.memberOr_eq hflow _, stack_decode_iff h rfl⟩
  operand := operand_isDescribedBy h

theorem ParameterDump.isDescribedBy {v : Value} (h : ParameterDump.shape.Admits v) (index : Nat) :
    (⟨(ParameterDump.ofValue v).name.getD ("arg" ++ toString (index + 1)),
      (ParameterDump.ofValue v).type⟩ : Parameter).IsDescribedBy index v where
  name := Value.memberOr_eq (h.text_member rfl) _
  type := h.text_required rfl

theorem MethodDump.kind_isDescribedBy {v : Value} (h : MethodDump.shape.Admits v) :
    v.memberOr "kind" (.text (if (MethodDump.ofValue v).name = ".ctor" ∨
      (MethodDump.ofValue v).name = ".cctor" then "constructor" else "method")) =
        .text (MethodDump.ofValue v).kindOrDefault.name := by
  have hkind : v.member? "kind" = (MethodDump.ofValue v).kind.map fun kind => .text kind.name :=
    h.choice_member rfl MethodKind.ofName?_name
  rw [MethodDump.kindOrDefault, ← Value.memberOr_eq hkind]
  split <;> rfl

theorem MethodDump.decode_isDescribedBy {v : Value} (h : MethodDump.shape.Admits v)
    (type : String) (generatedType : Bool) :
    ((MethodDump.ofValue v).decode type generatedType).IsDescribedBy v type generatedType where
  declaringType := rfl
  name := h.text_required rfl
  returnType := Value.memberOr_eq (h.text_member rfl) _
  parameters := by
    refine ⟨_, h.items_memberOr rfl, List.forall₂_iff_get.2 ⟨?_, fun i hi hi' => ?_⟩⟩
    · simp [decode, MethodDump.ofValue]
    · have hvalue := h.listed (Shape.Admits.mem_of_lookup rfl) _ (List.getElem_mem hi')
      simpa [decode, MethodDump.ofValue] using ParameterDump.isDescribedBy hvalue i
  isPublic := by
    show decide _ = true ↔ _
    rw [decide_eq_true_iff]
    exact Value.text?_eq_some_iff
  isStatic := Value.memberOr_eq (h.bool_member rfl) _
  kind := ⟨_, ⟨by simp [decode], by simp [decode], by simp [decode], by simp [decode]⟩,
    kind_isDescribedBy h⟩
  isGenerated := by
    refine ⟨_, h.texts_member rfl, ?_⟩
    show (generatedType || _) = true ↔ _
    rw [Bool.or_eq_true, List.any_eq_true]
    rfl
  body := by
    show v.Enumerates "body" _ ((((v.items? "body").getD []).map InstructionDump.ofValue).map _)
    rw [List.map_map]
    exact h.enumerates rfl fun value hvalue => InstructionDump.decode_isDescribedBy hvalue _ _

theorem TypeDump.decode_isDescribedBy {v : Value} (h : TypeDump.shape.Admits v) :
    (TypeDump.ofValue v).decode.IsDescribedBy v where
  name := h.text_required rfl
  baseType := h.text_member rfl
  interfaces := h.texts_member rfl
  attributes := h.texts_member rfl
  methods := by
    show v.Enumerates "methods" _ ((((v.items? "methods").getD []).map MethodDump.ofValue).map _)
    rw [List.map_map]
    exact h.enumerates rfl fun value hvalue => MethodDump.decode_isDescribedBy hvalue _ _

theorem ModuleDump.decode_isDescribedBy {v : Value} (h : ModuleDump.shape.Admits v)
    (source : String) : ((ModuleDump.ofValue v).decode source).IsDescribedBy v where
  name := h.text_required rfl
  types := by
    show v.Enumerates "types" _ ((((v.items? "types").getD []).map TypeDump.ofValue).map _)
    rw [List.map_map]
    exact h.enumerates rfl fun value hvalue => TypeDump.decode_isDescribedBy hvalue

/-! ## Reading a dump -/

open Shape

theorem FieldDump.shape_isProper : FieldDump.shape.IsProper := by
  refine .record (by decide) (by decide) ?_
  simp only [List.forall_mem_cons]
  exact ⟨.text, .text, .text, by simp⟩

theorem CallDump.shape_isProper : CallDump.shape.IsProper := by
  refine .record (by decide) (by decide) ?_
  simp only [List.forall_mem_cons]
  exact ⟨.text, .text, .text, .list .text, .bool, by simp⟩

theorem InstructionDump.shape_isProper : InstructionDump.shape.IsProper := by
  refine .record (by decide) (by decide) ?_
  simp only [List.forall_mem_cons]
  exact ⟨.count, .text, FieldDump.shape_isProper, CallDump.shape_isProper, .list .count, .count,
    .count, .choice, by simp⟩

theorem ParameterDump.shape_isProper : ParameterDump.shape.IsProper := by
  refine .record (by decide) (by decide) ?_
  simp only [List.forall_mem_cons]
  exact ⟨.text, .text, by simp⟩

theorem MethodDump.shape_isProper : MethodDump.shape.IsProper := by
  refine .record (by decide) (by decide) ?_
  simp only [List.forall_mem_cons]
  exact ⟨.text, .choice, .bool, .choice, .text, .list ParameterDump.shape_isProper, .list .text,
    .list InstructionDump.shape_isProper, by simp⟩

theorem TypeDump.shape_isProper : TypeDump.shape.IsProper := by
  refine .record (by decide) (by decide) ?_
  simp only [List.forall_mem_cons]
  exact ⟨.text, .text, .list .text, .list .text, .list MethodDump.shape_isProper, by simp⟩

theorem ModuleDump.shape_isProper : ModuleDump.shape.IsProper := by
  refine .record (by decide) (by decide) ?_
  simp only [List.forall_mem_cons]
  exact ⟨.text, .list TypeDump.shape_isProper, by simp⟩

end DisposalAudit
