import DisposalAudit.Dump.Decode
import DisposalAudit.Proofs.ShapeViolations

/-!
# What the shape of dumps promises

A value without violations holds at every place what the shape says there.
What the check of bodies needs to know of a dump is that its counts are
counts, or the infinity above them: an offset is always written, and no number
of values is negative.

## Main definitions

* `Shape.Admits` — a value has a shape.
* `InstructionDump.HasCounts` — the numbers of an instruction are counts.

## Main results

* `Shape.admits_iff` — the values that have a shape.
* `Shape.Admits.member`, `Shape.Admits.items` — parts have their shapes.
* `Module.ofValue_eq_ok_iff` — the values that describe a module.
* `ModuleDump.hasCounts_ofValue` — instructions of a dump have counts.
-/

namespace DisposalAudit

namespace Shape

/-- The value has the shape. Violations are reported with paths, but where
the value stands does not decide whether there are any. -/
def Admits (shape : Shape) (value : Value) : Prop := ∃ path, shape.violations path value = []

variable {value part : Value} {name : String} {isRequired nonempty : Bool}
  {shape item : Shape} {fields : List (String × Bool × Shape)}

theorem admits_iff : shape.Admits value ↔ shape.Conforms value := by
  rw [← violations_eq_nil_iff]
  constructor
  · rintro ⟨path, h⟩
    rw [violations_under, List.map_eq_nil_iff] at h
    exact h
  · exact fun h => ⟨[], h⟩

namespace Admits

theorem text (h : (Shape.text nonempty).Admits value) :
    ∃ s, value = .text s ∧ (nonempty = true → s ≠ "") := by
  cases admits_iff.1 h with
  | text given => exact ⟨_, rfl, given⟩

theorem count (h : Shape.count.Admits value) : ∃ n, value = .number n ∧ (n.IsCount ∨ n.IsLimit) := by
  cases admits_iff.1 h with
  | count isCount => exact ⟨_, rfl, isCount⟩

theorem items (h : (Shape.list nonempty item).Admits value) :
    ∃ parts, value = .list parts ∧ ∀ part ∈ parts, item.Admits part := by
  cases admits_iff.1 h with
  | list _ items => exact ⟨_, rfl, fun part hpart => admits_iff.2 (items part hpart)⟩

theorem member (h : (Shape.record fields).Admits value)
    (hfield : (name, isRequired, shape) ∈ fields) (hpart : value.member? name = some part) :
    shape.Admits part := by
  cases admits_iff.1 h with
  | record _ _ parts => exact admits_iff.2 (parts _ hfield part hpart)

theorem isSome_member (h : (Shape.record fields).Admits value)
    (hfield : (name, true, shape) ∈ fields) : ∃ part, value.member? name = some part := by
  cases admits_iff.1 h with
  | record required => exact Option.ne_none_iff_exists'.1 (required _ hfield rfl)

theorem number (h : (Shape.record fields).Admits value)
    (hfield : (name, isRequired, Shape.count) ∈ fields) {n : Number}
    (hn : value.number? name = some n) : n.IsCount ∨ n.IsLimit := by
  unfold Value.number? at hn
  split at hn
  · rename_i k hpart
    obtain ⟨_, heq, hcount⟩ := (h.member hfield hpart).count
    cases heq
    cases hn
    exact hcount
  · cases hn

theorem isSome_number (h : (Shape.record fields).Admits value)
    (hfield : (name, true, Shape.count) ∈ fields) : ∃ n, value.number? name = some n := by
  obtain ⟨part, hpart⟩ := h.isSome_member hfield
  obtain ⟨n, rfl, -⟩ := (h.member hfield hpart).count
  refine ⟨n, ?_⟩
  unfold Value.number?
  rw [hpart]

theorem isSome_text (h : (Shape.record fields).Admits value)
    (hfield : (name, true, Shape.text nonempty) ∈ fields) :
    ∃ s, value.text? name = some s ∧ (nonempty = true → s ≠ "") := by
  obtain ⟨part, hpart⟩ := h.isSome_member hfield
  obtain ⟨s, rfl, hnonempty⟩ := (h.member hfield hpart).text
  refine ⟨s, ?_, hnonempty⟩
  unfold Value.text?
  rw [hpart]

theorem listed (h : (Shape.record fields).Admits value)
    (hfield : (name, isRequired, Shape.list nonempty item) ∈ fields) :
    ∀ part ∈ (value.items? name).getD [], item.Admits part := by
  unfold Value.items?
  split
  · rename_i parts hpart
    obtain ⟨_, heq, hparts⟩ := (h.member hfield hpart).items
    cases heq
    exact hparts
  · intro part hpart
    cases hpart

end Admits

end Shape

/-! ## Dumps -/

/-- Offset and numbers of values of an instruction are counts, or the infinity
above them. -/
structure InstructionDump.HasCounts (d : InstructionDump) : Prop where
  offset : d.offset.IsCount ∨ d.offset.IsLimit
  pop : ∀ n, d.pop = some n → n.IsCount ∨ n.IsLimit
  push : ∀ n, d.push = some n → n.IsCount ∨ n.IsLimit

theorem InstructionDump.hasCounts_ofValue {v : Value} (h : InstructionDump.shape.Admits v) :
    (InstructionDump.ofValue v).HasCounts where
  offset := by
    obtain ⟨n, hn⟩ := h.isSome_number (show ("offset", true, Shape.count) ∈ _ from .head _)
    have hoffset : (InstructionDump.ofValue v).offset = n := by
      show (v.number? "offset").getD 0 = n
      rw [hn, Option.getD_some]
    rw [hoffset]
    exact h.number (show ("offset", true, Shape.count) ∈ _ from .head _) hn
  pop _ hn :=
    h.number (show ("pop", false, Shape.count) ∈ _ by simp [Shape.optional]) hn
  push _ hn :=
    h.number (show ("push", false, Shape.count) ∈ _ by simp [Shape.optional]) hn

/-- The methods of a dump are described by values that have the shape of
methods. -/
theorem ModuleDump.exists_value_of_mem {v : Value} (h : ModuleDump.shape.Admits v) {type : TypeDump}
    (htype : type ∈ (ModuleDump.ofValue v).types) {method : MethodDump}
    (hmethod : method ∈ type.methods) :
    ∃ value, MethodDump.shape.Admits value ∧ method = MethodDump.ofValue value := by
  obtain ⟨typeValue, htypeValue, rfl⟩ := List.mem_map.1 htype
  have htypeShape : TypeDump.shape.Admits typeValue :=
    h.listed (show ("types", true, Shape.list false TypeDump.shape) ∈ _ by simp [Shape.required])
      typeValue htypeValue
  obtain ⟨methodValue, hmethodValue, rfl⟩ := List.mem_map.1 hmethod
  have hmethodShape : MethodDump.shape.Admits methodValue :=
    htypeShape.listed
      (show ("methods", false, Shape.list false MethodDump.shape) ∈ _ by simp [Shape.optional])
      methodValue hmethodValue
  exact ⟨methodValue, hmethodShape, rfl⟩

theorem ModuleDump.hasCounts_ofValue {v : Value} (h : ModuleDump.shape.Admits v) :
    ∀ type ∈ (ModuleDump.ofValue v).types, ∀ method ∈ type.methods, ∀ ins ∈ method.body,
      ins.HasCounts := by
  intro type htype method hmethod ins hins
  obtain ⟨methodValue, hmethodShape, rfl⟩ := ModuleDump.exists_value_of_mem h htype hmethod
  obtain ⟨insValue, hinsValue, rfl⟩ := List.mem_map.1 hins
  have hinsShape : InstructionDump.shape.Admits insValue :=
    hmethodShape.listed
      (show ("body", false, Shape.list false InstructionDump.shape) ∈ _ by simp [Shape.optional])
      insValue hinsValue
  exact InstructionDump.hasCounts_ofValue hinsShape

/-- The parameters of a dump have types with a name. -/
theorem ModuleDump.parameter_type_ne_empty {v : Value} (h : ModuleDump.shape.Admits v) :
    ∀ type ∈ (ModuleDump.ofValue v).types, ∀ method ∈ type.methods, ∀ p ∈ method.parameters,
      p.type ≠ "" := by
  intro type htype method hmethod p hp
  obtain ⟨methodValue, hmethodShape, rfl⟩ := ModuleDump.exists_value_of_mem h htype hmethod
  obtain ⟨value, hvalue, rfl⟩ := List.mem_map.1 hp
  have hshape : ParameterDump.shape.Admits value :=
    hmethodShape.listed
      (show ("parameters", false, Shape.list false ParameterDump.shape) ∈ _ by
        simp [Shape.optional])
      value hvalue
  obtain ⟨s, hs, hnonempty⟩ :=
    hshape.isSome_text (show ("type", true, Shape.nameText) ∈ _ by simp [Shape.required])
  show (value.text? "type").getD "" ≠ ""
  rw [hs, Option.getD_some]
  exact hnonempty rfl

/-- The values that describe a module are those of the shape of dumps. -/
theorem Module.ofValue_eq_ok_iff {source : String} {value : Value} {m : Module} :
    Module.ofValue source value = .ok m ↔
      ModuleDump.shape.violations [] value = [] ∧ m = (ModuleDump.ofValue value).decode source := by
  unfold Module.ofValue
  cases ModuleDump.shape.violations [] value with
  | nil =>
      rw [Except.ok.injEq, eq_comm]
      simp
  | cons violation rest => simp

end DisposalAudit
