import DisposalAudit.Body.Validity
import DisposalAudit.Proofs.WholeCounts
import Mathlib.Tactic.MkIffOfInductiveProp

/-!
# Bodies without a flaw

The check for flaws takes the instructions one by one and keeps only the
offset before. What it accepts can be said of the body as a whole: no
instruction has to be looked at before another.

## Main definitions

* `Instruction.Fits` — operand and stack effect are those of the category.

## Main results

* `Instruction.fits_iff_category` — what fits, category by category.
* `Method.hasValidBody_iff` — the bodies without a flaw.
-/

namespace DisposalAudit

/-! ## One instruction -/

namespace Instruction

/-- The operand has the kind that the category asks for, and the stack
effect is known and takes and gives no negative number of values. -/
@[mk_iff]
structure Fits (ins : Instruction) : Prop where
  operand : ∀ kind, ins.expectedOperand? = some kind → ins.operand.kind = kind
  counts : ∃ effect, ins.stackEffect? = some effect ∧ ¬ effect.pop < 0 ∧ ¬ effect.push < 0

variable {ins : Instruction} {previous : Number} {offsets : List Number}

theorem operandFlaw?_eq_none_iff :
    flaw?.operandFlaw? ins = none ↔
      ∀ kind, ins.expectedOperand? = some kind → ins.operand.kind = kind := by
  unfold flaw?.operandFlaw?
  cases hopcode : ins.opcode with
  | none => simp [expectedOperand?, hopcode]
  | some opcode =>
      cases hexpected : ins.expectedOperand? with
      | none => simp
      | some kind =>
          by_cases hkind : ins.operand.kind = kind <;> simp [hkind]

theorem flaw?_eq_none_iff :
    ins.flaw? previous = none ↔ (previous < ins.offset ∧ ins.offset.IsInteger) ∧ ins.Fits := by
  unfold flaw?
  by_cases hoffset : ins.offset.IsInteger ∧ previous < ins.offset
  · rw [if_neg (not_not_intro hoffset)]
    rw [and_iff_right hoffset.symm, fits_iff, ← operandFlaw?_eq_none_iff]
    cases flaw?.operandFlaw? ins with
    | some flaw => simp
    | none =>
        cases ins.stackEffect? with
        | none => simp
        | some effect => simp [not_or]
  · rw [if_pos hoffset]
    simp only [reduceCtorEq, false_iff]
    intro hall
    obtain ⟨h, -⟩ := hall
    exact hoffset h.symm

/-- No arity is negative, so outside of `other` the kind of the operand
decides alone. -/
theorem fits_iff_category :
    ins.Fits ↔
      match ins.opcode with
      | some .callDirect | some .callVirtual | some .construct => ins.operand.kind = .method
      | some .loadField | some .storeField | some .loadFieldAddress => ins.operand.kind = .field
      | some .loadSelf => ins.operand.kind = .nothing
      | some .other => ∃ effect, ins.stack = some effect ∧ ¬ effect.pop < 0 ∧ ¬ effect.push < 0
      | none => False := by
  have harity : ∀ n, ¬ Number.ofNat n < 0 := fun n => (Number.isCount_ofNat n).2
  have hzero : ¬ (0 : Number) < 0 := harity 0
  have hone : ¬ (1 : Number) < 0 := harity 1
  have htwo : ¬ (2 : Number) < 0 := harity 2
  rw [fits_iff]
  obtain ⟨offset, opcode, operand, flow, stack, mnemonic⟩ := ins
  cases opcode with
  | none => simp [stackEffect?]
  | some opcode =>
      cases opcode <;> cases operand <;>
        simp [expectedOperand?, stackEffect?, Operand.kind, MethodRef.arity, harity, hzero, hone,
          htwo]
      all_goals split <;> assumption

theorem dangling?_eq_none_iff :
    ins.dangling? offsets = none ↔ ∀ target ∈ ins.targets, target ∈ offsets := by
  unfold dangling?
  rw [Option.map_eq_none_iff, List.find?_eq_none]
  simp

end Instruction

/-! ## Whole bodies -/

/-- The offset before is all that the check hands on, and by transitivity it
stands for all offsets before. -/
theorem firstOwnFlaw?_eq_none_iff {previous : Number} {index : Nat} {body : List Instruction} :
    firstOwnFlaw? previous index body = none ↔
      (∀ ins ∈ body, (previous < ins.offset ∧ ins.offset.IsInteger) ∧ ins.Fits) ∧
        (body.map Instruction.offset).Pairwise (· < ·) := by
  induction body generalizing previous index with
  | nil => simp [firstOwnFlaw?]
  | cons ins rest ih =>
      rw [firstOwnFlaw?, List.map_cons, List.pairwise_cons, List.forall_mem_cons]
      cases hflaw : ins.flaw? previous with
      | some flaw =>
          simp only [reduceCtorEq, false_iff]
          intro hall
          obtain ⟨⟨hins, -⟩, -⟩ := hall
          rw [Instruction.flaw?_eq_none_iff.2 hins] at hflaw
          cases hflaw
      | none =>
          have hins := Instruction.flaw?_eq_none_iff.1 hflaw
          dsimp only
          rw [ih, List.forall_mem_map]
          constructor
          · intro hall
            obtain ⟨hrest, hsorted⟩ := hall
            refine ⟨⟨hins, fun other hother => ?_⟩, fun other hother => (hrest other hother).1.1,
              hsorted⟩
            obtain ⟨⟨hlt, hinteger⟩, hfits⟩ := hrest other hother
            exact ⟨⟨Number.lt_trans hins.1.1 hlt, hinteger⟩, hfits⟩
          · intro hall
            obtain ⟨⟨-, hrest⟩, hlt, hsorted⟩ := hall
            refine ⟨fun other hother => ?_, hsorted⟩
            obtain ⟨⟨-, hinteger⟩, hfits⟩ := hrest other hother
            exact ⟨⟨hlt other hother, hinteger⟩, hfits⟩

theorem firstDangling?_eq_none_iff {offsets : List Number} {index : Nat}
    {body : List Instruction} :
    firstDangling? offsets index body = none ↔
      ∀ ins ∈ body, ∀ target ∈ ins.targets, target ∈ offsets := by
  induction body generalizing index with
  | nil => simp [firstDangling?]
  | cons ins rest ih =>
      rw [firstDangling?, List.forall_mem_cons]
      cases hflaw : ins.dangling? offsets with
      | some flaw =>
          simp only [reduceCtorEq, false_iff]
          intro hall
          obtain ⟨hins, -⟩ := hall
          rw [Instruction.dangling?_eq_none_iff.2 hins] at hflaw
          cases hflaw
      | none =>
          have hins := Instruction.dangling?_eq_none_iff.1 hflaw
          dsimp only
          rw [ih, and_iff_right hins]

/-- **Bodies without a flaw.** Offsets are counts that increase, every
instruction has the operand and the stack effect of its category, and every
target is the offset of an instruction. -/
theorem Method.hasValidBody_iff {m : Method} :
    m.hasValidBody = true ↔
      (∀ ins ∈ m.body, ins.offset.IsCount) ∧
        (m.body.map Instruction.offset).Pairwise (· < ·) ∧
        (∀ ins ∈ m.body, ins.Fits) ∧
        ∀ ins ∈ m.body, ∀ target ∈ ins.targets,
          ∃ landing ∈ m.body, landing.offset = target := by
  unfold hasValidBody firstFlaw?
  simp only [Option.isNone_iff_eq_none, Option.map_eq_none_iff, Option.or_eq_none_iff,
    firstOwnFlaw?_eq_none_iff, firstDangling?_eq_none_iff, ← Number.isCount_iff, List.mem_map,
    forall_and]
  constructor
  · intro hall
    obtain ⟨⟨⟨hcounts, hfits⟩, hsorted⟩, hlands⟩ := hall
    exact ⟨hcounts, hsorted, hfits, hlands⟩
  · intro hall
    obtain ⟨hcounts, hsorted, hfits, hlands⟩ := hall
    exact ⟨⟨⟨hcounts, hfits⟩, hsorted⟩, hlands⟩

end DisposalAudit
