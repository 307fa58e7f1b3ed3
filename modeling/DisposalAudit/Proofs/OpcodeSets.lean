import DisposalAudit.Body.Method
import Mathlib.Data.Int.Bitwise

/-!
# Masks as sets of categories

A mask is read through its lowest 32 bits only, so all that has to be known
of an operation on masks is what it does to that word. The summary of a body
then meets another mask exactly if some instruction has a category in it.

Any integer is a mask, and may have bits that stand for no category. A mask
that was gathered from categories has none of these, and what it meets is
said by its members alone.

## Main definitions

* `Opcode.place` — where the bit of a category stands.
* `Gathering` — the ways to gather a mask from categories.

## Main results

* `OpcodeSet.word_insert` — inserting a category sets its bit.
* `OpcodeSet.contains_insert_iff`, `OpcodeSet.intersects_insert` — what one
  more member changes.
* `Method.opcodes_intersects_iff` — which masks the summary of a body meets.
* `OpcodeSet.contains_callsAndFields` — the members of the fixed mask.
* `OpcodeSet.members_exact` — masks are faithful sets.
-/

namespace DisposalAudit

namespace Opcode

/-- The place of a category's bit. -/
def place (opcode : Opcode) : Nat := all.idxOf opcode

theorem bit_eq_twoPow (opcode : Opcode) : opcode.bit = BitVec.twoPow 32 opcode.place := by
  cases opcode <;> decide

theorem place_lt (opcode : Opcode) : opcode.place < 32 := by
  cases opcode <;> decide

/-- No two categories share a place. -/
theorem place_eq_iff {t u : Opcode} : t.place = u.place ↔ t = u := by
  constructor
  · cases t <;> cases u <;> decide
  · exact congrArg place

end Opcode

namespace OpcodeSet

@[simp] theorem word_empty : empty.word = 0 := rfl

@[simp] theorem word_insert (s : OpcodeSet) (opcode : Opcode) :
    (s.insert opcode).word = s.word ||| opcode.bit :=
  BitVec.ofInt_toInt

/-! ## Members -/

/-- A category is a member if its bit is set in the word. -/
theorem contains_eq_getLsbD (s : OpcodeSet) (t : Opcode) :
    s.contains t = s.word.getLsbD t.place := by
  have hnonzero : BitVec.twoPow 32 t.place ≠ 0 := by
    rw [← t.bit_eq_twoPow]
    cases t <;> decide
  rw [contains, t.bit_eq_twoPow, BitVec.and_twoPow]
  cases s.word.getLsbD t.place with
  | true => simpa using hnonzero
  | false => simp

/-- The word has the lowest bits of the integer's two's complement, also
below zero. -/
theorem getLsbD_word (s : OpcodeSet) {k : Nat} (hk : k < 32) :
    s.word.getLsbD k = s.mask.testBit k := by
  rw [word]
  cases s.mask with
  | ofNat n =>
      rw [Int.ofNat_eq_natCast, BitVec.ofInt_natCast, BitVec.getLsbD_ofNat, decide_eq_true hk,
        Bool.true_and]
      rfl
  | negSucc n =>
      rw [BitVec.ofInt_negSucc_eq_not_ofNat, BitVec.getLsbD_not, BitVec.getLsbD_ofNat,
        decide_eq_true hk, Bool.true_and, Bool.true_and]
      rfl

theorem contains_empty (t : Opcode) : empty.contains t = false := by
  rw [contains_eq_getLsbD, word_empty]
  exact BitVec.getLsbD_zero

/-- One more member, and no other change. -/
theorem contains_insert_iff (s : OpcodeSet) (t u : Opcode) :
    (s.insert t).contains u = true ↔ u = t ∨ s.contains u = true := by
  have hbit : t.bit.getLsbD u.place = true ↔ u = t := by
    rw [t.bit_eq_twoPow, BitVec.getLsbD_twoPow, decide_eq_true t.place_lt, Bool.true_and,
      decide_eq_true_eq, Opcode.place_eq_iff, eq_comm]
  rw [contains_eq_getLsbD, word_insert, BitVec.getLsbD_or, Bool.or_eq_true, hbit,
    ← contains_eq_getLsbD, or_comm]

theorem contains_foldl_insert_iff (u : Opcode) (opcodes : List Opcode) :
    ∀ s : OpcodeSet, (opcodes.foldl insert s).contains u = true ↔
      u ∈ opcodes ∨ s.contains u = true := by
  induction opcodes with
  | nil => simp
  | cons t rest ih =>
      intro s
      rw [List.foldl_cons, ih, contains_insert_iff, List.mem_cons, or_left_comm, or_assoc]

/-- A listed set has the members that are listed. -/
theorem contains_ofList_iff (opcodes : List Opcode) (u : Opcode) :
    (ofList opcodes).contains u = true ↔ u ∈ opcodes := by
  rw [ofList, contains_foldl_insert_iff, contains_empty]
  exact or_iff_left Bool.false_ne_true

/-- Calls and field accesses make up the mask that is looked for first. -/
theorem contains_callsAndFields (opcode : Opcode) :
    callsAndFields.contains opcode = (opcode.isCall || opcode.isFieldAccess) := by
  cases opcode <;> decide

/-! ## Common bits -/

theorem intersects_comm (s t : OpcodeSet) : s.intersects t = t.intersects s := by
  rw [intersects, intersects, BitVec.and_comm]

/-- Two masks meet if they share one of the 32 bits that count. -/
theorem intersects_iff_testBit (s t : OpcodeSet) :
    s.intersects t = true ↔ ∃ k < 32, s.mask.testBit k = true ∧ t.mask.testBit k = true := by
  have hshared : s.word &&& t.word = 0 ↔
      ∀ k < 32, ¬ (s.mask.testBit k = true ∧ t.mask.testBit k = true) := by
    constructor
    · intro hzero k hk hbits
      have hbit := congrArg (fun w => w.getLsbD k) hzero
      simp [getLsbD_word _ hk, hbits] at hbit
    · intro hnone
      refine BitVec.eq_of_getLsbD_eq fun k hk => ?_
      rw [BitVec.getLsbD_and, getLsbD_word s hk, getLsbD_word t hk]
      simpa using hnone k hk
  rw [intersects, bne_iff_ne, ne_eq, hshared]
  simp only [not_forall, Decidable.not_not, exists_prop]

theorem intersects_empty (t : OpcodeSet) : empty.intersects t = false := by
  simp [intersects]

/-- A mask meets what it met before, and what holds the new member. -/
theorem intersects_insert (s t : OpcodeSet) (opcode : Opcode) :
    (s.insert opcode).intersects t = (s.intersects t || t.contains opcode) := by
  have hsplit : (s.word ||| opcode.bit) &&& t.word = 0 ↔
      s.word &&& t.word = 0 ∧ t.word &&& opcode.bit = 0 := by
    rw [BitVec.and_or_distrib_right, BitVec.and_comm opcode.bit]
    exact BitVec.or_eq_zero_iff
  rw [Bool.eq_iff_iff, Bool.or_eq_true]
  simp only [intersects, contains, word_insert, bne_iff_ne, ne_eq]
  rw [hsplit]
  exact Decidable.not_and_iff_not_or_not

theorem intersects_foldl_insert_iff (t : OpcodeSet) (opcodes : List Opcode) :
    ∀ s : OpcodeSet, (opcodes.foldl insert s).intersects t = true ↔
      s.intersects t = true ∨ ∃ opcode ∈ opcodes, t.contains opcode = true := by
  induction opcodes with
  | nil => simp
  | cons opcode rest ih =>
      intro s
      simp only [List.foldl_cons, ih, intersects_insert, Bool.or_eq_true, or_assoc,
        List.mem_cons, exists_eq_or_imp]

/-- A listed set meets the masks that hold something listed. -/
theorem intersects_ofList_iff (opcodes : List Opcode) (t : OpcodeSet) :
    (ofList opcodes).intersects t = true ↔ ∃ opcode ∈ opcodes, t.contains opcode = true := by
  rw [ofList, intersects_foldl_insert_iff, intersects_empty]
  exact or_iff_right Bool.false_ne_true

end OpcodeSet

namespace Method

/-- The loop over a body inserts the categories that it comes to. -/
theorem foldl_body_eq (body : List Instruction) :
    ∀ s : OpcodeSet, body.foldl (fun s ins => (ins.opcode.map s.insert).getD s) s =
      (body.filterMap Instruction.opcode).foldl OpcodeSet.insert s := by
  induction body with
  | nil => exact fun _ => rfl
  | cons ins rest ih =>
      intro s
      rw [List.foldl_cons, ih, List.filterMap_cons]
      cases ins.opcode with
      | none => rfl
      | some opcode => rfl

/-- The summary of a body is the set of its categories, listed in the order
of the instructions. -/
theorem opcodes_eq_ofList (m : Method) :
    m.opcodes = .ofList (m.body.filterMap Instruction.opcode) :=
  foldl_body_eq m.body .empty

/-- The summary of a body meets a mask exactly if the category of some
instruction is in the mask. -/
theorem opcodes_intersects_iff (m : Method) (t : OpcodeSet) :
    m.opcodes.intersects t = true ↔
      ∃ ins ∈ m.body, ∃ opcode, ins.opcode = some opcode ∧ t.contains opcode = true := by
  rw [opcodes_eq_ofList, OpcodeSet.intersects_ofList_iff]
  simp only [List.mem_filterMap]
  constructor
  · rintro ⟨opcode, ⟨ins, hins, hopcode⟩, hmember⟩
    exact ⟨ins, hins, opcode, hopcode, hmember⟩
  · rintro ⟨ins, hins, opcode, hopcode, hmember⟩
    exact ⟨opcode, ⟨ins, hins, hopcode⟩, hmember⟩

/-- The summary of a body has the categories of its instructions. -/
theorem contains_opcodes_iff (m : Method) (t : Opcode) :
    m.opcodes.contains t = true ↔ ∃ ins ∈ m.body, ins.opcode = some t := by
  rw [opcodes_eq_ofList, OpcodeSet.contains_ofList_iff, List.mem_filterMap]

end Method

/-! ## Gathered masks -/

/-- The ways to gather a mask from categories. -/
inductive Gathering where
  | nothing
  | listed (opcodes : List Opcode)
  | withMore (before : Gathering) (opcode : Opcode)
  | ofBody (m : Method)

namespace Gathering

/-- The mask that is gathered. -/
def set : Gathering → OpcodeSet
  | nothing => .empty
  | listed opcodes => .ofList opcodes
  | withMore before opcode => before.set.insert opcode
  | ofBody m => m.opcodes

/-- The categories that it is gathered from. -/
def opcodes : Gathering → List Opcode
  | nothing => []
  | listed opcodes => opcodes
  | withMore before opcode => before.opcodes ++ [opcode]
  | ofBody m => m.body.filterMap Instruction.opcode

/-- However it was gathered, a mask is the set of a list. -/
theorem set_eq_ofList (g : Gathering) : g.set = .ofList g.opcodes := by
  induction g with
  | nothing => rfl
  | listed opcodes => rfl
  | withMore before opcode ih =>
      rw [set, opcodes, ih, OpcodeSet.ofList, OpcodeSet.ofList, List.foldl_append]
      rfl
  | ofBody m => exact m.opcodes_eq_ofList

/-- A gathered mask has no bits but those of its members, so that it meets
a mask, gathered or not, only in a common member. -/
theorem intersects_iff (g : Gathering) (s : OpcodeSet) :
    g.set.intersects s = true ↔ ∃ t, g.set.contains t = true ∧ s.contains t = true := by
  rw [set_eq_ofList, OpcodeSet.intersects_ofList_iff]
  simp only [OpcodeSet.contains_ofList_iff]

end Gathering

/--
**Masks are faithful sets.** In any integer, a category is a member if the
bit of its place is set, also below zero and whatever else is set; inserting
a category makes it a member and changes no other. A listed set has what is
listed, and the summary of a body the categories of its instructions.

Masks meet in a bit that both have, and so it does not matter which is asked.
A mask that was gathered, from a list, from a body or one member at a time,
has exactly the members that it was gathered from, and meets another mask
exactly in a common member.
-/
theorem OpcodeSet.members_exact :
    (∀ (s : OpcodeSet) (t : Opcode), s.contains t = s.mask.testBit t.place) ∧
    (∀ (opcodes : List Opcode) (t : Opcode),
      (ofList opcodes).contains t = true ↔ t ∈ opcodes) ∧
    (∀ (s : OpcodeSet) (t u : Opcode),
      (s.insert t).contains u = true ↔ u = t ∨ s.contains u = true) ∧
    (∀ (m : Method) (t : Opcode),
      m.opcodes.contains t = true ↔ ∃ ins ∈ m.body, ins.opcode = some t) ∧
    (∀ s t : OpcodeSet, s.intersects t = true ↔
      ∃ k < 32, s.mask.testBit k = true ∧ t.mask.testBit k = true) ∧
    (∀ s t : OpcodeSet, s.intersects t = t.intersects s) ∧
    ∀ g : Gathering, (∀ t, g.set.contains t = true ↔ t ∈ g.opcodes) ∧
      ∀ s : OpcodeSet, g.set.intersects s = true ↔
        ∃ t, g.set.contains t = true ∧ s.contains t = true := by
  refine ⟨fun s t => ?_, contains_ofList_iff, contains_insert_iff, Method.contains_opcodes_iff,
    intersects_iff_testBit, intersects_comm, fun g => ⟨fun t => ?_, g.intersects_iff⟩⟩
  · rw [contains_eq_getLsbD, getLsbD_word s t.place_lt]
  · rw [g.set_eq_ofList, contains_ofList_iff]

/-- Two masks that were not gathered may meet without a common member. -/
example : (OpcodeSet.mk 256).intersects (OpcodeSet.mk (-256)) = true ∧
    ∀ t ∈ Opcode.all, (OpcodeSet.mk 256).contains t = false := by
  decide

end DisposalAudit
