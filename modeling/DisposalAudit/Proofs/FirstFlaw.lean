import DisposalAudit.Proofs.BodyValidity
import Mathlib.Data.Prod.Lex

/-!
# The first flaw of a body

A body is checked in two passes: the offset, the operand and the stack
effect of one instruction after the other, and then, only if nothing was
wrong so far, the targets of one instruction after the other. What is
reported is the first check that fails.

Here the checks are single questions about the body, each with a place in
that order, and none of them looks at the outcome of another. In particular
an offset is compared with all offsets before it and not just with the last
one; up to the first failure that is the same.

## Main definitions

* `Check`, `Check.rank` — the questions, and their order.
* `Method.Fails` — the answer no, and the flaw that it stands for.
* `Method.FailsFirst` — a failure that no check before it has.

## Main results

* `Method.firstFlaw?_spec` — what is reported is the first failure.
* `Method.firstFlaw?_decides` — the bodies without a flaw, and the report of
  every other.
-/

namespace DisposalAudit

/-! ## Checks -/

/-- What is asked about an instruction by itself. -/
inductive Aspect where
  | offset
  | operand
  | effect
  deriving DecidableEq

/-- A question about a body. -/
inductive Check where
  | own (index : Nat) (aspect : Aspect)
  | target (index position : Nat)
  deriving DecidableEq

/-- The order of the questions about one instruction. -/
def Aspect.rank : Aspect → Nat
  | offset => 0
  | operand => 1
  | effect => 2

namespace Check

/-- Position of the instruction that the question is about. -/
def index : Check → Nat
  | own index _ => index
  | target index _ => index

/-- The order of the questions: the pass first, then the instruction, then
the question about it. -/
def rank : Check → Nat ×ₗ Nat ×ₗ Nat
  | own index aspect => toLex (0, toLex (index, aspect.rank))
  | target index position => toLex (1, toLex (index, position))

theorem rank_own_le_own {i j : Nat} {a b : Aspect} (h : i < j ∨ i = j ∧ a.rank ≤ b.rank) :
    (own i a).rank ≤ (own j b).rank := by
  rw [rank, rank, Prod.Lex.toLex_le_toLex]
  exact .inr ⟨rfl, Prod.Lex.toLex_le_toLex.2 h⟩

theorem rank_own_le_target (i j position : Nat) (a : Aspect) :
    (own i a).rank ≤ (target j position).rank := by
  rw [rank, rank, Prod.Lex.toLex_le_toLex]
  exact .inl Nat.zero_lt_one

theorem rank_target_le_target {i j p q : Nat} (h : i < j ∨ i = j ∧ p ≤ q) :
    (target i p).rank ≤ (target j q).rank := by
  rw [rank, rank, Prod.Lex.toLex_le_toLex]
  exact .inr ⟨rfl, Prod.Lex.toLex_le_toLex.2 h⟩

theorem rank_injective : Function.Injective rank := by
  intro a b h
  cases a with
  | own i a =>
      cases b with
      | own j b => cases a <;> cases b <;> simp_all [rank, Aspect.rank]
      | target j q => simp [rank] at h
  | target i p =>
      cases b with
      | own j b => simp [rank] at h
      | target j q => simpa [rank] using h

end Check

/-! ## Failures -/

/-- What is wrong with an instruction by itself, behind some others. -/
inductive Instruction.Fails (earlier : List Instruction) (ins : Instruction) :
    Aspect → Flaw → Prop
  | offset (order : ¬ (ins.offset.IsCount ∧ ∀ other ∈ earlier, other.offset < ins.offset)) :
      Fails earlier ins .offset .offsetOrder
  | operand {opcode : Opcode} {kind : OperandKind} (category : ins.opcode = some opcode)
      (expects : ins.expectedOperand? = some kind) (other : ins.operand.kind ≠ kind) :
      Fails earlier ins .operand (.operandKind opcode kind ins.operand.kind)
  | effect (unknown : ¬ ∃ effect, ins.stackEffect? = some effect ∧
      ¬ effect.pop < 0 ∧ ¬ effect.push < 0) :
      Fails earlier ins .effect .stackEffect

/-- A check of a body fails at an instruction, by a flaw. -/
inductive Method.Fails (m : Method) : Check → Instruction → Flaw → Prop
  | own {index : Nat} {ins : Instruction} {aspect : Aspect} {flaw : Flaw}
      (here : m.body[index]? = some ins) (fails : ins.Fails (m.body.take index) aspect flaw) :
      Fails m (.own index aspect) ins flaw
  | target {index position : Nat} {ins : Instruction} {target : Number}
      (here : m.body[index]? = some ins) (names : ins.targets[position]? = some target)
      (nowhere : ∀ landing ∈ m.body, landing.offset ≠ target) :
      Fails m (.target index position) ins (.danglingTarget target)

/-! ## One instruction -/

namespace Instruction

variable {ins : Instruction} {previous : Number} {earlier : List Instruction} {flaw : Flaw}

theorem expectedOperand?_iff_category :
    (∀ kind, ins.expectedOperand? = some kind → ins.operand.kind = kind) ↔
      (ins.opcode ∈ [some .callDirect, some .callVirtual, some .construct] →
        ins.operand.kind = .method) ∧
      (ins.opcode ∈ [some .loadField, some .storeField, some .loadFieldAddress] →
        ins.operand.kind = .field) ∧
      (ins.opcode = some .loadSelf → ins.operand.kind = .nothing) := by
  unfold expectedOperand?
  cases ins.opcode with
  | none => simp
  | some opcode => cases opcode <;> simp

theorem operandFlaw?_eq_some_iff :
    flaw?.operandFlaw? ins = some flaw ↔
      ∃ opcode kind, ins.opcode = some opcode ∧ ins.expectedOperand? = some kind ∧
        ins.operand.kind ≠ kind ∧ flaw = .operandKind opcode kind ins.operand.kind := by
  unfold flaw?.operandFlaw?
  cases hopcode : ins.opcode with
  | none => simp
  | some opcode =>
      cases hexpected : ins.expectedOperand? with
      | none => simp
      | some kind =>
          by_cases hkind : ins.operand.kind = kind
          · simp [hkind]
          · simp [hkind, eq_comm (b := flaw)]

/-- The ways to a flaw: the offset, the operand behind a proper offset, and
the stack effect behind both. -/
theorem flaw?_eq_some_cases (h : ins.flaw? previous = some flaw) :
    (¬ (ins.offset.IsInteger ∧ previous < ins.offset) ∧ flaw = .offsetOrder) ∨
      ((ins.offset.IsInteger ∧ previous < ins.offset) ∧
        flaw?.operandFlaw? ins = some flaw) ∨
      ((ins.offset.IsInteger ∧ previous < ins.offset) ∧ flaw?.operandFlaw? ins = none ∧
        (¬ ∃ effect, ins.stackEffect? = some effect ∧ ¬ effect.pop < 0 ∧ ¬ effect.push < 0) ∧
        flaw = .stackEffect) := by
  rw [flaw?] at h
  by_cases hoffset : ins.offset.IsInteger ∧ previous < ins.offset
  · rw [if_neg (not_not_intro hoffset)] at h
    cases hoperand : flaw?.operandFlaw? ins with
    | some found =>
        rw [hoperand] at h
        exact .inr (.inl ⟨hoffset, h⟩)
    | none =>
        refine .inr (.inr ⟨hoffset, rfl, ?_⟩)
        rw [hoperand] at h
        cases heffect : ins.stackEffect? with
        | none =>
            rw [heffect] at h
            exact ⟨by simp, (Option.some.inj h).symm⟩
        | some effect =>
            by_cases hnegative : effect.pop < 0 ∨ effect.push < 0
            · simp only [heffect, if_pos hnegative] at h
              refine ⟨?_, (Option.some.inj h).symm⟩
              rintro ⟨_, hsame, hpop, hpush⟩
              obtain rfl := Option.some.inj hsame
              exact hnegative.elim hpop hpush
            · simp only [heffect, if_neg hnegative] at h
              cases h
  · rw [if_pos hoffset] at h
    exact .inl ⟨hoffset, (Option.some.inj h).symm⟩

/-- The flaw of an instruction is that of the first aspect in which it
fails. -/
theorem exists_fails_of_flaw?_eq_some
    (horder : ins.offset.IsInteger ∧ previous < ins.offset ↔
      ins.offset.IsCount ∧ ∀ other ∈ earlier, other.offset < ins.offset)
    (h : ins.flaw? previous = some flaw) :
    ∃ aspect, ins.Fails earlier aspect flaw ∧
      ∀ other flaw', ins.Fails earlier other flaw' → aspect.rank ≤ other.rank := by
  rcases flaw?_eq_some_cases h with
    ⟨hoffset, rfl⟩ | ⟨hoffset, hfound⟩ | ⟨hoffset, hnone, hunknown, rfl⟩
  · exact ⟨.offset, .offset fun hall => hoffset (horder.2 hall), fun _ _ _ => Nat.zero_le _⟩
  · obtain ⟨opcode, kind, hopcode, hexpected, hkind, rfl⟩ := operandFlaw?_eq_some_iff.1 hfound
    refine ⟨.operand, .operand hopcode hexpected hkind, fun other _ hother => ?_⟩
    cases hother with
    | offset order => exact absurd (horder.1 hoffset) order
    | operand => exact Nat.le_refl _
    | effect => exact Nat.le_succ _
  · refine ⟨.effect, .effect hunknown, fun other _ hother => ?_⟩
    cases hother with
    | offset order => exact absurd (horder.1 hoffset) order
    | operand _ expects hkind => exact absurd (operandFlaw?_eq_none_iff.1 hnone _ expects) hkind
    | effect => exact Nat.le_refl _

end Instruction

/-! ## The first pass -/

/-- The offset that the check hands on behind some instructions. -/
def lastOffset (previous : Number) (front : List Instruction) : Number :=
  (front.map Instruction.offset).getLast?.getD previous

theorem lastOffset_cons (previous : Number) (ins : Instruction) (front : List Instruction) :
    lastOffset previous (ins :: front) = lastOffset ins.offset front := by
  rw [lastOffset, List.map_cons, List.getLast?_cons, Option.getD_some, lastOffset]

/-- Behind instructions without a flaw the last offset stands for all of
them. -/
theorem after_lastOffset_iff {index : Nat} {front : List Instruction} {ins : Instruction}
    (hclean : firstOwnFlaw? (-1) index front = none) :
    ins.offset.IsInteger ∧ lastOffset (-1) front < ins.offset ↔
      ins.offset.IsCount ∧ ∀ other ∈ front, other.offset < ins.offset := by
  obtain ⟨hall, hsorted⟩ := firstOwnFlaw?_eq_none_iff.1 hclean
  rcases List.eq_nil_or_concat front with rfl | ⟨before, last, hsplit⟩
  · simp [lastOffset, Number.isCount_iff, and_comm]
  · rw [List.concat_eq_append] at hsplit
    subst hsplit
    have hlast : lastOffset (-1) (before ++ [last]) = last.offset := by simp [lastOffset]
    have hmem : last ∈ before ++ [last] := by simp
    rw [hlast, Number.isCount_iff]
    constructor
    · rintro ⟨hinteger, hlt⟩
      refine ⟨⟨Number.lt_trans (hall last hmem).1.1 hlt, hinteger⟩, fun other hother => ?_⟩
      rcases List.mem_append.1 hother with hbefore | hsame
      · rw [List.map_append, List.pairwise_append] at hsorted
        exact Number.lt_trans
          (hsorted.2.2 _ (List.mem_map_of_mem hbefore) _ (by simp)) hlt
      · rwa [List.mem_singleton.1 hsame]
    · rintro ⟨⟨-, hinteger⟩, hlt⟩
      exact ⟨hinteger, hlt last hmem⟩

/-- The first pass stops at the first instruction with a flaw of its own. -/
theorem exists_split_of_firstOwnFlaw? {previous : Number} {index i : Nat}
    {body : List Instruction} {ins : Instruction} {flaw : Flaw}
    (h : firstOwnFlaw? previous index body = some (i, ins, flaw)) :
    ∃ front back, body = front ++ ins :: back ∧ i = index + front.length ∧
      firstOwnFlaw? previous index front = none ∧
      ins.flaw? (lastOffset previous front) = some flaw := by
  induction body generalizing previous index with
  | nil => cases h
  | cons first rest ih =>
      rw [firstOwnFlaw?] at h
      cases hflaw : first.flaw? previous with
      | some found =>
          rw [hflaw] at h
          obtain ⟨rfl, rfl, rfl⟩ : index = i ∧ first = ins ∧ found = flaw := by
            simpa using h
          exact ⟨[], rest, rfl, rfl, rfl, hflaw⟩
      | none =>
          rw [hflaw] at h
          obtain ⟨front, back, rfl, rfl, hclean, hfound⟩ := ih h
          refine ⟨first :: front, back, rfl, ?_, ?_, ?_⟩
          · rw [List.length_cons]
            omega
          · rw [firstOwnFlaw?, hflaw]
            exact hclean
          · rw [lastOffset_cons]
            exact hfound

/-- Among instructions without a flaw none fails in any aspect. -/
theorem not_fails_of_firstOwnFlaw?_eq_none {index i : Nat} {front : List Instruction}
    {ins : Instruction} {aspect : Aspect} {flaw : Flaw}
    (hclean : firstOwnFlaw? (-1) index front = none) (hins : front[i]? = some ins) :
    ¬ ins.Fails (front.take i) aspect flaw := by
  obtain ⟨hall, hsorted⟩ := firstOwnFlaw?_eq_none_iff.1 hclean
  obtain ⟨⟨hpositive, hinteger⟩, hfits⟩ := hall ins (List.mem_of_getElem? hins)
  intro hfails
  cases hfails with
  | offset order =>
      refine order ⟨Number.isCount_iff.2 ⟨hpositive, hinteger⟩, fun other hother => ?_⟩
      obtain ⟨j, hj, rfl⟩ := List.mem_take_iff_getElem.1 hother
      obtain ⟨hi, rfl⟩ := List.getElem?_eq_some_iff.1 hins
      exact List.pairwise_iff_getElem.1 (List.pairwise_map.1 hsorted) j i _ hi (by omega)
  | operand category expects other => exact other (hfits.operand _ expects)
  | effect unknown => exact unknown hfits.counts

/-! ## The second pass -/

/-- The flaw of an instruction that jumps to nowhere is that of the first
target that is no offset. -/
theorem exists_target_of_dangling? {m : Method} {ins : Instruction} {flaw : Flaw}
    (h : ins.dangling? (m.body.map Instruction.offset) = some flaw) :
    ∃ position target, ins.targets[position]? = some target ∧
      flaw = .danglingTarget target ∧ (∀ landing ∈ m.body, landing.offset ≠ target) ∧
      ∀ (other : Nat) (named : Number), ins.targets[other]? = some named →
        (∀ landing ∈ m.body, landing.offset ≠ named) → position ≤ other := by
  rw [Instruction.dangling?, Option.map_eq_some_iff] at h
  obtain ⟨target, hfound, rfl⟩ := h
  obtain ⟨hlost, position, hposition, rfl, hbefore⟩ := List.find?_eq_some_iff_getElem.1 hfound
  refine ⟨position, _, List.getElem?_eq_getElem hposition, rfl, by simpa using hlost,
    fun other named hother hnowhere => ?_⟩
  refine Nat.le_of_not_lt fun hlt => ?_
  obtain ⟨hbound, rfl⟩ := List.getElem?_eq_some_iff.1 hother
  have hlands := hbefore other hlt
  simp only [Bool.not_not, List.contains_iff_mem, List.mem_map] at hlands
  obtain ⟨landing, hmem, hsame⟩ := hlands
  exact hnowhere landing hmem hsame

/-- The second pass stops at the first instruction that jumps to
nowhere. -/
theorem exists_split_of_firstDangling? {offsets : List Number} {index i : Nat}
    {body : List Instruction} {ins : Instruction} {flaw : Flaw}
    (h : firstDangling? offsets index body = some (i, ins, flaw)) :
    ∃ front back, body = front ++ ins :: back ∧ i = index + front.length ∧
      (∀ other ∈ front, ∀ target ∈ other.targets, target ∈ offsets) ∧
      ins.dangling? offsets = some flaw := by
  induction body generalizing index with
  | nil => cases h
  | cons first rest ih =>
      rw [firstDangling?] at h
      cases hflaw : first.dangling? offsets with
      | some found =>
          rw [hflaw] at h
          obtain ⟨rfl, rfl, rfl⟩ : index = i ∧ first = ins ∧ found = flaw := by
            simpa using h
          exact ⟨[], rest, rfl, rfl, by simp, hflaw⟩
      | none =>
          rw [hflaw] at h
          obtain ⟨front, back, rfl, rfl, hclean, hfound⟩ := ih h
          refine ⟨first :: front, back, rfl, ?_, ?_, hfound⟩
          · rw [List.length_cons]
            omega
          · rw [List.forall_mem_cons]
            exact ⟨Instruction.dangling?_eq_none_iff.1 hflaw, hclean⟩

/-! ## Both passes -/

namespace Method

/-- A failure that no check before it has. -/
def FailsFirst (m : Method) (check : Check) (ins : Instruction) (flaw : Flaw) : Prop :=
  m.Fails check ins flaw ∧
    ∀ other ins' flaw', m.Fails other ins' flaw' → check.rank ≤ other.rank

variable {m : Method} {check : Check} {i : Nat} {ins : Instruction} {flaw : Flaw}

theorem Fails.getElem? (h : m.Fails check ins flaw) : m.body[check.index]? = some ins := by
  cases h with
  | own here _ => exact here
  | target here _ _ => exact here

/-- A check has one outcome. -/
theorem Fails.unique {ins' : Instruction} {flaw' : Flaw} (h : m.Fails check ins flaw)
    (h' : m.Fails check ins' flaw') : ins = ins' ∧ flaw = flaw' := by
  obtain rfl := Option.some.inj (h.getElem?.symm.trans h'.getElem?)
  refine ⟨rfl, ?_⟩
  cases h with
  | own _ fails =>
      cases h' with
      | own _ fails' =>
          cases fails with
          | offset => cases fails'; rfl
          | operand category expects _ =>
              cases fails' with
              | operand category' expects' _ =>
                  rw [Option.some.inj (category.symm.trans category'),
                    Option.some.inj (expects.symm.trans expects')]
          | effect => cases fails'; rfl
  | target _ names _ =>
      cases h' with
      | target _ names' _ => rw [Option.some.inj (names.symm.trans names')]

theorem FailsFirst.unique {check' : Check} {ins' : Instruction} {flaw' : Flaw}
    (h : m.FailsFirst check ins flaw) (h' : m.FailsFirst check' ins' flaw') :
    check = check' ∧ ins = ins' ∧ flaw = flaw' := by
  obtain rfl : check = check' :=
    Check.rank_injective (le_antisymm (h.2 _ _ _ h'.1) (h'.2 _ _ _ h.1))
  exact ⟨rfl, h.1.unique h'.1⟩

theorem failsFirst_of_firstOwnFlaw? (h : firstOwnFlaw? (-1) 0 m.body = some (i, ins, flaw)) :
    ∃ check, m.FailsFirst check ins flaw ∧ check.index = i := by
  obtain ⟨front, back, hbody, rfl, hclean, hfound⟩ := exists_split_of_firstOwnFlaw? h
  obtain ⟨aspect, hfails, hfirst⟩ :=
    Instruction.exists_fails_of_flaw?_eq_some (after_lastOffset_iff hclean) hfound
  have hhere : m.body[front.length]? = some ins := by simp [hbody]
  have hfront : m.body.take front.length = front := by simp [hbody]
  rw [← hfront] at hfails
  refine ⟨.own front.length aspect, ⟨.own hhere hfails, ?_⟩, (Nat.zero_add _).symm⟩
  intro other ins' flaw' hother
  cases hother with
  | @own index _ aspect' _ here fails =>
      refine Check.rank_own_le_own ?_
      rcases Nat.lt_trichotomy front.length index with hlt | rfl | hgt
      · exact .inl hlt
      · obtain rfl := Option.some.inj (hhere.symm.trans here)
        rw [hfront] at fails
        exact .inr ⟨rfl, hfirst _ _ fails⟩
      · -- Nothing is wrong with the instructions in front.
        rw [hbody, List.getElem?_append_left hgt] at here
        rw [hbody, List.take_append_of_le_length (Nat.le_of_lt hgt)] at fails
        exact absurd fails (not_fails_of_firstOwnFlaw?_eq_none hclean here)
  | target => exact Check.rank_own_le_target _ _ _ _

theorem failsFirst_of_firstDangling? (hclean : firstOwnFlaw? (-1) 0 m.body = none)
    (h : firstDangling? (m.body.map Instruction.offset) 0 m.body = some (i, ins, flaw)) :
    ∃ check, m.FailsFirst check ins flaw ∧ check.index = i := by
  obtain ⟨front, back, hbody, rfl, hlands, hfound⟩ := exists_split_of_firstDangling? h
  obtain ⟨position, target, hnames, rfl, hnowhere, hfirst⟩ := exists_target_of_dangling? hfound
  have hhere : m.body[front.length]? = some ins := by simp [hbody]
  refine ⟨.target front.length position, ⟨.target hhere hnames hnowhere, ?_⟩,
    (Nat.zero_add _).symm⟩
  intro other ins' flaw' hother
  cases hother with
  | own here fails => exact absurd fails (not_fails_of_firstOwnFlaw?_eq_none hclean here)
  | @target index position' _ named here names nowhere =>
      refine Check.rank_target_le_target ?_
      rcases Nat.lt_trichotomy front.length index with hlt | rfl | hgt
      · exact .inl hlt
      · obtain rfl := Option.some.inj (hhere.symm.trans here)
        exact .inr ⟨rfl, hfirst _ _ names nowhere⟩
      · rw [hbody, List.getElem?_append_left hgt] at here
        have hlanding := hlands _ (List.mem_of_getElem? here) _ (List.mem_of_getElem? names)
        obtain ⟨landing, hmem, hsame⟩ := List.mem_map.1 hlanding
        exact absurd hsame (nowhere landing hmem)

/-- What is reported is the first failure. -/
theorem firstFlaw?_spec {e : MalformedBody} (h : m.firstFlaw? = some e) :
    e.method = m.label ∧ ∃ check ins, m.FailsFirst check ins e.flaw ∧
      e.index = check.index ∧ e.offset = ins.offset := by
  rw [firstFlaw?, Option.map_eq_some_iff] at h
  obtain ⟨⟨i, ins, flaw⟩, hfound, rfl⟩ := h
  rw [Option.or_eq_some_iff] at hfound
  refine ⟨rfl, ?_⟩
  rcases hfound with hown | ⟨hclean, hdangling⟩
  · obtain ⟨check, hfirst, rfl⟩ := failsFirst_of_firstOwnFlaw? hown
    exact ⟨check, ins, hfirst, rfl, rfl⟩
  · obtain ⟨check, hfirst, rfl⟩ := failsFirst_of_firstDangling? hclean hdangling
    exact ⟨check, ins, hfirst, rfl, rfl⟩

/-- A body in which no flaw is found fails no check. -/
theorem not_fails_of_firstFlaw?_eq_none (h : m.firstFlaw? = none) :
    ¬ m.Fails check ins flaw := by
  rw [firstFlaw?, Option.map_eq_none_iff, Option.or_eq_none_iff] at h
  obtain ⟨hclean, hlands⟩ := h
  intro hfails
  cases hfails with
  | own here fails => exact not_fails_of_firstOwnFlaw?_eq_none hclean here fails
  | target here names nowhere =>
      have hlanding := firstDangling?_eq_none_iff.1 hlands _ (List.mem_of_getElem? here) _
        (List.mem_of_getElem? names)
      obtain ⟨landing, hmem, hsame⟩ := List.mem_map.1 hlanding
      exact nowhere landing hmem hsame

/--
**The verdict on a body.** A body passes if and only if its offsets are
counts that increase, every call and construction has a method for its
operand, every field access a field and every loading of the instance
nothing, all stack effects are known and not negative, and every target is
the offset of an instruction. Any other body is reported by the first check
that fails, with the declaring type and name of the method and the offset of
the instruction.
-/
theorem firstFlaw?_decides (m : Method) :
    (m.firstFlaw? = none ↔
      (∀ ins ∈ m.body, ins.offset.IsCount) ∧ (m.body.map Instruction.offset).Pairwise (· < ·) ∧
        (∀ ins ∈ m.body,
          (ins.opcode ∈ [some .callDirect, some .callVirtual, some .construct] →
            ins.operand.kind = .method) ∧
          (ins.opcode ∈ [some .loadField, some .storeField, some .loadFieldAddress] →
            ins.operand.kind = .field) ∧
          (ins.opcode = some .loadSelf → ins.operand.kind = .nothing) ∧
          ∃ effect, ins.stackEffect? = some effect ∧ ¬ effect.pop < 0 ∧ ¬ effect.push < 0) ∧
        ∀ ins ∈ m.body, ∀ target ∈ ins.targets, ∃ landing ∈ m.body, landing.offset = target) ∧
    ∀ e, m.firstFlaw? = some e ↔
      e.method = m.declaringType ++ "::" ++ m.name ∧
        ∃ check ins, m.FailsFirst check ins e.flaw ∧ e.index = check.index ∧
          e.offset = ins.offset := by
  constructor
  · have hvalid : m.firstFlaw? = none ↔ m.hasValidBody = true := by
      rw [hasValidBody, Option.isNone_iff_eq_none]
    rw [hvalid, hasValidBody_iff]
    simp only [Instruction.fits_iff, Instruction.expectedOperand?_iff_category, and_assoc]
  · intro e
    constructor
    · exact firstFlaw?_spec
    · rintro ⟨hmethod, check, ins, hfirst, hindex, hoffset⟩
      cases hfound : m.firstFlaw? with
      | none => exact absurd hfirst.1 (not_fails_of_firstFlaw?_eq_none hfound)
      | some found =>
          -- There is one first failure, and it says all that is reported.
          obtain ⟨hmethod', check', ins', hfirst', hindex', hoffset'⟩ := firstFlaw?_spec hfound
          obtain ⟨rfl, rfl, hflaw⟩ := hfirst.unique hfirst'
          obtain ⟨method, index, offset, flaw⟩ := e
          obtain ⟨method', index', offset', flaw'⟩ := found
          simp_all [label]

/-- A jump to nowhere is reported only if nothing else is wrong, however
early it comes. -/
example (m : Method)
    (hbody : m.body =
      [⟨0, some .other, .targets [9], .jump, some ⟨0, 0⟩, none⟩,
        ⟨1, some .loadSelf, .targets [0], .next, none, none⟩]) :
    m.firstFlaw?.map (fun e => (e.index, e.flaw)) =
      some (1, .operandKind .loadSelf .nothing .targets) := by
  rw [firstFlaw?, hbody, Option.map_map]
  rfl

end Method

end DisposalAudit
