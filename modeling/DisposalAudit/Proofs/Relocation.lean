import DisposalAudit.Proofs.FirstFlaw
import DisposalAudit.Proofs.GuardDecision
import DisposalAudit.Proofs.LoadOrder
import Mathlib.Order.Monotone.Basic

/-!
# Moving a body

Offsets say where instructions stand, and targets where branches go. Nothing
else is read from them than which of two is greater and whether two are the
same: if the instructions of a body are moved apart, or together, and its
branches with them, the body has the same flaw or none, its receivers have
the same producers, and the guard rule says the same of it. No number of
bytes, no distance and no position is taken from an offset.

A body may be malformed in any way, as long as its offsets and targets are
naturals.

## Main definitions

* `Number.relocate`, `Method.relocate` — naturals moved, and a body whose
  offsets and targets are.

## Main results

* `Method.firstFlaw?_relocate` — the flaw is moved with the body.
* `Method.producer?_relocate` — producers keep their positions.
* `GuardOptions.sightings_relocate` — so do the signals of the guard rule.
* `Method.analysis_relocate` — all of it together.
-/

namespace DisposalAudit

/-! ## Numbers -/

namespace Number

/-- A natural, moved. Other numbers stay as they are. -/
def relocate (f : Nat → Nat) (a : Number) : Number :=
  match a.toNat? with
  | some n => ofNat (f n)
  | none => a

variable {f : Nat → Nat}

@[simp] theorem relocate_ofNat (n : Nat) : (ofNat n).relocate f = ofNat (f n) := by
  rw [relocate, toNat?_eq_some_iff.2 rfl]

theorem relocate_of_toNat?_eq_none {a : Number} (h : a.toNat? = none) : a.relocate f = a := by
  rw [relocate, h]

theorem toNat?_relocate (a : Number) : (a.relocate f).toNat? = a.toNat?.map f := by
  cases ha : a.toNat? with
  | some n =>
      rw [toNat?_eq_some_iff.1 ha, relocate_ofNat, toNat?_eq_some_iff.2 rfl, Option.map_some]
  | none => rw [relocate_of_toNat?_eq_none ha, ha, Option.map_none]

/-- Different numbers are moved to different numbers. -/
theorem relocate_inj (hf : Function.Injective f) {a b : Number} :
    a.relocate f = b.relocate f ↔ a = b := by
  refine ⟨fun h => ?_, congrArg _⟩
  have hsame : a.toNat? = b.toNat? := by
    refine Option.map_injective hf ?_
    rw [← toNat?_relocate, ← toNat?_relocate, h]
  cases ha : a.toNat? with
  | some n => rw [toNat?_eq_some_iff.1 ha, toNat?_eq_some_iff.1 (hsame.symm.trans ha)]
  | none =>
      rwa [relocate_of_toNat?_eq_none ha, relocate_of_toNat?_eq_none (hsame.symm.trans ha)] at h

/-- Counts keep their order. -/
theorem relocate_lt_relocate (hf : StrictMono f) {a b : Number} (ha : a.IsCount)
    (hb : b.IsCount) : a.relocate f < b.relocate f ↔ a < b := by
  obtain ⟨m, rfl⟩ := exists_ofNat_of_isCount ha
  obtain ⟨n, rfl⟩ := exists_ofNat_of_isCount hb
  rw [relocate_ofNat, relocate_ofNat, ofNat_lt_ofNat, ofNat_lt_ofNat, hf.lt_iff_lt]

theorem isCount_relocate {a : Number} (ha : a.IsCount) : (a.relocate f).IsCount := by
  obtain ⟨n, rfl⟩ := exists_ofNat_of_isCount ha
  rw [relocate_ofNat]
  exact isCount_ofNat (f n)

end Number

/-! ## Bodies -/

/-- An instruction with its offset and its targets moved. -/
def Instruction.relocate (f : Nat → Nat) (ins : Instruction) : Instruction :=
  { ins with
    offset := ins.offset.relocate f
    operand :=
      match ins.operand with
      | .targets offsets => .targets (offsets.map (Number.relocate f))
      | operand => operand }

/-- A method with its body moved. -/
def Method.relocate (f : Nat → Nat) (m : Method) : Method :=
  { m with body := m.body.map (Instruction.relocate f) }

/-- Offsets and targets are naturals. -/
def Method.HasNaturalPlaces (m : Method) : Prop :=
  ∀ ins ∈ m.body, ins.offset.IsCount ∧ ∀ target ∈ ins.targets, target.IsCount

instance (m : Method) : Decidable m.HasNaturalPlaces :=
  inferInstanceAs
    (Decidable (∀ ins ∈ m.body, ins.offset.IsCount ∧ ∀ target ∈ ins.targets, target.IsCount))

/-- A flaw with what it says of targets moved. -/
def Flaw.relocate (f : Nat → Nat) : Flaw → Flaw
  | danglingTarget target => danglingTarget (target.relocate f)
  | offsetOrder => offsetOrder
  | operandKind opcode expected found => operandKind opcode expected found
  | stackEffect => stackEffect

/-- A malformed body as it is reported once the body has been moved: at the
same instruction, for the same reason. -/
def MalformedBody.relocate (f : Nat → Nat) (e : MalformedBody) : MalformedBody :=
  { e with offset := e.offset.relocate f, flaw := e.flaw.relocate f }

section Moved

variable {f : Nat → Nat}

namespace Instruction

variable (ins : Instruction)

theorem flow_relocate : (ins.relocate f).flow = ins.flow := rfl

theorem offset_relocate : (ins.relocate f).offset = ins.offset.relocate f := rfl

theorem targets_relocate : (ins.relocate f).targets = ins.targets.map (Number.relocate f) := by
  obtain ⟨offset, opcode, operand, flow, stack, mnemonic⟩ := ins
  cases operand <;> rfl

theorem kind_operand_relocate : (ins.relocate f).operand.kind = ins.operand.kind := by
  obtain ⟨offset, opcode, operand, flow, stack, mnemonic⟩ := ins
  cases operand <;> rfl

theorem stackEffect?_relocate : (ins.relocate f).stackEffect? = ins.stackEffect? := by
  obtain ⟨offset, opcode, operand, flow, stack, mnemonic⟩ := ins
  cases operand <;> rfl

theorem operandFlaw?_relocate :
    flaw?.operandFlaw? (ins.relocate f) = flaw?.operandFlaw? ins := by
  unfold flaw?.operandFlaw?
  rw [kind_operand_relocate]
  rfl

/-- An instruction by itself has the same flaw, behind an offset that compares
in the same way. -/
theorem flaw?_relocate {previous moved : Number} (hcount : ins.offset.IsCount)
    (horder : moved < ins.offset.relocate f ↔ previous < ins.offset) :
    (ins.relocate f).flaw? moved = (ins.flaw? previous).map (Flaw.relocate f) := by
  have hoffset : ((ins.relocate f).offset.IsInteger ∧ moved < (ins.relocate f).offset) ↔
      (ins.offset.IsInteger ∧ previous < ins.offset) := by
    rw [offset_relocate, horder]
    exact and_congr_left' (iff_of_true (Number.isCount_relocate hcount).1 hcount.1)
  unfold flaw?
  rw [operandFlaw?_relocate, stackEffect?_relocate]
  by_cases hproper : ins.offset.IsInteger ∧ previous < ins.offset
  · rw [if_neg (not_not_intro (hoffset.2 hproper)), if_neg (not_not_intro hproper)]
    cases hoperand : flaw?.operandFlaw? ins with
    | some flaw =>
        obtain ⟨opcode, kind, -, -, -, rfl⟩ := operandFlaw?_eq_some_iff.1 hoperand
        rfl
    | none =>
        cases ins.stackEffect? with
        | none => rfl
        | some effect =>
            dsimp only
            split <;> rfl
  · rw [if_pos (mt hoffset.1 hproper), if_pos hproper]
    rfl

/-- A branch goes to nowhere if it did. -/
theorem dangling?_relocate (hf : Function.Injective f) (offsets : List Number) :
    (ins.relocate f).dangling? (offsets.map (Number.relocate f)) =
      (ins.dangling? offsets).map (Flaw.relocate f) := by
  have hcontains : ((fun target => !(offsets.map (Number.relocate f)).contains target) ∘
      Number.relocate f) = fun target => !offsets.contains target := by
    funext target
    rw [Function.comp_apply, Bool.not_inj_iff, Bool.eq_iff_iff, List.contains_iff_mem,
      List.contains_iff_mem, List.mem_map]
    simp only [Number.relocate_inj hf, exists_eq_right]
  rw [dangling?, dangling?, targets_relocate, List.find?_map, hcontains, Option.map_map,
    Option.map_map]
  rfl

end Instruction

/-! ## The first flaw -/

/-- The first pass stops at the same instruction. -/
theorem firstOwnFlaw?_relocate (hf : StrictMono f) {body : List Instruction}
    (hcounts : ∀ ins ∈ body, ins.offset.IsCount) :
    ∀ (previous moved : Number) (index : Nat),
      (∀ a : Number, a.IsCount → (moved < a.relocate f ↔ previous < a)) →
      firstOwnFlaw? moved index (body.map (Instruction.relocate f)) =
        (firstOwnFlaw? previous index body).map
          fun found => (found.1, found.2.1.relocate f, found.2.2.relocate f) := by
  induction body with
  | nil => exact fun _ _ _ _ => rfl
  | cons ins rest ih =>
      intro previous moved index horder
      have hcount := hcounts ins List.mem_cons_self
      have hrest := ih (fun other hother => hcounts other (List.mem_cons_of_mem ins hother))
        ins.offset (ins.offset.relocate f) (index + 1)
        fun a ha => Number.relocate_lt_relocate hf hcount ha
      rw [List.map_cons, firstOwnFlaw?, firstOwnFlaw?,
        ins.flaw?_relocate hcount (horder ins.offset hcount)]
      cases ins.flaw? previous with
      | some flaw => rfl
      | none => exact hrest

/-- The second pass stops at the same instruction. -/
theorem firstDangling?_relocate (hf : Function.Injective f) (offsets : List Number)
    (body : List Instruction) :
    ∀ index : Nat,
      firstDangling? (offsets.map (Number.relocate f)) index (body.map (Instruction.relocate f)) =
        (firstDangling? offsets index body).map
          fun found => (found.1, found.2.1.relocate f, found.2.2.relocate f) := by
  induction body with
  | nil => exact fun _ => rfl
  | cons ins rest ih =>
      intro index
      rw [List.map_cons, firstDangling?, firstDangling?, ins.dangling?_relocate hf]
      cases ins.dangling? offsets with
      | some flaw => rfl
      | none => exact ih (index + 1)

namespace Method

variable {m : Method}

theorem body_relocate : (m.relocate f).body = m.body.map (Instruction.relocate f) := rfl

/-- No count is at or below `-1`, moved or not. -/
theorem negOne_lt_relocate_iff {a : Number} (ha : a.IsCount) : -1 < a.relocate f ↔ -1 < a :=
  iff_of_true (Number.isCount_iff.1 (Number.isCount_relocate ha)).1 (Number.isCount_iff.1 ha).1

/-- **The flaw is moved with the body**, and so is its absence. -/
theorem firstFlaw?_relocate (hf : StrictMono f) (hplaces : m.HasNaturalPlaces) :
    (m.relocate f).firstFlaw? = m.firstFlaw?.map (MalformedBody.relocate f) := by
  have hoffsets : (m.body.map (Instruction.relocate f)).map Instruction.offset =
      (m.body.map Instruction.offset).map (Number.relocate f) := by
    rw [List.map_map, List.map_map]
    rfl
  have hown := firstOwnFlaw?_relocate hf (fun ins hins => (hplaces ins hins).1) (-1) (-1) 0
    fun a ha => negOne_lt_relocate_iff ha
  unfold firstFlaw?
  rw [body_relocate, hoffsets, hown, firstDangling?_relocate hf.injective, ← Option.map_or,
    Option.map_map, Option.map_map]
  rfl

/-! ## Receivers -/

/-- A moved offset is a target of the moved body if it was one before. -/
theorem contains_branchTargets_relocate (hf : Function.Injective f) (a : Number) :
    (m.relocate f).branchTargets.contains (a.relocate f) = m.branchTargets.contains a := by
  rw [Bool.eq_iff_iff, List.contains_iff_mem, List.contains_iff_mem, branchTargets, branchTargets,
    List.mem_eraseDups, List.mem_eraseDups, body_relocate, List.flatMap_map, List.mem_flatMap,
    List.mem_flatMap]
  refine exists_congr fun ins => and_congr_right fun _ => ?_
  rw [ins.targets_relocate, List.mem_map]
  simp only [Number.relocate_inj hf, exists_eq_right]

/-- The walk goes on and stops where it did. -/
theorem producerBefore?_relocate {targets moved : List Number}
    (htargets : ∀ a : Number, moved.contains (a.relocate f) = targets.contains a)
    (earlier : List Instruction) :
    ∀ (pending : Number) (consumer : Instruction),
      producerBefore? moved pending (consumer.relocate f)
          (earlier.map (Instruction.relocate f)) =
        producerBefore? targets pending consumer earlier := by
  induction earlier with
  | nil => exact fun _ _ => rfl
  | cons producer earlier ih =>
      intro pending consumer
      rw [List.map_cons, producerBefore?, producerBefore?, consumer.offset_relocate, htargets,
        producer.flow_relocate, producer.stackEffect?_relocate, List.length_map]
      cases producer.stackEffect? with
      | none => rfl
      | some effect =>
          dsimp only
          rw [ih]

/-- **Producers keep their positions.** -/
theorem producer?_relocate (hf : Function.Injective f) (index : Nat) :
    (m.relocate f).producer? (m.relocate f).branchTargets index =
      m.producer? m.branchTargets index := by
  unfold producer?
  rw [body_relocate, List.getElem?_map, ← List.map_take, ← List.map_reverse]
  cases m.body[index]? with
  | none => rfl
  | some consumer =>
      dsimp only [Option.map_some]
      rw [consumer.stackEffect?_relocate]
      cases consumer.stackEffect? with
      | none => rfl
      | some effect =>
          dsimp only
          rw [producerBefore?_relocate (contains_branchTargets_relocate hf)]

theorem consumesSelf_relocate (hf : Function.Injective f) (index : Nat) :
    (m.relocate f).consumesSelf (m.relocate f).branchTargets index =
      m.consumesSelf m.branchTargets index := by
  unfold consumesSelf
  rw [producer?_relocate hf, body_relocate]
  cases m.producer? m.branchTargets index with
  | none => rfl
  | some start =>
      simp only [Option.bind_some, List.getElem?_map]
      cases m.body[start]? <;> rfl

theorem opcodes_relocate : (m.relocate f).opcodes = m.opcodes := by
  rw [opcodes, body_relocate, List.foldl_map]
  rfl

end Method

/-! ## The guard rule -/

namespace GuardOptions

variable {m : Method} (options : GuardOptions) (context : RuleContext)

/-- An instruction shows what it showed. -/
theorem shows_relocate (hf : Function.Injective f) (signal : Signal) (index : Nat)
    (ins : Instruction) :
    options.shows context (m.relocate f).facts (m.relocate f) signal index (ins.relocate f) =
      options.shows context m.facts m signal index ins := by
  have hself := Method.consumesSelf_relocate (m := m) hf index
  obtain ⟨offset, opcode, operand, flow, stack, mnemonic⟩ := ins
  cases signal <;> cases operand <;> first | rfl | exact congrArg (_ && ·) hself

/-- One instruction adds the signals that it added, at its new offset. -/
theorem sight_relocate (hf : Function.Injective f) (seen : List (Signal × Number))
    (entry : Instruction × Nat) :
    options.sight context (m.relocate f).facts (m.relocate f)
        (seen.map (Prod.map id (Number.relocate f))) (Prod.map (Instruction.relocate f) id entry) =
      (options.sight context m.facts m seen entry).map (Prod.map id (Number.relocate f)) := by
  have hseen (signal : Signal) :
      ((seen.map (Prod.map id (Number.relocate f))).any fun sighting => sighting.1 = signal) =
        seen.any fun sighting => sighting.1 = signal := by
    rw [List.any_map]
    rfl
  simp only [sight, hseen, Prod.map_fst, Prod.map_snd, id_eq, shows_relocate options context hf,
    List.map_append, List.map_map]
  rfl

/-- **The signals are shown by the same instructions**, at their new
offsets. -/
theorem sightings_relocate (hf : Function.Injective f) :
    options.sightings context (m.relocate f).facts (m.relocate f) =
      (options.sightings context m.facts m).map (Prod.map id (Number.relocate f)) := by
  rw [sightings, sightings, Method.body_relocate, List.zipIdx_map, List.foldl_map]
  show List.foldl _ (List.map (Prod.map id (Number.relocate f)) []) _ = _
  exact List.foldl_hom _ (options.sight_relocate context hf)

/-- The rule passes over the moved body if it passes over the body. -/
theorem passesOver_relocate (hmark : context.isGenerated (m.relocate f) = context.isGenerated m) :
    options.PassesOver context (m.relocate f) ↔ options.PassesOver context m := by
  have heligible : options.isEligible context (m.relocate f).facts (m.relocate f) =
      options.isEligible context m.facts m := by
    unfold isEligible
    rw [Method.facts, Method.opcodes_relocate]
    rfl
  rw [PassesOver, PassesOver, ← isEligible_iff, ← isEligible_iff, heligible, hmark,
    Method.body_relocate, List.map_eq_nil_iff]
  rfl

/-- The rule says the same of both bodies in a context that tells the same of
both methods. -/
theorem inspect_relocate (hf : StrictMono f) (hplaces : m.HasNaturalPlaces)
    (hmark : context.isGenerated (m.relocate f) = context.isGenerated m) :
    (options.inspect context (m.relocate f).facts (m.relocate f)).outcome =
        (options.inspect context m.facts m).outcome ∧
      (options.inspect context (m.relocate f).facts (m.relocate f)).findings =
        (options.inspect context m.facts m).findings := by
  have hover : options.PassesOver context (m.relocate f) ↔ options.PassesOver context m :=
    options.passesOver_relocate context hmark
  by_cases hpasses : options.PassesOver context m
  · rw [inspect_of_passesOver _ _ _ hpasses, inspect_of_passesOver _ _ _ (hover.2 hpasses)]
    exact ⟨rfl, rfl⟩
  have hsignals : (options.sightings context (m.relocate f).facts (m.relocate f)).map Prod.fst =
      (options.sightings context m.facts m).map Prod.fst := by
    rw [options.sightings_relocate context hf.injective, List.map_map]
    rfl
  rw [inspect_of_not_passesOver _ _ _ hpasses, inspect_of_not_passesOver _ _ _ (mt hover.1 hpasses),
    Method.firstFlaw?_relocate hf hplaces, hsignals]
  cases m.firstFlaw? with
  | some flaw => exact ⟨rfl, rfl⟩
  | none =>
      dsimp only [Option.map_none]
      split
      · rw [readingLog, readingLog, findings_logged, findings_logged]
        exact ⟨rfl, rfl⟩
      · rw [findings_readingLog, findings_readingLog]
        exact ⟨rfl, rfl⟩

end GuardOptions

/--
**Only the order and the equality of offsets matter.** Let the offsets and
the targets of a body be moved by a strictly increasing function. The moved
body is accepted if the body was; otherwise it is rejected at the same
instruction for the same reason, told at the new offset and of the new
target. Every instruction has the producer that it had, and consumes the
instance if it did. And for all options the guard rule reaches the same
verdict and reports the same findings, in every context that tells of both
methods whether they are generated in the same way. The context of a codebase
does, since it looks at flags and types only.
-/
theorem Method.analysis_relocate (hf : StrictMono f) {m : Method}
    (hplaces : m.HasNaturalPlaces) :
    (m.relocate f).hasValidBody = m.hasValidBody ∧
      (m.relocate f).firstFlaw? = m.firstFlaw?.map (MalformedBody.relocate f) ∧
      (∀ index : Nat,
        (m.relocate f).producer? (m.relocate f).branchTargets index =
            m.producer? m.branchTargets index ∧
          (m.relocate f).consumesSelf (m.relocate f).branchTargets index =
            m.consumesSelf m.branchTargets index) ∧
      (∀ (options : GuardOptions) (context : RuleContext),
        context.isGenerated (m.relocate f) = context.isGenerated m →
        (options.inspect context (m.relocate f).facts (m.relocate f)).outcome =
            (options.inspect context m.facts m).outcome ∧
          (options.inspect context (m.relocate f).facts (m.relocate f)).findings =
            (options.inspect context m.facts m).findings) ∧
      ∀ c : Codebase, c.context.isGenerated (m.relocate f) = c.context.isGenerated m := by
  have hflaw := firstFlaw?_relocate hf hplaces
  have hvalid : (m.relocate f).hasValidBody = m.hasValidBody := by
    rw [hasValidBody, hasValidBody, hflaw, Option.isNone_map]
  refine ⟨hvalid, hflaw, fun index => ⟨?_, ?_⟩, fun options context hmark => ?_, fun c => rfl⟩
  · exact producer?_relocate hf.injective index
  · exact consumesSelf_relocate hf.injective index
  · exact options.inspect_relocate context hf hplaces hmark

end Moved

/-- A method that reads a field of its own instance until it is done. -/
def waitingMethod : Method where
  declaringType := "T"
  name := "Wait"
  returnType := voidType
  parameters := []
  flags := ⟨true, false, false, false, false, false, false⟩
  body :=
    [⟨0, some .loadSelf, .nothing, .next, none, none⟩,
      ⟨1, some .loadField, .field ⟨"T", "done", "System.Boolean"⟩, .next, none, none⟩,
      ⟨2, some .other, .targets [0], .branch, some ⟨1, 0⟩, none⟩,
      ⟨3, some .other, .nothing, .returns, some ⟨0, 0⟩, none⟩]

/-- The loop is still a loop when its instructions stand two apart. -/
theorem waitingMethod_relocate :
    StrictMono (fun n : Nat => 2 * n + 7) ∧ waitingMethod.HasNaturalPlaces ∧
      (waitingMethod.relocate fun n => 2 * n + 7).branchTargets = [7] ∧
      (waitingMethod.relocate fun n => 2 * n + 7).firstFlaw? = none ∧
      (waitingMethod.relocate fun n => 2 * n + 7).consumesSelf [7] 1 = true ∧
      (GuardOptions.standard.inspect ⟨fun _ _ => true, fun _ => none, fun _ => false⟩
        (waitingMethod.relocate fun n => 2 * n + 7).facts
        (waitingMethod.relocate fun n => 2 * n + 7)).outcome = .ok .failure := by
  have hf : StrictMono (fun n : Nat => 2 * n + 7) := fun a b hlt => by
    show 2 * a + 7 < 2 * b + 7
    omega
  have hplaces : waitingMethod.HasNaturalPlaces := by decide +kernel
  have htargets : (waitingMethod.relocate fun n => 2 * n + 7).branchTargets = [7] := by
    decide +kernel
  obtain ⟨-, hflaw, hreceivers, hrule, -⟩ := Method.analysis_relocate hf hplaces
  refine ⟨hf, hplaces, htargets, hflaw.trans ?_, ?_, (hrule _ _ rfl).1.trans ?_⟩
  · decide +kernel
  · rw [← htargets, (hreceivers 1).2]
    decide +kernel
  · decide +kernel

/-- A context may ask where a method begins, and takes the moved loop for
generated code. And of naturals next to each other only one may have a number
of its own: of the body `0, 1` moved by `2 ^ 53` both instructions stand at
one offset. -/
theorem waitingMethod_told_apart :
    (let context : RuleContext :=
      ⟨fun _ _ => true, fun _ => none, fun m => m.body.any fun ins => ins.offset = 7⟩
     (GuardOptions.standard.inspect context waitingMethod.facts waitingMethod).outcome =
        .ok .failure ∧
      (GuardOptions.standard.inspect context (waitingMethod.relocate fun n => 2 * n + 7).facts
        (waitingMethod.relocate fun n => 2 * n + 7)).outcome = .ok .doesNotApply) ∧
    (let steps (start : Rat) : Method :=
      { waitingMethod with
        body := [⟨.nearest start, some .loadSelf, .nothing, .next, none, none⟩,
          ⟨.nearest (start + 1), some .other, .nothing, .returns, some ⟨1, 0⟩, none⟩] }
     (steps 0).hasValidBody = true ∧ (steps 9007199254740992).hasValidBody = false) := by
  decide +kernel

end DisposalAudit
