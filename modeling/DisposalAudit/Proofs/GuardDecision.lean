import DisposalAudit.Proofs.OpcodeSets
import DisposalAudit.Rule.DisposedGuard

/-!
# What the guard rule decides

The rule reads a body once and remembers which signals it has seen. Here its
verdict is told by what the body contains, without order or memory: the scan
has seen a signal exactly if some instruction shows it, and the early ways
out are the conditions under which the rule has nothing to say.

## Main definitions

* `GuardOptions.IsExempt`, `GuardOptions.IsEligible` — the methods that the
  rule concerns, by their declaration.
* `GuardOptions.Violates` — use of instance state without a guard.

## Main results

* `GuardOptions.mem_sightings_iff` — the scan sees what is there.
* `GuardOptions.inspect_decides` — the verdict and the findings.
-/

namespace DisposalAudit

/-! ## Declarations -/

namespace MethodPattern

/-- A pattern without parameters accepts methods without parameters. -/
theorem accepts_nullary_iff {name returnType : String} {m : Method} :
    accepts ⟨name, some returnType, some []⟩ m = true ↔
      m.name = name ∧ m.returnType = returnType ∧ m.parameters = [] := by
  rw [eq_comm (a := m.returnType)]
  cases hparams : m.parameters <;>
    simp [accepts, acceptsTypes, Method.parameterTypes, hparams]

/-- A pattern with one parameter of any type accepts methods with one
parameter. -/
theorem accepts_unary_iff {name returnType : String} {m : Method} :
    accepts ⟨name, some returnType, some [none]⟩ m = true ↔
      m.name = name ∧ m.returnType = returnType ∧ m.parameters.length = 1 := by
  rw [eq_comm (a := m.returnType)]
  rcases hparams : m.parameters with _ | ⟨first, _ | ⟨second, rest⟩⟩ <;>
    simp [accepts, acceptsTypes, Method.parameterTypes, hparams]

end MethodPattern

namespace Instruction

/-- A direct or virtual call. -/
def IsCall (ins : Instruction) : Prop :=
  ins.opcode = some .callDirect ∨ ins.opcode = some .callVirtual

/-- A field that is read, written, or whose address is taken. -/
def IsFieldAccess (ins : Instruction) : Prop :=
  ins.opcode = some .loadField ∨ ins.opcode = some .storeField ∨
    ins.opcode = some .loadFieldAddress

theorem any_isCall_iff {ins : Instruction} :
    ins.opcode.any Opcode.isCall = true ↔ ins.IsCall := by
  cases hopcode : ins.opcode with
  | none => simp [IsCall, hopcode]
  | some opcode => cases opcode <;> simp [IsCall, hopcode, Opcode.isCall]

theorem any_isFieldAccess_iff {ins : Instruction} :
    ins.opcode.any Opcode.isFieldAccess = true ↔ ins.IsFieldAccess := by
  cases hopcode : ins.opcode with
  | none => simp [IsFieldAccess, hopcode]
  | some opcode => cases opcode <;> simp [IsFieldAccess, hopcode, Opcode.isFieldAccess]

end Instruction

/-- The fixed mask is met by the bodies that call or access fields. -/
theorem Method.touches_iff (m : Method) :
    m.opcodes.intersects .callsAndFields = true ↔
      ∃ ins ∈ m.body, ins.IsCall ∨ ins.IsFieldAccess := by
  rw [opcodes_intersects_iff]
  refine exists_congr fun ins => and_congr_right fun _ => ?_
  rw [← Instruction.any_isCall_iff, ← Instruction.any_isFieldAccess_iff]
  cases ins.opcode <;> simp [OpcodeSet.contains_callsAndFields]

namespace GuardOptions

variable (options : GuardOptions) (context : RuleContext) (m : Method)

/-- Whether a method may be called after disposal by what its declaration
says. -/
def IsExempt : Prop :=
  m.flags.isConstructor = true ∨ m.flags.isFinalizer = true ∨
    (m.name = "Finalize" ∧ m.returnType = "System.Void" ∧ m.parameters = []) ∨
    m.flags.isPropertyGetter = true ∨ m.flags.isEventAccessor = true ∨
    (m.name = "Equals" ∧ m.returnType = "System.Boolean" ∧ m.parameters.length = 1) ∨
    (m.name = "GetHashCode" ∧ m.returnType = "System.Int32" ∧ m.parameters = []) ∨
    (m.name = "ToString" ∧ m.returnType = "System.String" ∧ m.parameters = []) ∨
    (m.name = "Close" ∧ m.returnType = "System.Void" ∧ m.parameters = []) ∨
    m.name = options.disposeMethod

/-- Whether a method is public, touches calls or fields, belongs to a
disposable type, and is not exempt. -/
structure IsEligible : Prop where
  isPublic : m.flags.isPublic = true
  touches : ∃ ins ∈ m.body, ins.IsCall ∨ ins.IsFieldAccess
  disposable : context.implements m.declaringType options.lifecycleInterface = true
  notExempt : ¬ options.IsExempt m

theorem mayThrow_eq_false_iff : options.mayThrow m = false ↔ options.IsExempt m := by
  simp only [mayThrow, IsExempt, MethodPattern.finalize, MethodPattern.equals,
    MethodPattern.getHashCode, MethodPattern.toText, MethodPattern.close, voidType,
    Bool.and_eq_false_iff, Bool.not_eq_false', Bool.or_eq_true, decide_eq_false_iff_not,
    Decidable.not_not, MethodPattern.accepts_nullary_iff, MethodPattern.accepts_unary_iff, or_assoc]

theorem isEligible_iff :
    options.isEligible context m.facts m = true ↔ options.IsEligible context m := by
  have htouches : m.facts.opcodes.intersects .callsAndFields = true ↔ _ := m.touches_iff
  rw [isEligible, Bool.and_eq_true, Bool.and_eq_true, Bool.and_eq_true, htouches,
    ← Bool.not_eq_false (options.mayThrow m), mayThrow_eq_false_iff]
  constructor
  · intro hall
    obtain ⟨⟨⟨hpublic, htouch⟩, hdisposable⟩, hexempt⟩ := hall
    exact ⟨hpublic, htouch, hdisposable, hexempt⟩
  · intro hall
    obtain ⟨hpublic, htouch, hdisposable, hexempt⟩ := hall
    exact ⟨⟨⟨hpublic, htouch⟩, hdisposable⟩, hexempt⟩

/-! ## Signals -/

/-- Some call through the instance itself resolves to a method of the own
type that is neither public nor static. -/
def CallsHiddenSelf : Prop :=
  ∃ k ins ref callee, m.body[k]? = some ins ∧ ins.IsCall ∧ ins.operand = .method ref ∧
    context.resolve? ref = some callee ∧ callee.isPublic = false ∧ callee.isStatic = false ∧
    callee.declaringType = m.declaringType ∧ m.consumesSelf m.branchTargets k = true

/-- Some access through the instance itself goes to a field of the own
type. -/
def AccessesSelf : Prop :=
  ∃ k ins ref, m.body[k]? = some ins ∧ ins.IsFieldAccess ∧ ins.operand = .field ref ∧
    ref.declaringType = m.declaringType ∧ m.consumesSelf m.branchTargets k = true

/-- Some instruction constructs the guard exception. -/
def ConstructsGuard : Prop :=
  ∃ ins ref, ins ∈ m.body ∧ ins.opcode = some .construct ∧ ins.operand = .method ref ∧
    ref.declaringType = options.guardException

/-- Some call has a name with all the fragments of checking helpers. -/
def CallsHelper : Prop :=
  ∃ ins ref, ins ∈ m.body ∧ ins.IsCall ∧ ins.operand = .method ref ∧
    options.helperNameFragments ≠ [] ∧
    ∀ part ∈ options.helperNameFragments,
      ∃ front back, ref.name.toList = front ++ part.toList ++ back

/-- Instance state is used, and nothing guards the use. -/
def Violates : Prop :=
  (CallsHiddenSelf context m ∨ AccessesSelf m) ∧ ¬ options.ConstructsGuard m ∧
    ¬ options.CallsHelper m

/-- Whether some instruction of the body shows a signal. -/
def IsShown (signal : Signal) : Prop :=
  ∃ k ins, m.body[k]? = some ins ∧ options.shows context m.facts m signal k ins = true

theorem isHelperName_iff {name : String} :
    options.isHelperName name = true ↔
      options.helperNameFragments ≠ [] ∧ ∀ part ∈ options.helperNameFragments,
        ∃ front back, name.toList = front ++ part.toList ++ back := by
  simp only [isHelperName, Bool.and_eq_true, Bool.not_eq_true', List.all_eq_true,
    Text.contains_iff, List.isEmpty_eq_false_iff, ne_eq]

/-! ### One instruction -/

variable {options context m}

theorem shows_selfCall_iff {k : Nat} {ins : Instruction} :
    options.shows context m.facts m .selfCall k ins = true ↔
      ∃ ref callee, ins.IsCall ∧ ins.operand = .method ref ∧ context.resolve? ref = some callee ∧
        callee.isPublic = false ∧ callee.isStatic = false ∧
        callee.declaringType = m.declaringType ∧ m.consumesSelf m.branchTargets k = true := by
  cases hoperand : ins.operand with
  | method ref =>
      simp only [shows, hoperand, Bool.and_eq_true, Instruction.any_isCall_iff]
      simp only [Option.any_eq_true, isHiddenMember, Bool.and_eq_true, Bool.not_eq_true',
        decide_eq_true_eq, Operand.method.injEq]
      constructor
      · intro hall
        obtain ⟨⟨hcall, callee, hcallee, ⟨hpublic, hstatic⟩, htype⟩, hself⟩ := hall
        exact ⟨ref, callee, hcall, rfl, hcallee, hpublic, hstatic, htype, hself⟩
      · intro hall
        obtain ⟨_, callee, hcall, rfl, hcallee, hpublic, hstatic, htype, hself⟩ := hall
        exact ⟨⟨hcall, callee, hcallee, ⟨hpublic, hstatic⟩, htype⟩, hself⟩
  | nothing => simp [shows, hoperand]
  | field ref => simp [shows, hoperand]
  | targets offsets => simp [shows, hoperand]

theorem shows_selfField_iff {k : Nat} {ins : Instruction} :
    options.shows context m.facts m .selfField k ins = true ↔
      ∃ ref, ins.IsFieldAccess ∧ ins.operand = .field ref ∧
        ref.declaringType = m.declaringType ∧ m.consumesSelf m.branchTargets k = true := by
  cases hoperand : ins.operand with
  | field ref =>
      simp only [shows, hoperand, Bool.and_eq_true, Instruction.any_isFieldAccess_iff,
        decide_eq_true_eq, Operand.field.injEq]
      constructor
      · intro hall
        obtain ⟨⟨haccess, htype⟩, hself⟩ := hall
        exact ⟨ref, haccess, rfl, htype, hself⟩
      · intro hall
        obtain ⟨_, haccess, rfl, htype, hself⟩ := hall
        exact ⟨⟨haccess, htype⟩, hself⟩
  | nothing => simp [shows, hoperand]
  | method ref => simp [shows, hoperand]
  | targets offsets => simp [shows, hoperand]

theorem shows_guardConstruction_iff {k : Nat} {ins : Instruction} :
    options.shows context m.facts m .guardConstruction k ins = true ↔
      ∃ ref, ins.opcode = some .construct ∧ ins.operand = .method ref ∧
        ref.declaringType = options.guardException := by
  cases hoperand : ins.operand with
  | method ref =>
      simp only [shows, hoperand, Bool.and_eq_true, decide_eq_true_eq, Operand.method.injEq]
      constructor
      · intro hall
        obtain ⟨hopcode, htype⟩ := hall
        exact ⟨ref, hopcode, rfl, htype⟩
      · intro hall
        obtain ⟨_, hopcode, rfl, htype⟩ := hall
        exact ⟨hopcode, htype⟩
  | nothing => simp [shows, hoperand]
  | field ref => simp [shows, hoperand]
  | targets offsets => simp [shows, hoperand]

theorem shows_helperCall_iff {k : Nat} {ins : Instruction} :
    options.shows context m.facts m .helperCall k ins = true ↔
      ∃ ref, ins.IsCall ∧ ins.operand = .method ref ∧ options.helperNameFragments ≠ [] ∧
        ∀ part ∈ options.helperNameFragments,
          ∃ front back, ref.name.toList = front ++ part.toList ++ back := by
  cases hoperand : ins.operand with
  | method ref =>
      simp only [shows, hoperand, Bool.and_eq_true, Instruction.any_isCall_iff, isHelperName_iff,
        Operand.method.injEq]
      constructor
      · intro hall
        obtain ⟨hcall, hname⟩ := hall
        exact ⟨ref, hcall, rfl, hname⟩
      · intro hall
        obtain ⟨_, hcall, rfl, hname⟩ := hall
        exact ⟨hcall, hname⟩
  | nothing => simp [shows, hoperand]
  | field ref => simp [shows, hoperand]
  | targets offsets => simp [shows, hoperand]

/-! ### Some instruction -/

variable (options context m)

theorem isShown_selfCall_iff :
    options.IsShown context m .selfCall ↔ CallsHiddenSelf context m := by
  simp only [IsShown, shows_selfCall_iff, CallsHiddenSelf, exists_and_left]

theorem isShown_selfField_iff :
    options.IsShown context m .selfField ↔ AccessesSelf m := by
  simp only [IsShown, shows_selfField_iff, AccessesSelf, exists_and_left]

theorem isShown_guardConstruction_iff :
    options.IsShown context m .guardConstruction ↔ options.ConstructsGuard m := by
  simp only [IsShown, shows_guardConstruction_iff, ConstructsGuard, List.mem_iff_getElem?,
    exists_and_left]
  rw [exists_comm]
  simp only [exists_and_right]

theorem isShown_helperCall_iff :
    options.IsShown context m .helperCall ↔ options.CallsHelper m := by
  simp only [IsShown, shows_helperCall_iff, CallsHelper, List.mem_iff_getElem?, exists_and_left]
  rw [exists_comm]
  simp only [exists_and_right]

/-! ## The scan -/

/-- One instruction adds the signals that it shows, and keeps those that had
been seen. -/
theorem mem_sight_iff (facts : BodyFacts) (seen : List (Signal × Number))
    (entry : Instruction × Nat) (signal : Signal) :
    signal ∈ (options.sight context facts m seen entry).map Prod.fst ↔
      signal ∈ seen.map Prod.fst ∨ options.shows context facts m signal entry.2 entry.1 = true := by
  have hall : signal ∈ Signal.all := by
    cases signal <;> decide
  have hseen : (seen.any fun sighting => decide (sighting.1 = signal)) = true ↔
      signal ∈ seen.map Prod.fst := by
    simp
  by_cases hold : signal ∈ seen.map Prod.fst
  · simp only [sight, List.map_append, List.mem_append, hold, true_or]
  · rw [← hseen, Bool.not_eq_true] at hold
    rw [sight, List.map_append, List.mem_append, ← hseen, hold, List.map_map]
    simp only [Bool.false_eq_true, false_or, List.mem_map, List.mem_filter, Function.comp_apply,
      exists_eq_right, hall, hold, Bool.not_false, Bool.true_and, true_and]

/-- A scan has seen what it had seen before, and what the instructions that
it has read show. -/
theorem mem_foldl_sight_iff (facts : BodyFacts) (signal : Signal)
    (entries : List (Instruction × Nat)) :
    ∀ seen : List (Signal × Number),
      signal ∈ (entries.foldl (options.sight context facts m) seen).map Prod.fst ↔
        signal ∈ seen.map Prod.fst ∨
          ∃ entry ∈ entries, options.shows context facts m signal entry.2 entry.1 = true := by
  induction entries with
  | nil => simp
  | cons entry rest ih =>
      intro seen
      rw [List.foldl_cons, ih, mem_sight_iff, or_assoc]
      simp only [List.mem_cons, exists_eq_or_imp]

/-- The scan sees a signal if and only if some instruction shows it. -/
theorem mem_sightings_iff (signal : Signal) :
    signal ∈ (options.sightings context m.facts m).map Prod.fst ↔
      options.IsShown context m signal := by
  rw [sightings, mem_foldl_sight_iff]
  simp only [List.map_nil, List.not_mem_nil, false_or, Prod.exists, List.mem_zipIdx_iff_getElem?,
    IsShown]
  exact exists_comm

/-- The scan finds a violation if and only if the body holds one. -/
theorem isViolation_sightings_iff :
    isViolation ((options.sightings context m.facts m).map Prod.fst) = true ↔
      options.Violates context m := by
  simp only [isViolation, Bool.and_eq_true, Bool.or_eq_true, Bool.not_eq_true', ← Bool.not_eq_true,
    List.contains_iff_mem, mem_sightings_iff, isShown_selfCall_iff, isShown_selfField_iff,
    isShown_guardConstruction_iff, isShown_helperCall_iff, Violates, and_assoc]

/-! ## What the rule asks of its context -/

/-- A signal depends on the context through the callees that are hidden
members of the type of the method. -/
theorem shows_congr {options : GuardOptions} {context context' : RuleContext} {m : Method}
    (facts : BodyFacts)
    (hmember : ∀ ref, (context.resolve? ref).any (isHiddenMember m.declaringType) =
      (context'.resolve? ref).any (isHiddenMember m.declaringType)) :
    options.shows context facts m = options.shows context' facts m := by
  funext signal index ins
  cases signal <;> cases hoperand : ins.operand <;> simp only [shows, hoperand, hmember]

/-- Two contexts that tell the same of a method and its type, and of what is
a hidden member of it, lead to the same inspection. -/
theorem inspect_congr {options : GuardOptions} {context context' : RuleContext} {m : Method}
    (facts : BodyFacts)
    (himplements : context.implements m.declaringType options.lifecycleInterface =
      context'.implements m.declaringType options.lifecycleInterface)
    (hgenerated : context.isGenerated m = context'.isGenerated m)
    (hmember : ∀ ref, (context.resolve? ref).any (isHiddenMember m.declaringType) =
      (context'.resolve? ref).any (isHiddenMember m.declaringType)) :
    options.inspect context facts m = options.inspect context' facts m := by
  have hsight : options.sight context facts m = options.sight context' facts m := by
    funext seen entry
    rw [sight, sight, shows_congr facts hmember]
  have hsightings : options.sightings context facts m = options.sightings context' facts m := by
    rw [sightings, sightings, hsight]
  have heligible : options.isEligible context facts m = options.isEligible context' facts m := by
    rw [isEligible, isEligible, himplements]
  rw [inspect, inspect, hgenerated, heligible, hsightings]

/-! ## The verdict -/

/-- The rule has nothing to say about a method that has no body, is generated
or is not eligible. -/
def PassesOver : Prop :=
  m.body = [] ∨ m.flags.isGenerated = true ∨ context.isGenerated m = true ∨
    ¬ options.IsEligible context m

theorem inspect_of_passesOver (hover : options.PassesOver context m) :
    options.inspect context m.facts m = .pure .doesNotApply := by
  rw [inspect]
  by_cases hbody : m.body.isEmpty = true
  · rw [if_pos hbody]
  · rw [if_neg hbody]
    by_cases hgenerated : (m.flags.isGenerated || context.isGenerated m) = true
    · rw [if_pos hgenerated]
    · rw [if_neg hgenerated, if_pos]
      rw [Bool.not_eq_true', ← Bool.not_eq_true, isEligible_iff]
      rw [Bool.or_eq_true, not_or] at hgenerated
      rcases hover with hempty | hflag | hmark | heligible
      · exact absurd (List.isEmpty_iff.2 hempty) hbody
      · exact absurd hflag hgenerated.1
      · exact absurd hmark hgenerated.2
      · exact heligible

/-- What the rule logs about a body that it reads. -/
def readingLog : List RuleEvent :=
  ("-----------------------------------------" :: m.signature ::
    (options.sightings context m.facts m).map fun (signal, offset) =>
      signal.describe offset).map fun message => .logged (entry .debug message)

theorem inspect_of_not_passesOver (hover : ¬ options.PassesOver context m) :
    options.inspect context m.facts m =
      match m.firstFlaw? with
      | some flaw =>
        ⟨[.logged (entry .warning ("skipping " ++ m.signature ++ ": " ++ flaw.message))],
          .ok .skipped⟩
      | none =>
        if isViolation ((options.sightings context m.facts m).map Prod.fst) then
          ⟨options.readingLog context m ++ [.reported (options.finding m)], .ok .failure⟩
        else ⟨options.readingLog context m, .ok .success⟩ := by
  simp only [PassesOver, not_or, Classical.not_not] at hover
  obtain ⟨hbody, hflag, hmark, heligible⟩ := hover
  have hgenerated : ¬ (m.flags.isGenerated || context.isGenerated m) = true := by
    rw [Bool.or_eq_true, not_or]
    exact ⟨hflag, hmark⟩
  rw [← isEligible_iff] at heligible
  rw [inspect, if_neg (by rwa [List.isEmpty_iff]), if_neg hgenerated, heligible]
  rfl

theorem findings_logged (messages : List String) (events : List RuleEvent)
    (outcome : Except String Verdict) (level : LogLevel) :
    Inspection.findings ⟨messages.map (fun message => .logged (entry level message)) ++ events,
      outcome⟩ = Inspection.findings ⟨events, outcome⟩ := by
  induction messages with
  | nil => rfl
  | cons message rest ih => exact ih

/-- Reading alone reports nothing. -/
theorem findings_readingLog (outcome : Except String Verdict) :
    Inspection.findings ⟨options.readingLog context m, outcome⟩ = [] := by
  rw [← List.append_nil (options.readingLog context m), readingLog, findings_logged]
  rfl

/--
**The guard rule decides what it is about.** For all options, contexts and
methods the rule reaches a verdict. It does not apply to methods without a
body, to generated ones and to those that are not eligible; of the others it
skips those whose body is malformed, and fails those that use instance state
without a guard. A failure is one finding, and nothing else reports any.
-/
theorem inspect_decides :
    ∃ verdict, (options.inspect context m.facts m).outcome = .ok verdict ∧
      (verdict = .doesNotApply ↔
        m.body = [] ∨ m.flags.isGenerated = true ∨ context.isGenerated m = true ∨
          ¬ options.IsEligible context m) ∧
      (verdict = .skipped ↔ verdict ≠ .doesNotApply ∧ m.hasValidBody = false) ∧
      (verdict = .failure ↔
        verdict ≠ .doesNotApply ∧ m.hasValidBody = true ∧ options.Violates context m) ∧
      (verdict = .success ↔
        verdict ≠ .doesNotApply ∧ m.hasValidBody = true ∧ ¬ options.Violates context m) ∧
      (options.inspect context m.facts m).findings =
        if verdict = .failure then [options.finding m] else [] := by
  by_cases hover : options.PassesOver context m
  · rw [inspect_of_passesOver options context m hover]
    exact ⟨.doesNotApply, rfl, by simpa [PassesOver] using hover, by simp, by simp, by simp, rfl⟩
  · rw [inspect_of_not_passesOver options context m hover]
    simp only [Method.hasValidBody, ← isViolation_sightings_iff]
    cases hflaw : m.firstFlaw? with
    | some flaw =>
        exact ⟨.skipped, rfl, by simpa [PassesOver] using hover, by simp, by simp, by simp, rfl⟩
    | none =>
        dsimp only
        split
        · rename_i hviolation
          refine ⟨.failure, rfl, by simpa [PassesOver] using hover, by simp, by simp [hviolation],
            by simp [hviolation], ?_⟩
          exact findings_logged _ _ _ _
        · rename_i hviolation
          refine ⟨.success, rfl, by simpa [PassesOver] using hover, by simp, by simp [hviolation],
            by simp [hviolation], ?_⟩
          have hnone := findings_logged ("-----------------------------------------" ::
            m.signature :: (options.sightings context m.facts m).map fun (signal, offset) =>
              signal.describe offset) [] (.ok .success) .debug
          rwa [List.append_nil] at hnone

end GuardOptions

end DisposalAudit
