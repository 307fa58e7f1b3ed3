import DisposalAudit.Proofs.GuardDecision

/-!
# The mask as a shortcut

The guard rule asks the summary of a body whether there is anything to look
at before it looks. Without that question the rule would read every body of
the methods that it concerns. The two readings are compared here: where the
mask lets a body pass they do the same, and where it does not, no
instruction can show a use of instance state, so that nothing is missed but
the report that the body is fine, or that it is malformed.

## Main definitions

* `GuardOptions.inspectFully` — the inspection that does not ask the mask.

## Main results

* `GuardOptions.inspect_eq_inspectFully` — bodies that the mask lets pass.
* `GuardOptions.readBody_of_untouched` — bodies that it does not.
* `GuardOptions.mask_hides_no_failure` — both, for the verdicts.
-/

namespace DisposalAudit

namespace GuardOptions

variable (options : GuardOptions) (context : RuleContext) (m : Method)

/-! ## The inspection without the mask -/

/-- Whether the rule concerns a method by its declaration and its type. -/
def concerns : Bool :=
  m.flags.isPublic && context.implements m.declaringType options.lifecycleInterface &&
    options.mayThrow m

/-- The inspection of a method whose body is read. -/
def readBody (facts : BodyFacts) : Inspection :=
  match m.firstFlaw? with
  | some flaw =>
    ⟨[.logged (entry .warning ("skipping " ++ m.signature ++ ": " ++ flaw.message))],
      .ok .skipped⟩
  | none =>
    let seen := options.sightings context facts m
    let trace :=
      "-----------------------------------------" :: m.signature ::
        seen.map fun (signal, offset) => signal.describe offset
    let log := trace.map fun message => RuleEvent.logged (entry .debug message)
    if isViolation (seen.map Prod.fst) then ⟨log ++ [.reported (options.finding m)], .ok .failure⟩
    else ⟨log, .ok .success⟩

/-- The inspection of one method, which reads the bodies of all methods that
the rule concerns. -/
def inspectFully (facts : BodyFacts) : Inspection :=
  if m.body.isEmpty then .pure .doesNotApply
  else if m.flags.isGenerated || context.isGenerated m then .pure .doesNotApply
  else if !options.concerns context m then .pure .doesNotApply
  else options.readBody context m facts

theorem isEligible_eq (facts : BodyFacts) :
    options.isEligible context facts m =
      (facts.opcodes.intersects .callsAndFields && options.concerns context m) := by
  rw [isEligible, concerns, Bool.and_assoc, Bool.and_assoc, Bool.and_left_comm, Bool.and_assoc]

/-- Where the mask lets a body pass, nothing is left out. -/
theorem inspect_eq_inspectFully {facts : BodyFacts}
    (hpass : facts.opcodes.intersects .callsAndFields = true) :
    options.inspect context facts m = options.inspectFully context m facts := by
  have heligible : options.isEligible context facts m = options.concerns context m := by
    rw [isEligible_eq, hpass, Bool.true_and]
  rw [inspect, inspectFully, heligible]
  rfl

/-- Where the mask stops a body, the rule does not apply. -/
theorem inspect_of_stopped {facts : BodyFacts}
    (hstop : facts.opcodes.intersects .callsAndFields = false) :
    options.inspect context facts m = .pure .doesNotApply := by
  have heligible : options.isEligible context facts m = false := by
    rw [isEligible_eq, hstop, Bool.false_and]
  simp [inspect, heligible]

/-! ## Bodies that the mask stops -/

/-- Instance state is used by calls and field accesses only. -/
theorem not_violates_of_untouched
    (huntouched : ¬ ∃ ins ∈ m.body, ins.IsCall ∨ ins.IsFieldAccess) :
    ¬ options.Violates context m := by
  intro hviolates
  apply huntouched
  rcases hviolates.1 with hcall | haccess
  · obtain ⟨k, ins, -, -, hins, hcall, -⟩ := hcall
    exact ⟨ins, List.mem_of_getElem? hins, .inl hcall⟩
  · obtain ⟨k, ins, -, hins, haccess, -⟩ := haccess
    exact ⟨ins, List.mem_of_getElem? hins, .inr haccess⟩

/-- A body without calls and field accesses is fine or malformed. -/
theorem readBody_of_untouched
    (huntouched : ¬ ∃ ins ∈ m.body, ins.IsCall ∨ ins.IsFieldAccess) :
    (options.readBody context m m.facts).outcome = .ok .success ∨
      (options.readBody context m m.facts).outcome = .ok .skipped := by
  have hquiet : isViolation ((options.sightings context m.facts m).map Prod.fst) = false := by
    rw [← Bool.not_eq_true, isViolation_sightings_iff]
    exact not_violates_of_untouched options context m huntouched
  rw [readBody]
  cases m.firstFlaw? with
  | some flaw => exact .inr rfl
  | none =>
      dsimp only
      rw [if_neg (Bool.eq_false_iff.1 hquiet)]
      exact .inl rfl

/-! ## Both inspections -/

/-- A body that is read is reported on exactly if it fails. -/
theorem readBody_reports (facts : BodyFacts) :
    ∃ verdict, (options.readBody context m facts).outcome = .ok verdict ∧
      (options.readBody context m facts).findings =
        if verdict = .failure then [options.finding m] else [] := by
  rw [readBody]
  cases m.firstFlaw? with
  | some flaw => exact ⟨.skipped, rfl, rfl⟩
  | none =>
      dsimp only
      split
      · exact ⟨.failure, rfl, findings_logged _ _ _ _⟩
      · refine ⟨.success, rfl, ?_⟩
        have hnone := findings_logged ("-----------------------------------------" ::
          m.signature :: (options.sightings context facts m).map fun (signal, offset) =>
            signal.describe offset) [] (.ok .success) .debug
        rwa [List.append_nil] at hnone

/-- The methods whose bodies are read if the mask is not asked. -/
def IsRead : Prop :=
  m.body ≠ [] ∧ m.flags.isGenerated = false ∧ context.isGenerated m = false ∧
    options.concerns context m = true

theorem inspectFully_of_isRead (hread : options.IsRead context m) (facts : BodyFacts) :
    options.inspectFully context m facts = options.readBody context m facts := by
  obtain ⟨hbody, hflag, hmark, hconcerns⟩ := hread
  have hnonempty : m.body.isEmpty = false := List.isEmpty_eq_false_iff.2 hbody
  simp [inspectFully, hnonempty, hflag, hmark, hconcerns]

theorem inspectFully_of_not_isRead (hread : ¬ options.IsRead context m) (facts : BodyFacts) :
    options.inspectFully context m facts = .pure .doesNotApply := by
  simp only [IsRead, Classical.not_and_iff_not_or_not] at hread
  rcases hread with hbody | hflag | hmark | hconcerns
  · have hempty : m.body = [] := Decidable.not_not.1 hbody
    simp [inspectFully, hempty]
  · rw [Bool.not_eq_false] at hflag
    simp [inspectFully, hflag]
  · rw [Bool.not_eq_false] at hmark
    simp [inspectFully, hmark]
  · rw [Bool.not_eq_true] at hconcerns
    simp [inspectFully, hconcerns]

/-- Without the mask, a method is reported on exactly if it fails. -/
theorem inspectFully_reports (facts : BodyFacts) :
    ∃ verdict, (options.inspectFully context m facts).outcome = .ok verdict ∧
      (options.inspectFully context m facts).findings =
        if verdict = .failure then [options.finding m] else [] := by
  by_cases hread : options.IsRead context m
  · rw [inspectFully_of_isRead options context m hread]
    exact readBody_reports options context m facts
  · rw [inspectFully_of_not_isRead options context m hread]
    exact ⟨.doesNotApply, rfl, rfl⟩

/--
**The mask hides no failure.** For all options, contexts and methods, the
rule and the same rule without the mask both reach a verdict, fail on the
same methods, and report the same: one finding on a failure and nothing
else. The verdicts differ exactly for the methods whose body would be read
and holds neither a call nor a field access; of these the rule says that it
does not apply, and without the mask it says that they are fine or that
their body is malformed.
-/
theorem mask_hides_no_failure :
    ∃ verdict full, (options.inspect context m.facts m).outcome = .ok verdict ∧
      (options.inspectFully context m m.facts).outcome = .ok full ∧
      (verdict = .failure ↔ full = .failure) ∧
      (options.inspect context m.facts m).findings =
        (if verdict = .failure then [options.finding m] else []) ∧
      (options.inspectFully context m m.facts).findings =
        (if full = .failure then [options.finding m] else []) ∧
      (verdict ≠ full ↔ options.IsRead context m ∧
        ∀ ins ∈ m.body, ¬ ins.IsCall ∧ ¬ ins.IsFieldAccess) ∧
      (verdict ≠ full → verdict = .doesNotApply ∧ (full = .success ∨ full = .skipped)) := by
  have htouches := m.touches_iff
  cases hpass : m.facts.opcodes.intersects .callsAndFields with
  | true =>
      have htouched : ¬ ∀ ins ∈ m.body, ¬ ins.IsCall ∧ ¬ ins.IsFieldAccess := by
        obtain ⟨ins, hins, htouch⟩ := htouches.1 hpass
        exact fun hnone => not_or.2 (hnone ins hins) htouch
      rw [inspect_eq_inspectFully options context m hpass]
      obtain ⟨verdict, houtcome, hfindings⟩ := inspectFully_reports options context m m.facts
      exact ⟨verdict, verdict, houtcome, houtcome, Iff.rfl, hfindings, hfindings,
        by simp [htouched], fun hne => absurd rfl hne⟩
  | false =>
      have huntouched : ¬ ∃ ins ∈ m.body, ins.IsCall ∨ ins.IsFieldAccess :=
        fun htouch => Bool.false_ne_true (hpass.symm.trans (htouches.2 htouch))
      have hnone : ∀ ins ∈ m.body, ¬ ins.IsCall ∧ ¬ ins.IsFieldAccess :=
        fun ins hins => not_or.1 fun htouch => huntouched ⟨ins, hins, htouch⟩
      rw [inspect_of_stopped options context m hpass]
      by_cases hread : options.IsRead context m
      · obtain ⟨full, hfull, hfindings⟩ := inspectFully_reports options context m m.facts
        have hfine : full = .success ∨ full = .skipped := by
          have houtcome := readBody_of_untouched options context m huntouched
          rw [← inspectFully_of_isRead options context m hread, hfull] at houtcome
          simpa using houtcome
        have happlies : full ≠ .failure ∧ .doesNotApply ≠ full := by
          rcases hfine with rfl | rfl <;> decide
        exact ⟨.doesNotApply, full, rfl, hfull, by simp [happlies.1], rfl, hfindings,
          by simpa [happlies.2] using ⟨hread, hnone⟩, fun _ => ⟨rfl, hfine⟩⟩
      · rw [inspectFully_of_not_isRead options context m hread]
        exact ⟨.doesNotApply, .doesNotApply, rfl, rfl, Iff.rfl, rfl, rfl, by simp [hread],
          fun hne => absurd rfl hne⟩

end GuardOptions

end DisposalAudit
