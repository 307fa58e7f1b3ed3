import DisposalAudit.Proofs.RunAccounts
import DisposalAudit.Proofs.ScanTrace

/-!
# Verbosity

Whether debug entries are wanted is asked wherever an entry is written: for
every line of a scan, for every module that a run announces and for every
finding that it ignores. What the loops of a run add up to does not depend on
the answer, and so neither does anything that is seen of a run but its debug
entries.

## Main results

* `Codebase.quiet_of_loud` — a quiet run is the verbose one without its debug
  entries, whoever listens.
* `debug_trace_exact` — which debug entries the guard rule has, and that
  nothing else depends on them.
-/

namespace DisposalAudit

namespace Codebase

variable {σ : Type} (c : Codebase) (rules : List Rule) (settings : Settings)
  (tell : Listener σ) (listener : σ)

/-- **A quiet run is the verbose one without its debug entries.** The listener
may fail on any finding that it is told. -/
theorem quiet_of_loud :
    c.tally rules settings false tell listener =
      ((c.tally rules settings true tell listener).1,
        { (c.tally rules settings true tell listener).2 with
          result := (c.tally rules settings true tell listener).2.result.heard false }) := by
  rw [tally_eq, tally_eq, RunResult.heard_true]

/-- What is printed of a run under a listener who never fails. -/
theorem printLog_tally (note : σ → Finding → σ) (colour verbose : Bool) :
    printLog colour true (c.tally rules settings verbose (.noting note) listener).2.result.log =
      printLog colour verbose (c.run rules settings).log := by
  rw [tally_eq, c.result_gain_of_returns rules settings (Listener.returns_noting note)]
  cases verbose with
  | true => exact congrArg (printLog colour true) (List.filter_eq_self.2 fun _ _ => rfl)
  | false => exact (printLog_quiet colour _).symm

end Codebase

/--
**The debug trace is exact, and nothing else depends on it.** An inspection
of the guard rule that does not apply or skips its method has no debug
entries. Every other has a separator, the signature, and one line for each
signal that holds in the body, with the offset of the first instruction that
shows it; the lines are in the order of these instructions, and of two on one
instruction the first is that of the call of a hidden member and the second
that of a helper.

And in every run, whatever its modules, rules, settings and listener, who may
also fail, the question whether debug entries are wanted changes neither the
end of the run nor its verdicts, its findings, its counts and what the
listener is told, nor any other entry: the quiet log is the verbose one without
its debug entries. Under a listener who never fails the verbose run is
`Codebase.run`, and both print what `printLog` makes of its log.
-/
theorem debug_trace_exact :
    (∀ (options : GuardOptions) (context : RuleContext) (m : Method), ∃ verdict lines,
      (options.inspect context m.facts m).outcome = .ok verdict ∧
        options.Traces context m lines ∧
        (options.inspect context m.facts m).debugLog =
          if verdict = .doesNotApply ∨ verdict = .skipped then []
          else ("-----------------------------------------" :: m.signature ::
            lines.map fun line =>
              (match line.1 with
                | .selfCall => "found non-public this call at "
                | .helperCall => "found dispose check at "
                | .selfField => "found field access at "
                | .guardConstruction => "creates exception at ") ++
              offsetLabel line.2.1.offset).map fun message =>
                ⟨"dispose-guard", .debug, message⟩) ∧
    ∀ {σ : Type} (tell : Listener σ) (listener : σ) (c : Codebase) (rules : List Rule)
      (settings : Settings),
      let loud := c.tally rules settings true tell listener
      let quiet := c.tally rules settings false tell listener
      (loud.1 = quiet.1 ∧ loud.2.verdicts = quiet.2.verdicts ∧
        loud.2.result.findings = quiet.2.result.findings ∧
        loud.2.result.stats = quiet.2.result.stats ∧
        loud.2.listener = quiet.2.listener ∧
        quiet.2.result.log =
          loud.2.result.log.filter fun entry => entry.level ≠ .debug) ∧
      ∀ (note : σ → Finding → σ) (colour verbose : Bool),
        (c.tally rules settings true (.noting note) listener).2.result = c.run rules settings ∧
          printLog colour true
              (c.tally rules settings verbose (.noting note) listener).2.result.log =
            printLog colour verbose (c.run rules settings).log := by
  refine ⟨fun options context m => options.inspect_traces context m, ?_⟩
  intro σ tell listener c rules settings
  dsimp only
  rw [c.quiet_of_loud rules settings tell listener]
  refine ⟨⟨rfl, rfl, rfl, rfl, rfl, rfl⟩, fun note colour verbose => ⟨?_, ?_⟩⟩
  · rw [c.tally_eq, c.result_gain_of_returns rules settings (Listener.returns_noting note),
      RunResult.heard_true]
  · exact c.printLog_tally rules settings listener note colour verbose

end DisposalAudit
