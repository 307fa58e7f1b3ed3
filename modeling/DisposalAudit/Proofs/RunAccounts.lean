import DisposalAudit.Proofs.GuardDecision
import DisposalAudit.Proofs.RunLoops
import Mathlib.Data.List.Perm.Basic

/-!
# The accounts of a run

What the loops of a run add up to is told by its trials: every method with
every rule, as far as the listener lets it come. The findings are those that
the trials report and no ignore rule applies to, the others are counted, and
so is every verdict. A listener who never fails lets every trial come to its
end, and then the loops are `Codebase.run`.

## Main definitions

* `Listener.Returns` — a listener who never fails.
* `Listener.Carries` — how far a trial may come.
* `Codebase.pairs`, `Codebase.trialOf` — the trials of a run by method and
  rule.
* `Codebase.Accounts` — what a result owes to its trials.

## Main results

* `Codebase.accounts_gain` — the accounts of a run under any listener.
* `Codebase.result_gain_of_returns` — under a listener who never fails the
  loops are the run.
* `Codebase.tally_accounts` — the accounts of the loops.
-/

namespace DisposalAudit

namespace VerdictCounts

/-- The count of one verdict. -/
def count (counts : VerdictCounts) : Verdict → Nat
  | .doesNotApply => counts.doesNotApply
  | .success => counts.success
  | .failure => counts.failure
  | .skipped => counts.skipped

/-- All trials that are counted. -/
def total (counts : VerdictCounts) : Nat :=
  counts.doesNotApply + counts.success + counts.failure + counts.skipped

theorem count_of (verdicts : List Verdict) (v : Verdict) :
    (of verdicts).count v = verdicts.count v := by
  cases v <;> rfl

/-- Every trial is counted under one verdict. -/
theorem total_of (verdicts : List Verdict) : (of verdicts).total = verdicts.length := by
  induction verdicts with
  | nil => rfl
  | cons v rest ih =>
      simp only [total, of] at ih
      simp only [total, of, List.count_cons, List.length_cons]
      cases v <;> simp <;> omega

end VerdictCounts

/-! ## How far trials come -/

namespace Listener

variable {σ : Type} (tell : Listener σ) (settings : Settings)

/-- A listener who never fails. -/
def Returns : Prop := ∀ state finding, (tell state finding).1 = .ok ()

/-- The listener who does no more than to note what it is told. -/
def noting (note : σ → Finding → σ) : Listener σ := fun state finding =>
  (.ok (), note state finding)

theorem returns_noting (note : σ → Finding → σ) : (noting note).Returns := fun _ _ => rfl

/-- A trial comes to its end, or no further than a finding that the listener
fails on; then it has broken down with the message of this failure. -/
inductive Carries : Trial → Trial → Prop
  | whole (trial : Trial) : Carries trial trial
  | cut {rule method message : String} {front back : List RuleEvent} {finding : Finding}
      {outcome : Except String Verdict} {state : σ} (hkept : ¬ settings.ignores finding = true)
      (hfailed : (tell state finding).1 = .error message) :
      Carries ⟨rule, method, ⟨front ++ .reported finding :: back, outcome⟩⟩
        ⟨rule, method, ⟨front ++ [.reported finding], .error message⟩⟩

/-- The events end, or the listener fails on one of them. -/
theorem carry_cases (events : List RuleEvent) :
    ∀ state : σ, tell.carry settings state events = (events, .ok ()) ∨
      ∃ front finding back next message, events = front ++ .reported finding :: back ∧
        ¬ settings.ignores finding = true ∧ (tell next finding).1 = .error message ∧
        tell.carry settings state events =
          (front ++ [.reported finding], .error message) := by
  induction events with
  | nil => exact fun _ => .inl rfl
  | cons event rest ih =>
      -- what is found in the rest is found behind the event
      have hbehind (state next : σ)
          (hcarry : tell.carry settings state (event :: rest) =
            (event :: (tell.carry settings next rest).1, (tell.carry settings next rest).2)) :
          tell.carry settings state (event :: rest) = (event :: rest, .ok ()) ∨
            ∃ front finding back next message,
              event :: rest = front ++ .reported finding :: back ∧
              ¬ settings.ignores finding = true ∧ (tell next finding).1 = .error message ∧
              tell.carry settings state (event :: rest) =
                (front ++ [.reported finding], .error message) := by
        rcases ih next with hwhole | ⟨front, finding, back, failed, message, hsplit, hkept,
          hfailed, hcut⟩
        · rw [hcarry, hwhole]
          exact .inl rfl
        · refine .inr ⟨event :: front, finding, back, failed, message, ?_, hkept, hfailed, ?_⟩
          · rw [hsplit]
            rfl
          · rw [hcarry, hcut]
            rfl
      intro state
      cases event with
      | logged entry => exact hbehind state state rfl
      | reported finding =>
          by_cases hignored : settings.ignores finding = true
          · exact hbehind state state (carry_of_ignores hignored)
          · rcases htold : tell state finding with ⟨told, next⟩
            cases told with
            | ok => exact hbehind state next (carry_of_ok hignored htold)
            | error message =>
                refine .inr ⟨[], finding, rest, state, message, rfl, hignored, ?_, ?_⟩
                · rw [htold]
                · exact carry_of_error hignored htold

theorem carries_trial (state : σ) (planned : Trial) :
    tell.Carries settings planned (tell.trial settings state planned) := by
  obtain ⟨rule, method, events, outcome⟩ := planned
  rw [trial]
  dsimp only
  rcases tell.carry_cases settings events state with hwhole | ⟨front, finding, back, failed,
    message, rfl, hkept, hfailed, hcut⟩
  · rw [hwhole]
    exact .whole _
  · rw [hcut]
    exact .cut hkept hfailed

theorem carries_trials (planned : List Trial) :
    ∀ state : σ,
      List.Forall₂ (tell.Carries settings) planned (tell.trials settings state planned) := by
  induction planned with
  | nil => exact fun _ => .nil
  | cons first rest ih => exact fun state => .cons (tell.carries_trial settings state first) (ih _)

variable {tell settings}

theorem Carries.eq_of_returns (htell : tell.Returns) {planned carried : Trial}
    (h : tell.Carries settings planned carried) : carried = planned := by
  cases h with
  | whole => rfl
  | cut hkept hfailed => exact nomatch (htell _ _).symm.trans hfailed

/-- A listener who never fails lets all trials come to their ends. -/
theorem trials_of_returns (htell : tell.Returns) (state : σ) (planned : List Trial) :
    tell.trials settings state planned = planned := by
  have hsame := (tell.carries_trials settings planned state).imp
    fun _ _ h => (h.eq_of_returns htell).symm
  rw [List.forall₂_eq_eq_eq] at hsame
  exact hsame.symm

end Listener

/-! ## What the trials add up to -/

section Sum

variable {σ : Type} (tell : Listener σ) (settings : Settings) (context : RuleContext)
  (rules : List Rule)

/-- Without debug entries, modules come to what their trials come to. -/
theorem Listener.heard_modules (modules : List Module) :
    ∀ state : σ, (tell.modules settings context rules state modules).heard false =
      (tell.work settings (modules.flatMap Module.types).length
        ((modules.flatMap Module.types).flatMap TypeDefinition.methods).length state
        (modules.flatMap (Module.trialsIn rules context))).heard false := by
  induction modules with
  | nil => exact fun _ => rfl
  | cons a rest ih =>
      intro state
      have hannounced : (Gain.logging [a.announcement]).heard false = .empty := rfl
      rw [modules, Gain.heard_append, Gain.heard_append, hannounced, Gain.empty_append, ih,
        ← Gain.heard_append, List.flatMap_cons, List.flatMap_append, List.length_append,
        List.length_append, List.flatMap_cons, Listener.work_append]
      rfl

end Sum

theorem Trial.kept_eq (settings : Settings) :
    Trial.kept settings = fun trial =>
      trial.inspection.findings.filter fun finding => !settings.ignores finding := by
  funext trial
  simp only [kept, settings.isEmpty_covering]

theorem Trial.suppressed_eq (settings : Settings) :
    Trial.suppressed settings = fun trial =>
      trial.inspection.findings.filter settings.ignores := by
  funext trial
  simp only [suppressed, settings.isEmpty_covering, Bool.not_not]

/-- Errors come from the rule itself, up to where it breaks down, and from its
breaking down. That a finding is ignored is no error. -/
theorem Trial.errors_log (settings : Settings) (trial : Trial) :
    ((trial.log settings).filter fun entry => entry.level = .error) =
      (trial.inspection.log.filter fun entry => entry.level = .error) ++ trial.failureLog := by
  have hevents : ∀ events : List RuleEvent,
      ((events.filterMap (Trial.entryOf settings)).filter fun entry => entry.level = .error) =
        (Inspection.log ⟨events, .ok .skipped⟩).filter fun entry => entry.level = .error := by
    intro events
    induction events with
    | nil => rfl
    | cons event rest ih =>
        cases event with
        | logged entry =>
            show (entry :: rest.filterMap (Trial.entryOf settings)).filter _ =
              (entry :: Inspection.log ⟨rest, .ok .skipped⟩).filter _
            rw [List.filter_cons, List.filter_cons, ih]
        | reported finding =>
            show _ = (Inspection.log ⟨rest, .ok .skipped⟩).filter _
            rw [← ih, List.filterMap_cons, entryOf]
            cases (settings.covering finding).head? with
            | none => rfl
            | some ignore => exact List.filter_cons_of_neg (by simp [entry])
  have hfailure : (trial.failureLog.filter fun entry => entry.level = .error) =
      trial.failureLog := by
    rw [failureLog]
    cases trial.inspection.outcome <;> rfl
  rw [log_eq, List.filter_append, hevents, hfailure]
  rfl

/-! ## The accounts -/

namespace Codebase

variable (c : Codebase) (rules : List Rule) (settings : Settings)

/-- All trials of a run, in order. -/
def trialsIn : List Trial := c.modules.flatMap (Module.trialsIn rules c.context)

/-- All methods, in loading order. -/
def methods : List Method := c.types.flatMap TypeDefinition.methods

/-- Every method with every rule, in the order of a run. -/
def pairs : List (Method × Rule) := c.methods.flatMap fun m => rules.map fun rule => (m, rule)

/-- The trial of a pair. -/
def trialOf (pair : Method × Rule) : Trial := .of c.context pair.1.facts pair.1 pair.2

/-- The findings that the rules report in a run, in order, also those of a
rule that breaks down afterwards. -/
def reported : List Finding :=
  (c.pairs rules).flatMap fun pair => (c.trialOf pair).inspection.findings

theorem trialsIn_eq_flatMap :
    c.trialsIn rules = c.methods.flatMap (Method.trialsIn rules c.context) := by
  rw [methods, types, List.flatMap_assoc, List.flatMap_assoc]
  rfl

theorem trialsIn_eq_map_pairs : c.trialsIn rules = (c.pairs rules).map c.trialOf := by
  rw [trialsIn_eq_flatMap, pairs, List.map_flatMap]
  simp only [List.map_map]
  rfl

theorem length_pairs : (c.pairs rules).length = c.countMethods * rules.length := by
  simp [pairs, methods, countMethods, List.length_flatMap]

/-- What the result of a run owes to its trials. -/
structure Accounts (trials : List Trial) (result : RunResult) : Prop where
  /-- The findings are those reported that no ignore rule applies to. -/
  findings : result.findings = (trials.flatMap fun trial => trial.inspection.findings).filter
    fun finding => !settings.ignores finding
  /-- The others are counted. -/
  suppressed : result.stats.suppressed =
    (trials.flatMap fun trial => trial.inspection.findings).countP settings.ignores
  /-- Every trial is counted once, under its verdict. -/
  results : ∀ v, result.stats.results.count v = trials.countP fun trial => trial.verdict = v
  total : result.stats.results.total = result.stats.methods * rules.length
  modules : result.stats.modules = c.modules.length
  types : result.stats.types = c.types.length
  methods : result.stats.methods = c.countMethods
  /-- The errors in the log are those that the rules log themselves, and one
  for every trial that breaks down. -/
  errors : (result.log.filter fun entry => entry.level = .error) =
    trials.flatMap fun trial =>
      (trial.inspection.log.filter fun entry => entry.level = .error) ++ trial.failureLog

section Gain

variable {σ : Type} (tell : Listener σ) (listener : σ)

/-- The trials of a run as far as they come. -/
def carried : List Trial := tell.trials settings listener ((c.pairs rules).map c.trialOf)

/-- Without debug entries, a run comes to what its trials come to. -/
theorem heard_gain :
    (c.gain rules settings tell listener).heard false =
      (.counting ⟨c.modules.length, 0, 0, ⟨0, 0, 0, 0⟩, 0⟩ ++
        .work settings c.types.length c.countMethods
          (c.carried rules settings tell listener) : Gain).heard false := by
  rw [gain, Gain.heard_append, Listener.heard_modules, ← Gain.heard_append, Listener.work,
    carried, ← trialsIn_eq_map_pairs]
  rfl

theorem findings_gain :
    (c.gain rules settings tell listener).result.findings =
      (c.carried rules settings tell listener).flatMap (Trial.kept settings) :=
  congrArg (fun gain : Gain => gain.result.findings) (c.heard_gain rules settings tell listener)

theorem stats_gain :
    (c.gain rules settings tell listener).result.stats =
      { modules := c.modules.length
        types := c.types.length
        methods := c.countMethods
        results := .of ((c.carried rules settings tell listener).map Trial.verdict)
        suppressed := ((c.carried rules settings tell listener).flatMap
          (Trial.suppressed settings)).length } := by
  have hstats := congrArg (fun gain : Gain => gain.result.stats)
    (c.heard_gain rules settings tell listener)
  simpa only [Gain.heard, RunResult.heard, Gain.append_def, RunResult.append_def, Gain.counting,
    Gain.work, RunResult.empty, RunStats.add_def, VerdictCounts.add_def, Nat.zero_add,
    Nat.add_zero] using hstats

/-- An error gets through in any case. -/
theorem filter_error_heard (verbose : Bool) (log : List LogEntry) :
    ((log.filter (LogEntry.passes verbose)).filter fun entry => entry.level = .error) =
      log.filter fun entry => entry.level = .error := by
  rw [List.filter_filter]
  refine List.filter_congr fun entry _ => ?_
  by_cases herror : entry.level = .error <;> simp [LogEntry.passes, herror]

theorem errors_gain :
    ((c.gain rules settings tell listener).result.log.filter fun entry => entry.level = .error) =
      (c.carried rules settings tell listener).flatMap fun trial =>
        (trial.inspection.log.filter fun entry => entry.level = .error) ++ trial.failureLog := by
  have hlog := congrArg (fun gain : Gain => gain.result.log.filter fun entry =>
    entry.level = .error) (c.heard_gain rules settings tell listener)
  simp only [Gain.heard, RunResult.heard, filter_error_heard] at hlog
  rw [hlog]
  show (((c.carried rules settings tell listener).flatMap (Trial.log settings)).filter fun entry =>
    entry.level = .error) = _
  rw [List.filter_flatMap]
  simp only [Trial.errors_log]

theorem length_carried :
    (c.carried rules settings tell listener).length = c.countMethods * rules.length := by
  rw [← length_pairs, ← List.length_map (f := c.trialOf)]
  exact (tell.carries_trials settings ((c.pairs rules).map c.trialOf) listener).length_eq.symm

/-- **The accounts of a run**, whoever listens. -/
theorem accounts_gain :
    c.Accounts rules settings (c.carried rules settings tell listener)
      (c.gain rules settings tell listener).result where
  findings := by
    rw [findings_gain, List.filter_flatMap, Trial.kept_eq]
  suppressed := by
    rw [stats_gain, List.countP_eq_length_filter, List.filter_flatMap, Trial.suppressed_eq]
  results v := by
    rw [stats_gain, VerdictCounts.count_of, List.count_eq_countP, List.countP_map]
    rfl
  total := by
    rw [stats_gain, VerdictCounts.total_of, List.length_map, length_carried]
  modules := by rw [stats_gain]
  types := by rw [stats_gain]
  methods := by rw [stats_gain]
  errors := c.errors_gain rules settings tell listener

/-- Whether debug entries are wanted is no matter of the accounts. -/
theorem Accounts.heard {trials : List Trial} {result : RunResult}
    (h : c.Accounts rules settings trials result) (verbose : Bool) :
    c.Accounts rules settings trials (result.heard verbose) :=
  { h with errors := (filter_error_heard verbose result.log).trans h.errors }

/-- Under a listener who never fails every trial comes to its end. -/
theorem carried_of_returns (htell : tell.Returns) :
    c.carried rules settings tell listener = (c.pairs rules).map c.trialOf :=
  Listener.trials_of_returns htell listener _

end Gain

/-! ### Listeners who never fail -/

/-- A run, without the places of its methods. -/
theorem run_eq :
    c.run rules settings =
      { findings := (c.trialsIn rules).flatMap (Trial.kept settings)
        stats :=
          { modules := c.modules.length
            types := c.types.length
            methods := c.countMethods
            results := .of ((c.trialsIn rules).map Trial.verdict)
            suppressed := ((c.trialsIn rules).flatMap (Trial.suppressed settings)).length }
        log := c.modules.flatMap fun a =>
          a.announcement :: (a.trialsIn rules c.context).flatMap (Trial.log settings) } := by
  have hsections : (c.modules.zipIdx.map fun entry =>
      (entry.1, entry.1.trials rules c.context (fun _ m => m.facts) entry.2)) =
        c.modules.map fun a => (a, a.trialsIn rules c.context) := by
    simp only [trials_eq_trialsIn]
    show c.modules.zipIdx.map ((fun a : Module => (a, a.trialsIn rules c.context)) ∘ Prod.fst) = _
    rw [← List.map_map, List.zipIdx_map_fst]
  have htrials : (c.modules.map fun a => (a, a.trialsIn rules c.context)).flatMap Prod.snd =
      c.trialsIn rules := by
    rw [List.flatMap_map]
    rfl
  rw [run, runWith]
  simp only [hsections, htrials, List.flatMap_map]
  rfl

/-- What modules come to under a listener who never fails. -/
theorem modules_of_returns {σ : Type} {tell : Listener σ} (htell : tell.Returns)
    (context : RuleContext) (modules : List Module) :
    ∀ state : σ, (tell.modules settings context rules state modules).result.log =
      modules.flatMap fun a =>
        a.announcement :: (a.trialsIn rules context).flatMap (Trial.log settings) := by
  induction modules with
  | nil => exact fun _ => rfl
  | cons a rest ih =>
      intro state
      rw [Listener.modules, List.flatMap_cons, ← ih, Listener.work,
        Listener.trials_of_returns htell]
      rfl

/-- **The loops are the run** under a listener who never fails. -/
theorem result_gain_of_returns {σ : Type} {tell : Listener σ} (htell : tell.Returns)
    (listener : σ) :
    (c.gain rules settings tell listener).result = c.run rules settings := by
  have hlog : (c.gain rules settings tell listener).result.log =
      c.modules.flatMap fun a =>
        a.announcement :: (a.trialsIn rules c.context).flatMap (Trial.log settings) :=
    modules_of_returns rules settings htell c.context c.modules listener
  have hfindings := c.findings_gain rules settings tell listener
  have hstats := c.stats_gain rules settings tell listener
  rw [c.carried_of_returns rules settings tell listener htell, ← trialsIn_eq_map_pairs]
    at hfindings hstats
  rw [run_eq, ← hlog, ← hfindings, ← hstats]

/-- The accounts of the run. -/
theorem accounts_run :
    c.Accounts rules settings ((c.pairs rules).map c.trialOf) (c.run rules settings) := by
  have htell := Listener.returns_noting fun (_ : Unit) _ => ()
  rw [← c.result_gain_of_returns rules settings htell (),
    ← c.carried_of_returns rules settings _ () htell]
  exact c.accounts_gain rules settings _ ()

/-- The findings of a run are those reported that are not ignored. -/
theorem findings_run_eq_filter :
    (c.run rules settings).findings =
      (c.reported rules).filter fun finding => !settings.ignores finding := by
  rw [(c.accounts_run rules settings).findings, List.flatMap_map]
  rfl

end Codebase

end DisposalAudit
