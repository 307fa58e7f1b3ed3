import DisposalAudit.Proofs.LoadOrder

/-!
# What a run adds up

A run yields findings, counts and a log, and every part of it yields some of
each. A rule may break down after it has reported findings, and so may the
listener who is told them; either ends the rule on this method and nothing
else. So a trial comes as far as the listener lets it, and the state of the
listener is all that one trial leaves to the next.

Here the yields are made into sums: a gain is a part of a result together with
the verdicts behind it, gains are appended, and the gain of trials one after
the other is the gain of the first followed by that of the others, under the
listener as it is then.

## Main definitions

* `RunResult.heard` — a result with the entries that get through.
* `Listener` — who is told findings, and may fail on one.
* `Listener.trials` — trials as far as a listener lets them come.
* `Gain` — what a step of a run adds.
* `Listener.work`, `Listener.modules` — what the trials of a part add.

## Main results

* `Listener.trials_append` — trials behind others.
* `Gain.work_trial` — a trial adds its events, its failure and its verdict.
* `Listener.work_append` — work behind other work.
-/

namespace DisposalAudit

/-! ## Sums -/

namespace VerdictCounts

instance : Add VerdictCounts where
  add a b := ⟨a.doesNotApply + b.doesNotApply, a.success + b.success, a.failure + b.failure,
    a.skipped + b.skipped⟩

theorem add_def (a b : VerdictCounts) :
    a + b = ⟨a.doesNotApply + b.doesNotApply, a.success + b.success, a.failure + b.failure,
      a.skipped + b.skipped⟩ := rfl

theorem of_append (verdicts more : List Verdict) :
    of (verdicts ++ more) = of verdicts + of more := by
  simp only [of, add_def, List.count_append]

end VerdictCounts

instance : Add RunStats where
  add a b := ⟨a.modules + b.modules, a.types + b.types, a.methods + b.methods,
    a.results + b.results, a.suppressed + b.suppressed⟩

theorem RunStats.add_def (a b : RunStats) :
    a + b = ⟨a.modules + b.modules, a.types + b.types, a.methods + b.methods,
      a.results + b.results, a.suppressed + b.suppressed⟩ := rfl

namespace RunResult

instance : Append RunResult where
  append a b := ⟨a.findings ++ b.findings, a.stats + b.stats, a.log ++ b.log⟩

theorem append_def (a b : RunResult) :
    a ++ b = ⟨a.findings ++ b.findings, a.stats + b.stats, a.log ++ b.log⟩ := rfl

/-- The result of having done nothing. -/
def empty : RunResult := ⟨[], ⟨0, 0, 0, ⟨0, 0, 0, 0⟩, 0⟩, []⟩

theorem append_assoc (a b c : RunResult) : a ++ b ++ c = a ++ (b ++ c) := by
  simp only [append_def, RunStats.add_def, VerdictCounts.add_def, List.append_assoc,
    Nat.add_assoc]

@[simp] theorem append_empty (a : RunResult) : a ++ empty = a := by
  simp only [append_def, empty, RunStats.add_def, VerdictCounts.add_def, List.append_nil,
    Nat.add_zero]

end RunResult

/-! ## Verbosity -/

/-- Whether an entry gets through: debug entries only if they are wanted. -/
def LogEntry.passes (verbose : Bool) (entry : LogEntry) : Bool :=
  verbose || entry.level ≠ .debug

namespace RunResult

/-- A result with the entries that get through. -/
def heard (verbose : Bool) (result : RunResult) : RunResult :=
  { result with log := result.log.filter (LogEntry.passes verbose) }

theorem heard_append (verbose : Bool) (a b : RunResult) :
    (a ++ b).heard verbose = a.heard verbose ++ b.heard verbose := by
  simp only [heard, append_def, List.filter_append]

theorem heard_true (result : RunResult) : result.heard true = result := by
  have hall : result.log.filter (LogEntry.passes true) = result.log :=
    List.filter_eq_self.2 fun _ _ => rfl
  rw [heard, hall]

end RunResult

/-! ## Listeners -/

/-- Who is told findings. It may fail on one, with a message, and what it has
noted of it stays. -/
abbrev Listener (σ : Type) := σ → Finding → Except String Unit × σ

/-- Whether some ignore rule applies to a finding. -/
def Settings.ignores (settings : Settings) (finding : Finding) : Bool :=
  settings.ignore.any fun ignore => ignore.covers finding

theorem Settings.isEmpty_covering (settings : Settings) (finding : Finding) :
    (settings.covering finding).isEmpty = !settings.ignores finding := by
  rw [covering, ignores, Bool.eq_iff_iff]
  simp

namespace Listener

variable {σ : Type} (tell : Listener σ) (settings : Settings)

/-- The state of a listener who has been told some findings. -/
def after (state : σ) (findings : List Finding) : σ :=
  findings.foldl (fun state finding => (tell state finding).2) state

/-- The events up to a failure of the listener, and whether there was one. -/
def carry (state : σ) : List RuleEvent → List RuleEvent × Except String Unit
  | [] => ([], .ok ())
  | .logged entry :: rest =>
    let carried := carry state rest
    (.logged entry :: carried.1, carried.2)
  | .reported finding :: rest =>
    if settings.ignores finding then
      let carried := carry state rest
      (.reported finding :: carried.1, carried.2)
    else
      match tell state finding with
      | (.ok (), state) =>
        let carried := carry state rest
        (.reported finding :: carried.1, carried.2)
      | (.error message, _) => ([.reported finding], .error message)

section Carry

variable {tell settings} {state next : σ} {finding : Finding} {rest : List RuleEvent}

theorem carry_of_ignores (h : settings.ignores finding = true) :
    tell.carry settings state (.reported finding :: rest) =
      (.reported finding :: (tell.carry settings state rest).1,
        (tell.carry settings state rest).2) := by
  rw [carry, if_pos h]

theorem carry_of_ok (h : ¬ settings.ignores finding = true)
    (htold : tell state finding = (.ok (), next)) :
    tell.carry settings state (.reported finding :: rest) =
      (.reported finding :: (tell.carry settings next rest).1,
        (tell.carry settings next rest).2) := by
  rw [carry, if_neg h, htold]

theorem carry_of_error {message : String} (h : ¬ settings.ignores finding = true)
    (htold : tell state finding = (.error message, next)) :
    tell.carry settings state (.reported finding :: rest) =
      ([.reported finding], .error message) := by
  rw [carry, if_neg h, htold]

end Carry

/-- A trial as far as it comes. A failure of the listener ends it. -/
def trial (state : σ) (planned : Trial) : Trial :=
  let carried := tell.carry settings state planned.inspection.events
  { planned with
    inspection := ⟨carried.1, carried.2.bind fun _ => planned.inspection.outcome⟩ }

/-- Trials one after the other, each as far as it comes. -/
def trials (state : σ) : List Trial → List Trial
  | [] => []
  | planned :: rest =>
    let carried := tell.trial settings state planned
    carried :: trials (tell.after state (carried.kept settings)) rest

theorem after_append (state : σ) (findings more : List Finding) :
    tell.after state (findings ++ more) = tell.after (tell.after state findings) more :=
  List.foldl_append

theorem trials_append (planned more : List Trial) :
    ∀ state : σ, tell.trials settings state (planned ++ more) =
      tell.trials settings state planned ++
        tell.trials settings
          (tell.after state ((tell.trials settings state planned).flatMap (Trial.kept settings)))
          more := by
  induction planned with
  | nil => exact fun _ => rfl
  | cons first rest ih =>
      intro state
      rw [List.cons_append, trials, trials, ih, List.flatMap_cons, after_append, List.cons_append]

end Listener

/-! ## Gains -/

/-- What the run logs about a trial in the end: one error, if it broke
down. -/
def Trial.failureLog (trial : Trial) : List LogEntry :=
  match trial.inspection.outcome with
  | .ok _ => []
  | .error message =>
    [Trial.entry .error (trial.rule ++ " failed on " ++ trial.method ++ ": " ++ message)]

theorem Trial.log_eq (settings : Settings) (trial : Trial) :
    trial.log settings =
      trial.inspection.events.filterMap (Trial.entryOf settings) ++ trial.failureLog := rfl

/-- A trial that comes to its end has the verdict of the rule, and logs no
error. -/
theorem Trial.of_ok {trial : Trial} {verdict : Verdict}
    (h : trial.inspection.outcome = .ok verdict) :
    trial.verdict = verdict ∧ trial.failureLog = [] := by
  rw [Trial.verdict, failureLog, h]
  exact ⟨rfl, rfl⟩

/-- What a step adds: verdicts, and a part of the result. -/
structure Gain where
  verdicts : List Verdict
  result : RunResult

namespace Gain

variable (settings : Settings)

instance : Append Gain where
  append a b := ⟨a.verdicts ++ b.verdicts, a.result ++ b.result⟩

theorem append_def (a b : Gain) : a ++ b = ⟨a.verdicts ++ b.verdicts, a.result ++ b.result⟩ := rfl

/-- A gain with the entries that get through. -/
def heard (verbose : Bool) (gain : Gain) : Gain := ⟨gain.verdicts, gain.result.heard verbose⟩

theorem heard_append (verbose : Bool) (a b : Gain) :
    (a ++ b).heard verbose = a.heard verbose ++ b.heard verbose := by
  simp only [heard, append_def, RunResult.heard_append]

/-- Nothing. -/
def empty : Gain := ⟨[], .empty⟩

@[simp] theorem empty_append (a : Gain) : empty ++ a = a := by
  simp only [append_def, empty, RunResult.append_def, RunResult.empty, RunStats.add_def,
    VerdictCounts.add_def, List.nil_append, Nat.zero_add]

/-- Some entries. -/
def logging (log : List LogEntry) : Gain := ⟨[], { RunResult.empty with log := log }⟩

/-- Some counts. -/
def counting (stats : RunStats) : Gain := ⟨[], { RunResult.empty with stats := stats }⟩

/-- A verdict, which is counted. -/
def deciding (verdict : Verdict) : Gain :=
  ⟨[verdict], { RunResult.empty with stats := ⟨0, 0, 0, .of [verdict], 0⟩ }⟩

/-- The finding of an event, if it reports one. -/
def finding? : RuleEvent → Option Finding
  | .reported finding => some finding
  | .logged _ => none

/-- Some events of an inspection, without a verdict. -/
def ofEvents (events : List RuleEvent) : Gain :=
  ⟨[], { findings := (events.filterMap finding?).filter fun finding =>
          (settings.covering finding).isEmpty
         stats := ⟨0, 0, 0, ⟨0, 0, 0, 0⟩, ((events.filterMap finding?).filter fun finding =>
          !(settings.covering finding).isEmpty).length⟩
         log := events.filterMap (Trial.entryOf settings) }⟩

/-- Some types, methods and trials. -/
def work (types methods : Nat) (trials : List Trial) : Gain :=
  ⟨trials.map Trial.verdict,
    { findings := trials.flatMap (Trial.kept settings)
      stats := ⟨0, types, methods, .of (trials.map Trial.verdict),
        (trials.flatMap (Trial.suppressed settings)).length⟩
      log := trials.flatMap (Trial.log settings) }⟩

variable {settings}

theorem ofEvents_append (events more : List RuleEvent) :
    ofEvents settings (events ++ more) = ofEvents settings events ++ ofEvents settings more := by
  simp only [ofEvents, append_def, RunResult.append_def, RunStats.add_def, VerdictCounts.add_def,
    List.filterMap_append, List.filter_append, List.length_append, List.append_nil, Nat.add_zero]

theorem ofEvents_cons (event : RuleEvent) (rest : List RuleEvent) :
    ofEvents settings (event :: rest) = ofEvents settings [event] ++ ofEvents settings rest :=
  ofEvents_append [event] rest

theorem work_append (types methods types' methods' : Nat) (trials trials' : List Trial) :
    work settings types methods trials ++ work settings types' methods' trials' =
      work settings (types + types') (methods + methods') (trials ++ trials') := by
  simp only [work, append_def, RunResult.append_def, RunStats.add_def, List.flatMap_append,
    List.map_append, VerdictCounts.of_append, List.length_append, Nat.add_zero]

/-- A trial is its events, the entry of its failure, and its verdict. -/
theorem work_trial (trial : Trial) :
    work settings 0 0 [trial] =
      ofEvents settings trial.inspection.events ++ logging trial.failureLog ++
        deciding trial.verdict := by
  have hcounts : (⟨0, 0, 0, 0⟩ : VerdictCounts) + .of [trial.verdict] = .of [trial.verdict] := by
    simp only [VerdictCounts.add_def, Nat.zero_add]
  simp only [work, ofEvents, logging, deciding, append_def, RunResult.empty,
    RunResult.append_def, RunStats.add_def, VerdictCounts.add_def, List.flatMap_singleton,
    List.map_singleton, List.append_nil, List.nil_append, Nat.add_zero, Nat.zero_add,
    Trial.log_eq]
  rfl

end Gain

/-! ## The trials of a part -/

/-- The log entry that announces a module. -/
def Module.announcement (a : Module) : LogEntry :=
  Trial.entry .debug ("module " ++ a.name ++ " (" ++ a.source ++ ")")

/-- The trials of a method. -/
def Method.trialsIn (rules : List Rule) (context : RuleContext) (m : Method) : List Trial :=
  rules.map (Trial.of context m.facts m)

/-- The trials of a type's methods. -/
def TypeDefinition.trialsIn (rules : List Rule) (context : RuleContext) (t : TypeDefinition) :
    List Trial :=
  t.methods.flatMap (Method.trialsIn rules context)

section Parts

variable {σ : Type} (tell : Listener σ) (settings : Settings) (context : RuleContext)

/-- What some types, methods and planned trials come to under a listener in
some state. -/
def Listener.work (types methods : Nat) (state : σ) (planned : List Trial) : Gain :=
  .work settings types methods (tell.trials settings state planned)

theorem Listener.work_append (types methods types' methods' : Nat) (state : σ)
    (planned more : List Trial) :
    tell.work settings (types + types') (methods + methods') state (planned ++ more) =
      tell.work settings types methods state planned ++
        tell.work settings types' methods'
          (tell.after state (tell.work settings types methods state planned).result.findings)
          more := by
  rw [work, trials_append, ← Gain.work_append]
  rfl

/-- What modules come to: each is announced, and its trials are carried
out. -/
def Listener.modules (rules : List Rule) (state : σ) : List Module → Gain
  | [] => .empty
  | a :: rest =>
    let gain := .logging [a.announcement] ++
      tell.work settings a.types.length (a.types.flatMap TypeDefinition.methods).length state
        (a.trialsIn rules context)
    gain ++ modules rules (tell.after state gain.result.findings) rest

end Parts

end DisposalAudit
