import DisposalAudit.Proofs.RunGains

/-!
# The loops of a run

A run is carried out by four nested loops, over modules, types, methods and
rules, which share one tally. A rule writes to the tally while it looks at a
method: every finding that it reports is either suppressed or kept and told
to a listener. If the rule or the listener breaks down, the loops go on with
the next rule. Wherever an entry is logged it is asked whether debug entries
are wanted.

Here these loops are written out with their tally. Every step of them adds
something of its own to the tally, which depends on what the tally holds only
by the state of the listener.

## Main definitions

* `Tally`, `Loop`, `Codebase.tally` — the shared state, the steps that change
  it, and the four loops.
* `Codebase.gain` — all that a run adds up to under a listener.

## Main results

* `Loop.finish_forM` — a loop adds up what its rounds add.
* `Loop.finish_checkMethod` — what one rule on one method adds.
* `Codebase.tally_eq` — the loops come to an end, and what they add up to.
-/

namespace DisposalAudit

/-! ## The tally -/

/-- What a run has come to so far, with the state of its listener. -/
structure Tally (σ : Type) where
  verdicts : List Verdict
  result : RunResult
  listener : σ

namespace Tally

variable {σ : Type} (verbose : Bool) (tell : Listener σ)

/-- The tally once something has been added, of whose entries some get
through, and whose findings have been told. -/
def add (tally : Tally σ) (gain : Gain) : Tally σ :=
  ⟨tally.verdicts ++ gain.verdicts, tally.result ++ gain.result.heard verbose,
    tell.after tally.listener gain.result.findings⟩

theorem add_add (tally : Tally σ) (a b : Gain) :
    (tally.add verbose tell a).add verbose tell b = tally.add verbose tell (a ++ b) := by
  simp only [add, Gain.append_def, RunResult.append_def a.result, List.append_assoc,
    RunResult.append_assoc, Listener.after_append, ← RunResult.heard_append]

@[simp] theorem add_empty (tally : Tally σ) : tally.add verbose tell .empty = tally := by
  have hnothing : tally.result ++ RunResult.heard verbose .empty = tally.result :=
    RunResult.append_empty tally.result
  rw [add, Gain.empty, hnothing, List.append_nil]
  rfl

end Tally

/-! ## The loops -/

/-- A step that may change the tally and may break down; what it has changed
until then stays. -/
abbrev Loop (σ : Type) := ExceptT String (StateM (Tally σ))

namespace Loop

variable {σ : Type}

/-- The end of a step that is begun with some tally. -/
def finish {α : Type} (step : Loop σ α) (tally : Tally σ) : Except String α × Tally σ :=
  (step.run.run tally).run

section Steps

variable (verbose : Bool) (tell : Listener σ) (settings : Settings) (context : RuleContext)
  (rules : List Rule)

/-- Counting something. -/
def count (change : RunStats → RunStats) : Loop σ Unit :=
  modify fun tally => { tally with result.stats := change tally.result.stats }

/-- Counting a verdict. -/
def note (verdict : Verdict) : Loop σ Unit := do
  modify fun tally => { tally with verdicts := tally.verdicts ++ [verdict] }
  count fun stats => { stats with results := stats.results + .of [verdict] }

/-- Adding an entry to the log, if it gets through. -/
def write (entry : LogEntry) : Loop σ Unit :=
  modify fun tally =>
    if entry.passes verbose then
      { tally with result.log := tally.result.log ++ [entry] }
    else tally

/-- Telling the listener, who may fail. -/
def inform (finding : Finding) : Loop σ Unit := do
  let tally ← get
  let told := tell tally.listener finding
  set { tally with listener := told.2 }
  MonadExcept.ofExcept told.1

/-- A rule reports a finding: it is dropped if an ignore rule applies to it,
and else kept and told to the listener. -/
def report (finding : Finding) : Loop σ Unit :=
  match settings.covering finding with
  | ignore :: _ => do
    write verbose (Trial.entry .debug ("ignored " ++ finding.signature ++ ": " ++ ignore.reason))
    count fun stats => { stats with suppressed := stats.suppressed + 1 }
  | [] => do
    modify fun tally => { tally with result.findings := tally.result.findings ++ [finding] }
    inform tell finding

/-- One thing that a rule does. -/
def perform : RuleEvent → Loop σ Unit
  | .logged entry => write verbose entry
  | .reported finding => report verbose tell settings finding

/-- A rule looks at a method, and may break down at the end. -/
def inspect (m : Method) (rule : Rule) : Loop σ Verdict := do
  let inspection := rule.inspect context m.facts m
  inspection.events.forM (perform verbose tell settings)
  match inspection.outcome with
  | .ok verdict => return verdict
  | .error message => throw message

/-- One rule on one method. If anything breaks down, the rule has skipped
it. -/
def checkMethod (m : Method) (rule : Rule) : Loop σ Verdict :=
  tryCatch (inspect verbose tell settings context m rule) fun message => do
    write verbose
      (Trial.entry .error (rule.id ++ " failed on " ++ m.signature ++ ": " ++ message))
    pure .skipped

/-- The innermost loop: every rule on one method. -/
def overRules (m : Method) : Loop σ Unit := do
  count fun stats => { stats with methods := stats.methods + 1 }
  rules.forM fun rule => do
    let verdict ← checkMethod verbose tell settings context m rule
    note verdict

/-- The loop over the methods of a type. -/
def overMethods (t : TypeDefinition) : Loop σ Unit := do
  count fun stats => { stats with types := stats.types + 1 }
  t.methods.forM (overRules verbose tell settings context rules)

/-- The loop over the types of a module. -/
def overTypes (a : Module) : Loop σ Unit := do
  write verbose a.announcement
  a.types.forM (overMethods verbose tell settings context rules)

end Steps

/-! ## How steps end -/

theorem finish_bind {α β : Type} (step : Loop σ α) (next : α → Loop σ β) (tally : Tally σ) :
    (step >>= next).finish tally =
      match step.finish tally with
      | (.ok value, tally') => (next value).finish tally'
      | (.error message, tally') => (.error message, tally') := by
  simp only [finish, ExceptT.run_bind, StateT.run_bind, Id.run_bind]
  generalize (step.run.run tally).run = ended
  obtain ⟨outcome, tally'⟩ := ended
  cases outcome <;> rfl

theorem finish_tryCatch {α : Type} (step : Loop σ α) (handler : String → Loop σ α)
    (tally : Tally σ) :
    (tryCatch step handler).finish tally =
      match step.finish tally with
      | (.ok value, tally') => (.ok value, tally')
      | (.error message, tally') => (handler message).finish tally' := by
  show ((ExceptT.tryCatch step handler).run.run tally).run = _
  simp only [ExceptT.tryCatch, ExceptT.run_mk, finish, StateT.run_bind, Id.run_bind]
  have hstep : StateT.run step tally = step.run.run tally := rfl
  rw [hstep]
  generalize (step.run.run tally).run = ended
  obtain ⟨outcome, tally'⟩ := ended
  cases outcome <;> rfl

/-- A step that comes to its end, and one behind it. -/
theorem finish_andThen {β : Type} {step : Loop σ Unit} {next : Loop σ β} {tally after : Tally σ}
    (hstep : step.finish tally = (.ok (), after)) :
    (do step; next : Loop σ β).finish tally = next.finish after := by
  rw [finish_bind, hstep]

section Adds

variable {verbose : Bool} {tell : Listener σ} {settings : Settings} {context : RuleContext}
  {rules : List Rule}

/-- **Loops add up.** If every round adds something, the loop adds the sum of
it, each part as the listener is after the parts before. -/
theorem finish_forM {α : Type} {step : α → Loop σ Unit} {gain : σ → α → Gain}
    (sum : σ → List α → Gain) (hnil : ∀ state, sum state [] = .empty)
    (hcons : ∀ state x rest, sum state (x :: rest) =
      gain state x ++ sum (tell.after state (gain state x).result.findings) rest)
    (hstep : ∀ x tally, (step x).finish tally =
      (.ok (), tally.add verbose tell (gain tally.listener x))) (l : List α) :
    ∀ tally, (l.forM step).finish tally =
      (.ok (), tally.add verbose tell (sum tally.listener l)) := by
  induction l with
  | nil =>
      intro tally
      rw [hnil, Tally.add_empty]
      rfl
  | cons x rest ih =>
      intro tally
      rw [hcons, ← Tally.add_add]
      exact (finish_andThen (hstep x tally)).trans (ih _)

theorem finish_count {change : RunStats → RunStats} (stats : RunStats)
    (hchange : ∀ before, change before = before + stats) (tally : Tally σ) :
    (count change).finish tally = (.ok (), tally.add verbose tell (.counting stats)) := by
  have htally : { tally with result.stats := change tally.result.stats } =
      tally.add verbose tell (.counting stats) := by
    simp only [Tally.add, Gain.counting, RunResult.heard, RunResult.append_def, RunResult.empty,
      hchange, List.filter_nil, List.append_nil, Listener.after, List.foldl_nil]
  rw [← htally]
  rfl

theorem finish_write (entry : LogEntry) (tally : Tally σ) :
    (write verbose entry).finish tally =
      (.ok (), tally.add verbose tell (.logging [entry])) := by
  have hstats : tally.result.stats + RunResult.empty.stats = tally.result.stats := rfl
  have htally : (if entry.passes verbose then
      { tally with result.log := tally.result.log ++ [entry] } else tally) =
        tally.add verbose tell (.logging [entry]) := by
    rw [Tally.add, Gain.logging, RunResult.heard, RunResult.append_def, hstats]
    by_cases hpass : entry.passes verbose = true
    · rw [if_pos hpass, List.filter_cons_of_pos hpass]
      simp only [RunResult.empty, List.filter_nil, List.append_nil, Listener.after,
        List.foldl_nil]
    · rw [if_neg hpass, List.filter_cons_of_neg hpass]
      simp only [RunResult.empty, List.filter_nil, List.append_nil, Listener.after,
        List.foldl_nil]
  rw [← htally]
  rfl

theorem finish_note (verdict : Verdict) (tally : Tally σ) :
    (note verdict).finish tally = (.ok (), tally.add verbose tell (.deciding verdict)) := by
  have htally : (⟨tally.verdicts ++ [verdict],
      { tally.result with stats := { tally.result.stats with
        results := tally.result.stats.results + .of [verdict] } }, tally.listener⟩ : Tally σ) =
      tally.add verbose tell (.deciding verdict) := by
    simp only [Tally.add, Gain.deciding, RunResult.heard, RunResult.append_def, RunResult.empty,
      RunStats.add_def, List.filter_nil, List.append_nil, Nat.add_zero, Listener.after,
      List.foldl_nil]
  rw [← htally]
  rfl

/-- A finding that is told breaks off with the listener. -/
theorem finish_report (finding : Finding) (tally : Tally σ) :
    (report verbose tell settings finding).finish tally =
      (if settings.ignores finding then .ok () else (tell tally.listener finding).1,
        tally.add verbose tell (.ofEvents settings [.reported finding])) := by
  have hignores := settings.isEmpty_covering finding
  rw [report]
  cases hcovering : settings.covering finding with
  | cons ignore rest =>
      have hsplit : Gain.ofEvents settings [.reported finding] =
          .logging [Trial.entry .debug
            ("ignored " ++ finding.signature ++ ": " ++ ignore.reason)] ++
            .counting ⟨0, 0, 0, ⟨0, 0, 0, 0⟩, 1⟩ := by
        simp [Gain.ofEvents, Gain.finding?, Trial.entryOf, hcovering]
        rfl
      rw [hcovering] at hignores
      rw [if_pos (by simpa using hignores), hsplit, ← Tally.add_add]
      exact (finish_andThen (finish_write _ tally)).trans
        (finish_count ⟨0, 0, 0, ⟨0, 0, 0, 0⟩, 1⟩ (fun _ => rfl) _)
  | nil =>
      have hkept : Gain.ofEvents settings [.reported finding] =
          ⟨[], ⟨[finding], ⟨0, 0, 0, ⟨0, 0, 0, 0⟩, 0⟩, []⟩⟩ := by
        simp [Gain.ofEvents, Gain.finding?, Trial.entryOf, hcovering]
      have htally : (⟨tally.verdicts,
          { tally.result with findings := tally.result.findings ++ [finding] },
          (tell tally.listener finding).2⟩ : Tally σ) =
          tally.add verbose tell (.ofEvents settings [.reported finding]) := by
        rw [hkept]
        simp only [Tally.add, RunResult.heard, RunResult.append_def, List.filter_nil,
          List.append_nil, Listener.after, List.foldl_cons, List.foldl_nil]
        rfl
      rw [hcovering] at hignores
      rw [if_neg (by simpa using hignores), ← htally]
      show (MonadExcept.ofExcept (tell tally.listener finding).1 : Loop σ Unit).finish _ = _
      cases (tell tally.listener finding).1 <;> rfl

/-- The listener behind a finding has been told of it, unless it is
ignored. -/
theorem listener_add_reported (finding : Finding) (tally : Tally σ) :
    (tally.add verbose tell (.ofEvents settings [.reported finding])).listener =
      if settings.ignores finding then tally.listener else (tell tally.listener finding).2 := by
  have hfindings : (Gain.ofEvents settings [.reported finding]).result.findings =
      if settings.ignores finding then [] else [finding] := by
    by_cases hignored : settings.ignores finding = true <;>
      simp [Gain.ofEvents, Gain.finding?, settings.isEmpty_covering, hignored]
  rw [Tally.add, hfindings]
  split <;> rfl

/-- The events of an inspection add up as far as they come. -/
theorem finish_events (events : List RuleEvent) :
    ∀ tally : Tally σ, (events.forM (perform verbose tell settings)).finish tally =
      ((tell.carry settings tally.listener events).2,
        tally.add verbose tell
          (.ofEvents settings (tell.carry settings tally.listener events).1)) := by
  induction events with
  | nil => exact fun tally => congrArg (Prod.mk _) (Tally.add_empty verbose tell tally).symm
  | cons event rest ih =>
      intro tally
      cases event with
      | logged entry =>
          rw [Listener.carry, Gain.ofEvents_cons, ← Tally.add_add]
          exact (finish_andThen (finish_write entry tally)).trans (ih _)
      | reported finding =>
          have hreport := @finish_report σ verbose tell settings finding tally
          have hlistener := @listener_add_reported σ verbose tell settings finding tally
          show (do report verbose tell settings finding
                   rest.forM (perform verbose tell settings) : Loop σ Unit).finish tally = _
          by_cases hignored : settings.ignores finding = true
          · rw [if_pos hignored] at hreport hlistener
            rw [finish_andThen hreport, ih, hlistener, Listener.carry_of_ignores hignored,
              Tally.add_add, ← Gain.ofEvents_cons]
          · rw [if_neg hignored] at hreport hlistener
            rcases htold : tell tally.listener finding with ⟨told, state⟩
            rw [htold] at hreport hlistener
            cases told with
            | ok =>
                rw [finish_andThen hreport, ih, hlistener, Listener.carry_of_ok hignored htold,
                  Tally.add_add, ← Gain.ofEvents_cons]
            | error message =>
                rw [finish_bind, hreport, Listener.carry_of_error hignored htold]

/-- **One trial.** If the rule or the listener breaks down the verdict is lost
and nothing else: what has been reported stays, and one error is logged. -/
theorem finish_checkMethod (m : Method) (rule : Rule) (tally : Tally σ) :
    let trial := tell.trial settings tally.listener (.of context m.facts m rule)
    (checkMethod verbose tell settings context m rule).finish tally =
      (.ok trial.verdict, tally.add verbose tell
        (.ofEvents settings trial.inspection.events ++ .logging trial.failureLog)) := by
  dsimp only
  rw [checkMethod, finish_tryCatch, inspect, finish_bind, finish_events, Listener.trial,
    Trial.verdict, Trial.failureLog, Trial.of]
  dsimp only
  have hskipped (message : String) (after : Tally σ) :
      (do write verbose (Trial.entry .error
            (rule.id ++ " failed on " ++ m.signature ++ ": " ++ message))
          pure Verdict.skipped : Loop σ Verdict).finish after =
        (.ok .skipped, after.add verbose tell (.logging [Trial.entry .error
          (rule.id ++ " failed on " ++ m.signature ++ ": " ++ message)])) :=
    finish_andThen (finish_write _ after)
  rw [← Tally.add_add]
  rcases tell.carry settings tally.listener (rule.inspect context m.facts m).events with
    ⟨events, ended⟩
  cases ended with
  | error message => exact hskipped message _
  | ok =>
      cases (rule.inspect context m.facts m).outcome with
      | error message => exact hskipped message _
      | ok verdict => exact congrArg (Prod.mk _) (Tally.add_empty verbose tell _).symm

/-- Counting a method or a type is work without trials. -/
theorem finish_count_work (types methods : Nat) {change : RunStats → RunStats}
    (hchange : ∀ before, change before = before + ⟨0, types, methods, ⟨0, 0, 0, 0⟩, 0⟩)
    (tally : Tally σ) :
    (count change).finish tally =
      (.ok (), tally.add verbose tell (tell.work settings types methods tally.listener [])) :=
  finish_count _ hchange tally

/-- **One method.** It is counted, and its rules add their trials. -/
theorem finish_overRules (m : Method) (tally : Tally σ) :
    (overRules verbose tell settings context rules m).finish tally =
      (.ok (), tally.add verbose tell
        (tell.work settings 0 1 tally.listener (m.trialsIn rules context))) := by
  have hround (rule : Rule) (tally : Tally σ) :
      (do let verdict ← checkMethod verbose tell settings context m rule
          note verdict : Loop σ Unit).finish tally =
        (.ok (), tally.add verbose tell
          (tell.work settings 0 0 tally.listener [Trial.of context m.facts m rule])) := by
    rw [finish_bind, finish_checkMethod, Listener.work, Listener.trials, Listener.trials,
      Gain.work_trial]
    exact (finish_note _ _).trans (congrArg (Prod.mk _) (Tally.add_add ..))
  have hloop := finish_forM
    (fun state part => tell.work settings 0 0 state (Method.trialsIn part context m))
    (fun _ => rfl) (fun state rule rest => tell.work_append settings 0 0 0 0 state [_] _)
    hround rules
  have hcount := @finish_count_work σ verbose tell settings 0 1
    (fun stats => { stats with methods := stats.methods + 1 }) (fun _ => rfl) tally
  rw [overRules, finish_andThen hcount, hloop, Tally.add_add]
  exact congrArg (fun gain => (Except.ok (), tally.add verbose tell gain))
    (tell.work_append settings 0 1 0 0 tally.listener [] _).symm

/-- **One type.** It is counted, and its methods add their trials. -/
theorem finish_overMethods (t : TypeDefinition) (tally : Tally σ) :
    (overMethods verbose tell settings context rules t).finish tally =
      (.ok (), tally.add verbose tell
        (tell.work settings 1 t.methods.length tally.listener (t.trialsIn rules context))) := by
  have hloop := finish_forM
    (fun state part => tell.work settings 0 part.length state
      (part.flatMap (Method.trialsIn rules context)))
    (fun _ => rfl)
    (fun state m rest => by
      rw [List.length_cons, Nat.add_comm, List.flatMap_cons]
      exact tell.work_append settings 0 1 0 rest.length state _ _)
    (@finish_overRules σ verbose tell settings context rules) t.methods
  have hcount := @finish_count_work σ verbose tell settings 1 0
    (fun stats => { stats with types := stats.types + 1 }) (fun _ => rfl) tally
  rw [overMethods, finish_andThen hcount, hloop, Tally.add_add]
  have hall := tell.work_append settings 1 0 0 t.methods.length tally.listener []
    (t.trialsIn rules context)
  rw [Nat.zero_add] at hall
  exact congrArg (fun gain => (Except.ok (), tally.add verbose tell gain)) hall.symm

/-- **One module.** It is announced, and its types add their trials. -/
theorem finish_overTypes (a : Module) (tally : Tally σ) :
    (overTypes verbose tell settings context rules a).finish tally =
      (.ok (), tally.add verbose tell (.logging [a.announcement] ++
        tell.work settings a.types.length (a.types.flatMap TypeDefinition.methods).length
          tally.listener (a.trialsIn rules context))) := by
  have hloop := finish_forM
    (fun state part => tell.work settings part.length
      (part.flatMap TypeDefinition.methods).length state
      (part.flatMap (TypeDefinition.trialsIn rules context)))
    (fun _ => rfl)
    (fun state t rest => by
      rw [List.length_cons, Nat.add_comm, List.flatMap_cons, List.length_append,
        List.flatMap_cons]
      exact tell.work_append settings 1 t.methods.length rest.length _ state _ _)
    (@finish_overMethods σ verbose tell settings context rules) a.types
  rw [overTypes, finish_andThen (finish_write a.announcement tally), hloop, Tally.add_add]
  rfl

end Adds

end Loop

/-! ## The whole run -/

section Run

variable {σ : Type} (c : Codebase) (rules : List Rule) (settings : Settings) (verbose : Bool)
  (tell : Listener σ) (listener : σ)

/-- The loops of a run, from a tally that holds nothing but the number of
modules. -/
def Codebase.tally : Except String Unit × Tally σ :=
  Loop.finish (c.modules.forM (Loop.overTypes verbose tell settings c.context rules))
    ⟨[], { RunResult.empty with stats := ⟨c.modules.length, 0, 0, ⟨0, 0, 0, 0⟩, 0⟩ }, listener⟩

/-- All that a run adds up to under a listener. -/
def Codebase.gain : Gain :=
  .counting ⟨c.modules.length, 0, 0, ⟨0, 0, 0, 0⟩, 0⟩ ++
    tell.modules settings c.context rules listener c.modules

/-- **The loops come to an end**, and whether debug entries are wanted has no
part in what they add up to. -/
theorem Codebase.tally_eq :
    c.tally rules settings verbose tell listener =
      (.ok (), ⟨(c.gain rules settings tell listener).verdicts,
        (c.gain rules settings tell listener).result.heard verbose,
        tell.after listener (c.gain rules settings tell listener).result.findings⟩) := by
  have hloop := Loop.finish_forM (tell.modules settings c.context rules) (fun _ => rfl)
    (fun _ _ _ => rfl) (@Loop.finish_overTypes σ verbose tell settings c.context rules) c.modules
  rw [tally, hloop, gain, Tally.add, Gain.append_def, RunResult.heard_append]
  rfl

end Run

end DisposalAudit
