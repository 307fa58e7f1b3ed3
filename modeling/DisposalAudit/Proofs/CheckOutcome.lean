import DisposalAudit.Command.Run
import DisposalAudit.Proofs.RunAccounts
import DisposalAudit.Proofs.WrittenCounts

/-!
# How a check ends

A check reads the settings of the project, then loads the dumps, then runs
the rules, and each of these may end it. Here its three endings are told
apart once, and all else follows from them: when the program fails, when it
writes a record, what is read back from the file of the record, and that the
options that only concern the console have no part in this.

## Main definitions

* `HoldsFindings` — a text that is read as a document with some findings.
* `Environment.HasInvalidSettings` — the settings file is there and holds no
  settings.
* `Environment.record?` — the record of a check, if it comes to one.

## Main results

* `AuditRecord.holdsFindings_fileText` — the file of a record is read back.
* `Environment.check_cases` — the three endings.
* `Environment.check_eq_of_record` — failure and file of a check by its
  record.
* `Environment.check_ends` — what a check comes to.
-/

namespace DisposalAudit

/-! ## The file of a record -/

/-- What a finding says, each text with the name that it has in a document. -/
def Finding.texts (f : Finding) : List (String × String) :=
  [("rule", f.rule), ("type", f.type), ("method", f.method), ("signature", f.signature),
    ("severity", f.severity.name), ("confidence", f.confidence.name), ("message", f.message)]

/-- A document that says what a finding says, unit by unit. -/
def Finding.IsWrittenIn (f : Finding) (item : Value) : Prop :=
  ∀ name text, (name, text) ∈ f.texts →
    ∃ written, item.member? name = some (.text written) ∧ Text.units written = Text.units text

/-- A text that is read as a document with some findings, one by one, which
passes exactly if there are none. -/
def HoldsFindings (text : String) (findings : List Finding) : Prop :=
  ∃ document items summary, Json.read? text = some document ∧
    document.member? "findings" = some (.list items) ∧
    List.Forall₂ Finding.IsWrittenIn findings items ∧
    document.member? "summary" = some summary ∧
    summary.member? "passed" = some (.bool findings.isEmpty)

/-- A finding is read back from its document. -/
theorem Finding.isWrittenIn_back (f : Finding) : f.IsWrittenIn (Json.back f.toValue) := by
  have hnames : Json.AreKept
      ["rule", "type", "method", "signature", "severity", "confidence", "message"] :=
    ⟨by decide, by decide⟩
  intro name text hmem
  have hmember : (Json.back f.toValue).member? name = _ := Json.member?_back name hnames
  refine ⟨Json.reread text, hmember.trans ?_, Json.units_reread text⟩
  simp only [texts, List.mem_cons, Prod.mk.injEq, List.not_mem_nil, or_false] at hmem
  rcases hmem with ⟨rfl, rfl⟩ | ⟨rfl, rfl⟩ | ⟨rfl, rfl⟩ | ⟨rfl, rfl⟩ | ⟨rfl, rfl⟩ |
    ⟨rfl, rfl⟩ | ⟨rfl, rfl⟩ <;> rfl

theorem AuditSummary.isWritten_toValue (s : AuditSummary) : Json.IsWritten s.toValue := by
  have hcount (n : Nat) : Json.IsWritten (.count n) := Number.isWord_number_ofNat n
  refine ⟨hcount _, ⟨?_, ?_, ?_, ?_, ?_, trivial⟩, hcount _, hcount _, trivial, trivial⟩ <;>
    exact hcount _

namespace AuditRecord

variable (r : AuditRecord)

/-- Every number in a record is a count, and so has a numeral. -/
theorem isWritten_toValue : Json.IsWritten r.toValue := by
  have htexts (texts : List String) : Json.AreWritten (texts.map .text) := by
    rw [Json.areWritten_iff]
    rintro item hitem
    obtain ⟨text, -, rfl⟩ := List.mem_map.1 hitem
    trivial
  have hfindings : Json.AreWritten (r.findings.map Finding.toValue) := by
    rw [Json.areWritten_iff]
    rintro item hitem
    obtain ⟨finding, -, rfl⟩ := List.mem_map.1 hitem
    exact ⟨trivial, trivial, trivial, trivial, trivial, trivial, trivial, trivial⟩
  exact ⟨trivial, trivial, trivial, htexts _, Number.isWord_number_ofNat _, htexts _, hfindings,
    r.summary.isWritten_toValue, trivial⟩

/-- **The file of a record is read back** as a document with its findings. -/
theorem holdsFindings_fileText (h : r.summary.passed = r.findings.isEmpty) :
    HoldsFindings r.fileText r.findings := by
  have hnames : Json.AreKept ["tool", "tool_version", "timestamp", "modules_analyzed",
      "methods_analyzed", "rules_applied", "findings", "summary"] := ⟨by decide, by decide⟩
  have hsummaryNames : Json.AreKept ["total_findings", "by_severity", "skipped_methods",
      "suppressed_findings", "passed"] := ⟨by decide, by decide⟩
  have hmember (name : String) : (Json.back r.toValue).member? name = _ :=
    Json.member?_back name hnames
  have hpassed : (Json.back r.summary.toValue).member? "passed" = _ :=
    Json.member?_back "passed" hsummaryNames
  refine ⟨_, _, _, Json.read?_pretty r.isWritten_toValue, hmember "findings", ?_,
    hmember "summary", hpassed.trans (congrArg (fun passed => some (Value.bool passed)) h)⟩
  rw [Json.backItems_eq_map, List.map_map, List.forall₂_map_right_iff, List.forall₂_same]
  exact fun finding _ => finding.isWrittenIn_back

end AuditRecord

namespace Environment

variable (env : Environment) (request : CheckRequest)

/-! ## The three endings -/

/-- The project has a settings file, and the file holds no settings. -/
def HasInvalidSettings (project : Option String) : Prop :=
  ∃ text error, env.files.text? (settingsPath (env.resolve (project.getD env.directory))) =
    some text ∧ Settings.ofText env.readers text = .error error

/-- A project without a settings file has settings that change nothing. -/
theorem hasInvalidSettings_iff (project : Option String) :
    env.HasInvalidSettings project ↔ ∃ error, env.settings project = .error error := by
  rw [HasInvalidSettings, settings, loadSettings]
  cases env.files.text? (settingsPath (env.resolve (project.getD env.directory))) with
  | none => simp
  | some text => simp

/-- What is wrong with the dumps that a check names. -/
def loadErrors : List LoadError := (env.loaded request).errors

/-- The codebase of the dumps that a check names. -/
def codebase : Codebase := .load (env.loaded request).modules

/-- The run of a check under some settings. -/
def runUnder (settings : Settings) : RunResult :=
  (env.codebase request).run settings.rules settings

/-- The record of a check under some settings. -/
def recordUnder (settings : Settings) : AuditRecord :=
  .ofRun env.timestamp settings.rules (env.codebase request) (env.runUnder request settings)

/-- **The three endings of a check**: at its settings, at its dumps, or with
a run. -/
theorem check_cases :
    (∃ error, env.settings request.project = .error error ∧
      env.check request = .fails [env.errorLine error.message]) ∨
    (∃ settings, env.settings request.project = .ok settings ∧ env.loadErrors request ≠ [] ∧
      env.check request =
        .fails (loadErrorReport env.colour ((env.loadErrors request).map LoadError.message))) ∨
    (∃ settings, env.settings request.project = .ok settings ∧
      env.loadErrors request = [] ∧
      env.check request =
        { failed := request.failOnFindings && !(env.recordUnder request settings).summary.passed
          lines := printLog env.colour request.verbose (env.runUnder request settings).log ++
            env.checkReport request (env.recordUnder request settings)
          written := (env.outputPath? request).map fun path =>
            (path, (env.recordUnder request settings).fileText) }) := by
  rw [check]
  cases hsettings : env.settings request.project with
  | error error => exact .inl ⟨error, rfl, rfl⟩
  | ok settings =>
      by_cases hload : env.loadErrors request = []
      · have hempty : (!(env.loaded request).errors.isEmpty) = false := by
          rw [← loadErrors, hload]
          rfl
        refine .inr (.inr ⟨settings, rfl, hload, ?_⟩)
        simp only [hempty, Bool.false_eq_true, if_false]
        rfl
      · have hnonempty : (!(env.loaded request).errors.isEmpty) = true := by
          rw [Bool.not_eq_true', List.isEmpty_eq_false_iff]
          exact hload
        refine .inr (.inl ⟨settings, rfl, hload, ?_⟩)
        simp only [hnonempty, if_true]
        rfl

/-! ## Failure and file -/

/-- The record of a check, if it comes to one. What the check prints has no
part in it. -/
def record? : Option AuditRecord :=
  match env.settings request.project with
  | .error _ => none
  | .ok settings =>
    if (env.loadErrors request).isEmpty then some (env.recordUnder request settings) else none

theorem record?_eq_none_iff :
    env.record? request = none ↔
      env.HasInvalidSettings request.project ∨ env.loadErrors request ≠ [] := by
  rw [record?, hasInvalidSettings_iff]
  cases env.settings request.project with
  | error error => simp
  | ok settings => simp

theorem record?_eq_some_iff (record : AuditRecord) :
    env.record? request = some record ↔
      ∃ settings, env.settings request.project = .ok settings ∧ env.loadErrors request = [] ∧
        record = env.recordUnder request settings := by
  rw [record?]
  cases env.settings request.project with
  | error error => simp
  | ok settings =>
      simp only [List.isEmpty_iff, Option.ite_none_right_eq_some, Option.some.injEq,
        Except.ok.injEq, exists_eq_left', eq_comm (a := record)]

/-- **What a check does, by its record.** Without one it fails and writes
nothing. With one it fails if findings are to make it fail and there are
some, and in either case writes the record to the file that it is asked
for. -/
theorem check_eq_of_record :
    (env.check request).failed =
        ((env.record? request).elim true fun record =>
          request.failOnFindings && !record.summary.passed) ∧
      (env.check request).written =
        ((env.record? request).bind fun record =>
          (env.outputPath? request).map fun path => (path, record.fileText)) := by
  rcases env.check_cases request with ⟨error, hsettings, hcheck⟩ |
    ⟨settings, hsettings, hload, hcheck⟩ | ⟨settings, hsettings, hload, hcheck⟩
  · have hinvalid := (env.hasInvalidSettings_iff request.project).2 ⟨error, hsettings⟩
    rw [hcheck, (env.record?_eq_none_iff request).2 (.inl hinvalid)]
    exact ⟨rfl, rfl⟩
  · rw [hcheck, (env.record?_eq_none_iff request).2 (.inr hload)]
    exact ⟨rfl, rfl⟩
  · rw [hcheck, (env.record?_eq_some_iff request _).2 ⟨settings, hsettings, hload, rfl⟩]
    exact ⟨rfl, rfl⟩

/-- Among what a check sees and is asked for, colour and options for the
console have no part in its record, and the time only as such. -/
theorem record?_console (terminal verbose colour : Bool) (timestamp : String) :
    record? { env with timestamp, colour } { request with terminal, verbose } =
      (env.record? request).map fun record => { record with timestamp } := by
  show (match env.settings request.project with
    | .error _ => none
    | .ok settings => if (env.loadErrors request).isEmpty then
        some { env.recordUnder request settings with timestamp } else none) = _
  rw [record?]
  cases env.settings request.project with
  | error error => rfl
  | ok settings =>
      dsimp only
      cases (env.loadErrors request).isEmpty <;> rfl

theorem outputPath?_isSome_iff :
    (env.outputPath? request).isSome = true ↔ ∃ name, request.output = some name ∧ name ≠ "" := by
  rw [outputPath?]
  cases request.output with
  | none => simp
  | some name => by_cases hname : name = "" <;> simp [Option.filter, hname]

theorem outputPath?_eq_some {path : String} (h : env.outputPath? request = some path) :
    ∃ name, request.output = some name ∧ name ≠ "" ∧ path = env.resolve name := by
  obtain ⟨name, hname, hpath⟩ := Option.map_eq_some_iff.1 h
  obtain ⟨houtput, hnonempty⟩ := Option.filter_eq_some_iff.1 hname
  exact ⟨name, houtput, by simpa using hnonempty, hpath.symm⟩

/-- A record passes exactly without findings. -/
theorem passed_recordUnder_iff (settings : Settings) :
    (env.recordUnder request settings).summary.passed = true ↔
      (env.runUnder request settings).findings = [] :=
  List.isEmpty_iff

theorem failed_check_iff :
    (env.check request).failed = true ↔
      env.HasInvalidSettings request.project ∨ env.loadErrors request ≠ [] ∨
        request.failOnFindings = true ∧
          ∃ settings, env.settings request.project = .ok settings ∧
            (env.runUnder request settings).findings ≠ [] := by
  rw [(env.check_eq_of_record request).1]
  cases hrecord : env.record? request with
  | none =>
      have hearly := (env.record?_eq_none_iff request).1 hrecord
      rw [← or_assoc]
      exact ⟨fun _ => .inl hearly, fun _ => rfl⟩
  | some record =>
      have hearly : ¬ (env.HasInvalidSettings request.project ∨ env.loadErrors request ≠ []) := by
        rw [← record?_eq_none_iff, hrecord]
        exact Option.some_ne_none record
      obtain ⟨settings, hsettings, -, rfl⟩ := (env.record?_eq_some_iff request record).1 hrecord
      rw [← or_assoc, or_iff_right hearly, hsettings]
      simp only [Option.elim_some, Bool.and_eq_true, Bool.not_eq_true', Except.ok.injEq,
        exists_eq_left', ← Bool.not_eq_true, passed_recordUnder_iff, ne_eq]

theorem written_check_isSome_iff :
    (env.check request).written.isSome = true ↔
      (∃ name, request.output = some name ∧ name ≠ "") ∧
        ¬ env.HasInvalidSettings request.project ∧ env.loadErrors request = [] := by
  have hrecord : (env.record? request).isSome = true ↔
      ¬ env.HasInvalidSettings request.project ∧ env.loadErrors request = [] := by
    rw [← Option.ne_none_iff_isSome, ne_eq, record?_eq_none_iff, not_or, ne_eq,
      Classical.not_not]
  rw [(env.check_eq_of_record request).2, ← env.outputPath?_isSome_iff request, ← hrecord]
  cases env.record? request with
  | none => simp
  | some record => simp

theorem of_written_check {path text : String}
    (h : (env.check request).written = some (path, text)) :
    ∃ name settings, request.output = some name ∧ path = env.resolve name ∧
      env.settings request.project = .ok settings ∧
      text = (env.recordUnder request settings).fileText := by
  rw [(env.check_eq_of_record request).2, Option.bind_eq_some_iff] at h
  obtain ⟨record, hrecord, hfile⟩ := h
  obtain ⟨path', hpath, hpair⟩ := Option.map_eq_some_iff.1 hfile
  obtain ⟨rfl, rfl⟩ := Prod.mk.inj hpair
  obtain ⟨settings, hsettings, -, rfl⟩ := (env.record?_eq_some_iff request record).1 hrecord
  obtain ⟨name, hname, -, hresolved⟩ := env.outputPath?_eq_some request hpath
  exact ⟨name, settings, hname, hresolved, hsettings, rfl⟩

theorem check_of_invalid {error : SettingsFileError}
    (h : env.settings request.project = .error error) :
    env.check request = .fails [env.errorLine error.message] := by
  rw [check, h]

theorem check_of_loadErrors {settings : Settings} (h : env.settings request.project = .ok settings)
    (hload : env.loadErrors request ≠ []) :
    env.check request =
      .fails (loadErrorReport env.colour ((env.loadErrors request).map LoadError.message)) := by
  rcases env.check_cases request with ⟨error, hsettings, -⟩ | ⟨-, -, -, hcheck⟩ | ⟨-, -, hnone, -⟩
  · rw [h] at hsettings
    exact nomatch hsettings
  · exact hcheck
  · exact absurd hnone hload

/-- A check that ends early leaves all files as they are. -/
theorem filesAfter_check_of_early
    (h : env.HasInvalidSettings request.project ∨ env.loadErrors request ≠ []) :
    (env.check request).filesAfter env.files = env.files := by
  rw [Outcome.filesAfter, (env.check_eq_of_record request).2,
    (env.record?_eq_none_iff request).2 h]
  rfl

/-- Otherwise only the file that is written changes. -/
theorem filesAfter_check_of_written {path text : String}
    (h : (env.check request).written = some (path, text)) (other : String) :
    ((env.check request).filesAfter env.files).text? other =
      if other = path then some text else env.files.text? other := by
  rw [Outcome.filesAfter, h]
  exact env.files.text?_write path other text

theorem check_console (terminal verbose colour : Bool) (timestamp : String) :
    (check { env with timestamp, colour } { request with terminal, verbose }).failed =
        (env.check request).failed ∧
      ∃ draft : Option (String × AuditRecord),
        (env.check request).written =
          (draft.map fun (path, record) => (path, record.fileText)) ∧
        (check { env with timestamp, colour } { request with terminal, verbose }).written =
          (draft.map fun (path, record) => (path, { record with timestamp }.fileText)) := by
  have hpath : outputPath? { env with timestamp, colour } { request with terminal, verbose } =
      env.outputPath? request := rfl
  rw [(env.check_eq_of_record request).1, (env.check_eq_of_record request).2,
    (check_eq_of_record _ _).1, (check_eq_of_record _ _).2, record?_console, hpath]
  refine ⟨?_, (env.record? request).bind fun record =>
    (env.outputPath? request).map fun path => (path, record), ?_, ?_⟩
  · cases env.record? request <;> rfl
  · cases env.record? request <;> cases env.outputPath? request <;> rfl
  · cases env.record? request <;> cases env.outputPath? request <;> rfl

/--
**What a check comes to.** It fails exactly if the settings file is there and
is invalid, a dump cannot be loaded, or findings are to make it fail and some
are left. It writes a file exactly if it is asked for one and neither settings
nor dumps have failed, whether or not findings make it fail; the file is read
back as a document with the findings of the run, which are those that the
rules report and no ignore rule applies to, and it passes exactly without
findings. Without settings or dumps a check does no more than to say what is
wrong. What is only for the console changes neither failure nor file, up to
the time in the record. All this holds whatever the searches for dumps find
and whatever the readers of documents answer.
-/
theorem check_ends :
    env.run (.ok (.check request)) = env.check request ∧
    ((env.check request).failed = true ↔
      env.HasInvalidSettings request.project ∨ env.loadErrors request ≠ [] ∨
        request.failOnFindings = true ∧
          ∃ settings, env.settings request.project = .ok settings ∧
            (env.runUnder request settings).findings ≠ []) ∧
    ((env.check request).written.isSome = true ↔
      (∃ name, request.output = some name ∧ name ≠ "") ∧
        ¬ env.HasInvalidSettings request.project ∧ env.loadErrors request = []) ∧
    (∀ path text, (env.check request).written = some (path, text) →
      ∃ name settings, request.output = some name ∧ path = env.resolve name ∧
        env.settings request.project = .ok settings ∧
        text = (env.recordUnder request settings).fileText ∧
        HoldsFindings text (env.runUnder request settings).findings ∧
        (∀ other, ((env.check request).filesAfter env.files).text? other =
          if other = path then some text else env.files.text? other) ∧
        (env.runUnder request settings).findings =
          ((env.codebase request).reported settings.rules).filter
            (fun finding => !settings.ignores finding) ∧
        (env.recordUnder request settings).findings =
          (env.runUnder request settings).findings ∧
        ((env.recordUnder request settings).summary.passed = true ↔
          (env.recordUnder request settings).findings = [])) ∧
    (env.HasInvalidSettings request.project ∨ env.loadErrors request ≠ [] →
      (env.check request).filesAfter env.files = env.files) ∧
    (∀ error, env.settings request.project = .error error →
      env.check request = .fails [env.errorLine error.message]) ∧
    (∀ settings, env.settings request.project = .ok settings → env.loadErrors request ≠ [] →
      env.check request =
        .fails (loadErrorReport env.colour ((env.loadErrors request).map LoadError.message))) ∧
    (∀ (terminal verbose colour : Bool) (timestamp : String),
      (check { env with timestamp, colour } { request with terminal, verbose }).failed =
          (env.check request).failed ∧
        ∃ draft : Option (String × AuditRecord),
          (env.check request).written =
            (draft.map fun (path, record) => (path, record.fileText)) ∧
          (check { env with timestamp, colour } { request with terminal, verbose }).written =
            (draft.map fun (path, record) => (path, { record with timestamp }.fileText))) := by
  refine ⟨rfl, env.failed_check_iff request, env.written_check_isSome_iff request,
    fun path text hwritten => ?_, env.filesAfter_check_of_early request,
    fun error => env.check_of_invalid request,
    fun settings => env.check_of_loadErrors request, env.check_console request⟩
  obtain ⟨name, settings, hname, hpath, hsettings, htext⟩ := env.of_written_check request hwritten
  have hfile := (env.recordUnder request settings).holdsFindings_fileText rfl
  rw [← htext] at hfile
  exact ⟨name, settings, hname, hpath, hsettings, htext, hfile,
    env.filesAfter_check_of_written request hwritten,
    (env.codebase request).findings_run_eq_filter settings.rules settings, rfl,
    env.passed_recordUnder_iff request settings⟩

end Environment

end DisposalAudit
