import DisposalAudit.Settings.Reader

/-!
# Checks on settings

Reading settings is a sequence of checks that ends with the first one that
fails. Here the checks are written down as a list, each with its error and
with what has to hold, and the readers are compared with that list part by
part: a reader that is put together from others runs the checks of its
parts one after the other. Beside the checks stands what a reader comes to
if they hold: the members that are known, as they were written.

## Main definitions

* `SettingsCheck`, `SettingsCheck.FirstFailure` — checks in order, and the first that fails.
* `Follows` — a reader that runs some checks and comes to a result.
* `Settings.checks`, `Settings.held` — the checks on a document value, and
  the settings in it.

## Main results

* `Follows.bind`, `Follows.mapM` — checks of readers that are put together.
* `Settings.follows_ofValue` — reading settings runs the checks.
-/

namespace DisposalAudit

/-! ## Checks in order -/

/-- Something that has to hold of a value, and the error if it does not. -/
structure SettingsCheck where
  error : SettingsError
  holds : Prop

namespace SettingsCheck

/-- The error of the first check that fails, if one does. -/
def FirstFailure (checks : List SettingsCheck) (e : SettingsError) : Prop :=
  ∃ before check after, checks = before ++ check :: after ∧
    (∀ earlier ∈ before, earlier.holds) ∧ ¬ check.holds ∧ check.error = e

variable {check : SettingsCheck} {checks checks' rest : List SettingsCheck} {e : SettingsError}

theorem not_firstFailure_nil : ¬ FirstFailure [] e := by
  rintro ⟨before, check, after, hsplit, -⟩
  simp at hsplit

theorem firstFailure_cons_iff :
    FirstFailure (check :: rest) e ↔
      ¬ check.holds ∧ check.error = e ∨ check.holds ∧ FirstFailure rest e := by
  constructor
  · rintro ⟨before, failed, after, hsplit, hearlier, hfails, herror⟩
    cases before with
    | nil =>
        obtain ⟨rfl, rfl⟩ := List.cons_eq_cons.1 hsplit
        exact .inl ⟨hfails, herror⟩
    | cons first before =>
        obtain ⟨rfl, rfl⟩ := List.cons_eq_cons.1 hsplit
        obtain ⟨hfirst, hbefore⟩ := List.forall_mem_cons.1 hearlier
        exact .inr ⟨hfirst, before, failed, after, rfl, hbefore, hfails, herror⟩
  · rintro (⟨hfails, herror⟩ | ⟨hholds, before, failed, after, rfl, hearlier, hfails, herror⟩)
    · exact ⟨[], check, rest, rfl, by simp, hfails, herror⟩
    · exact ⟨check :: before, failed, after, rfl, List.forall_mem_cons.2 ⟨hholds, hearlier⟩,
        hfails, herror⟩

theorem firstFailure_append_iff :
    FirstFailure (checks ++ checks') e ↔
      FirstFailure checks e ∨ (∀ check ∈ checks, check.holds) ∧ FirstFailure checks' e := by
  induction checks with
  | nil => simp [not_firstFailure_nil]
  | cons check rest ih =>
      rw [List.cons_append, firstFailure_cons_iff, firstFailure_cons_iff, ih,
        List.forall_mem_cons, and_or_left, or_assoc, and_assoc]

/-- Either all checks hold or one is the first that fails. -/
theorem holds_or_firstFailure (checks : List SettingsCheck) :
    (∀ check ∈ checks, check.holds) ∨ ∃ e, FirstFailure checks e := by
  induction checks with
  | nil => simp
  | cons check rest ih =>
      simp only [List.forall_mem_cons, firstFailure_cons_iff]
      by_cases hholds : check.holds
      · rcases ih with hrest | ⟨e, he⟩
        · exact .inl ⟨hholds, hrest⟩
        · exact .inr ⟨e, .inr ⟨hholds, he⟩⟩
      · exact .inr ⟨check.error, .inl ⟨hholds, rfl⟩⟩

end SettingsCheck

/-- A reader follows some checks: if all hold it comes to a result, and if
one fails it stops with the error of the first that does. -/
structure Follows {α : Type} (read : Except SettingsError α) (checks : List SettingsCheck)
    (a : α) : Prop where
  ok : (∀ check ∈ checks, check.holds) → read = .ok a
  error : ∀ e, SettingsCheck.FirstFailure checks e → read = .error e

namespace Follows

variable {α β : Type} {read : Except SettingsError α} {checks checks' : List SettingsCheck}
  {a : α}

theorem of_ok (a : α) : Follows (.ok a) [] a where
  ok _ := rfl
  error _ h := absurd h SettingsCheck.not_firstFailure_nil

/-- One more check in front. -/
theorem cons {check : SettingsCheck} (hfails : ¬ check.holds → read = .error check.error)
    (hholds : check.holds → Follows read checks a) : Follows read (check :: checks) a where
  ok h := by
    obtain ⟨hfirst, hrest⟩ := List.forall_mem_cons.1 h
    exact (hholds hfirst).ok hrest
  error e h := by
    rcases SettingsCheck.firstFailure_cons_iff.1 h with ⟨hnot, rfl⟩ | ⟨hfirst, hrest⟩
    · exact hfails hnot
    · exact (hholds hfirst).error e hrest

/-- A reader and another that goes on with its result. -/
theorem bind {next : α → Except SettingsError β} {b : β} (h : Follows read checks a)
    (hnext : (∀ check ∈ checks, check.holds) → Follows (next a) checks' b) :
    Follows (read >>= next) (checks ++ checks') b where
  ok hall := by
    rw [List.forall_mem_append] at hall
    rw [h.ok hall.1]
    exact (hnext hall.1).ok hall.2
  error e hfailure := by
    rcases SettingsCheck.firstFailure_append_iff.1 hfailure with hfirst | ⟨hall, hsecond⟩
    · rw [h.error e hfirst]
      rfl
    · rw [h.ok hall]
      exact (hnext hall).error e hsecond

theorem map (f : α → β) (h : Follows read checks a) : Follows (read.map f) checks (f a) where
  ok hall := by rw [h.ok hall]; rfl
  error e hfailure := by rw [h.error e hfailure]; rfl

/-- A list is read entry by entry. -/
theorem mapM {γ : Type} {readOne : γ → Except SettingsError β}
    {checksOne : γ → List SettingsCheck} {result : γ → β} {entries : List γ}
    (h : ∀ entry ∈ entries, Follows (readOne entry) (checksOne entry) (result entry)) :
    Follows (entries.mapM readOne) (entries.flatMap checksOne) (entries.map result) := by
  induction entries with
  | nil => exact of_ok []
  | cons entry rest ih =>
      obtain ⟨hentry, hrest⟩ := List.forall_mem_cons.1 h
      rw [List.mapM_cons, List.flatMap_cons, List.map_cons]
      refine hentry.bind fun _ => ?_
      rw [← List.append_nil (rest.flatMap checksOne)]
      exact (ih hrest).bind fun _ => of_ok _

/-- The checks tell whether there is a result, and else which error. -/
theorem exists_ok_iff (h : Follows read checks a) :
    (∃ result, read = .ok result) ↔ ∀ check ∈ checks, check.holds := by
  refine ⟨fun ⟨result, hresult⟩ => ?_, fun hall => ⟨a, h.ok hall⟩⟩
  rcases SettingsCheck.holds_or_firstFailure checks with hall | ⟨e, he⟩
  · exact hall
  · rw [h.error e he] at hresult
    cases hresult

theorem eq_of_ok (h : Follows read checks a) {result : α} (hresult : read = .ok result) :
    result = a := by
  have hall := h.exists_ok_iff.1 ⟨result, hresult⟩
  exact Except.ok.inj (hresult.symm.trans (h.ok hall))

theorem error_iff (h : Follows read checks a) (e : SettingsError) :
    read = .error e ↔ SettingsCheck.FirstFailure checks e := by
  refine ⟨fun herror => ?_, h.error e⟩
  rcases SettingsCheck.holds_or_firstFailure checks with hall | ⟨e', he'⟩
  · rw [h.ok hall] at herror
    cases herror
  · rw [h.error e' he', Except.error.injEq] at herror
    exact herror ▸ he'

end Follows

/-! ## The checks on settings -/

namespace Value

/-- The text that a value is, if it is one. -/
def textOrEmpty : Value → String
  | .text s => s
  | _ => ""

/-- The entries of a value, if it is a list. -/
def entries : Value → List Value
  | .list entries => entries
  | _ => []

/-- Names of the members of a value, in listing order. -/
def names : Value → List String
  | .record members => (Members.listing members).map Prod.fst
  | _ => []

/-- Whether a value has members. -/
def IsRecord (v : Value) : Prop := ∃ members, v = .record members

/-- Whether a value is a text. -/
def IsText (v : Value) : Prop := ∃ s, v = .text s

/-- Whether a value is a text with more in it than blanks. -/
def IsName (v : Value) : Prop := ∃ s, v = .text s ∧ Text.trim s ≠ ""

end Value

namespace Settings

/-- Members of an ignore rule by which it picks findings. -/
def criteria : List String := ["type", "method", "rule"]

/-- Checks on a member, if it is there. -/
def onMember (v : Value) (name : String) (checks : Value → List SettingsCheck) :
    List SettingsCheck :=
  (v.member? name).toList.flatMap checks

/-- A name has to be a text that is not blank. -/
def nameChecks (field : String) (value : Value) : List SettingsCheck :=
  [⟨.emptyName field, value.IsName⟩]

/-- Fragments have to be a list of names, at least one. -/
def fragmentsChecks (value : Value) : List SettingsCheck :=
  ⟨.emptyFragments, ∃ first rest, value = .list (first :: rest)⟩ ::
    value.entries.flatMap (nameChecks "helperNameFragments")

/-- The options of the guard rule: first whether all are known, then each. -/
def guardChecks (options : Value) : List SettingsCheck :=
  ⟨.ruleNotRecord, options.IsRecord⟩ ::
    (options.names.map (fun name => ⟨.unknownOption name, name ∈ optionNames⟩) ++
      (onMember options "lifecycleInterface" (nameChecks "lifecycleInterface") ++
        (onMember options "guardException" (nameChecks "guardException") ++
          (onMember options "disposeMethod" (nameChecks "disposeMethod") ++
            onMember options "helperNameFragments" fragmentsChecks))))

/-- The options of rules; only one rule has any. -/
def rulesChecks (rules : Value) : List SettingsCheck :=
  ⟨.rulesNotRecord, rules.IsRecord⟩ :: onMember rules disposedGuardId guardChecks

/-- A criterion has to be a text, possibly an empty one. -/
def criterionChecks (index : Nat) (entry : Value) (field : String) : List SettingsCheck :=
  onMember entry field fun value => [⟨.entryNotText index field, value.IsText⟩]

/-- A reason has to be a text, and not too short. -/
def reasonChecks (index : Nat) (entry : Value) : List SettingsCheck :=
  [⟨.entryWithoutReason index, ∃ s, entry.member? "reason" = some (.text s) ∧ s ≠ ""⟩,
    ⟨.entryReasonTooShort index,
      ∀ s, entry.member? "reason" = some (.text s) → 10 ≤ Text.width (Text.trim s)⟩]

/-- An ignore rule: its criteria, whether one of them says something, and its
reason. -/
def entryChecks (index : Nat) (entry : Value) : List SettingsCheck :=
  ⟨.entryNotRecord index, entry.IsRecord⟩ ::
    (criterionChecks index entry "type" ++ (criterionChecks index entry "method" ++
      (criterionChecks index entry "rule" ++
        ⟨.entryWithoutCriterion index,
            ∃ field ∈ criteria, ∃ s, entry.member? field = some (.text s) ∧ s ≠ ""⟩ ::
          reasonChecks index entry)))

/-- Ignore rules, one after the other. -/
def ignoreChecks (ignore : Value) : List SettingsCheck :=
  ⟨.ignoreNotList, ∃ entries, ignore = .list entries⟩ ::
    ignore.entries.zipIdx.flatMap fun (entry, index) => entryChecks index entry

/-- The checks on a document value, the options of rules before the ignore
rules. -/
def checks (v : Value) : List SettingsCheck :=
  ⟨.notRecord, v.IsRecord⟩ ::
    (onMember v "rules" rulesChecks ++ onMember v "ignore" ignoreChecks)

/-! ## What is held -/

/-- Overrides of the guard rule, as far as the options are texts. -/
def heldGuard (options : Value) : GuardOverrides where
  lifecycleInterface := (options.member? "lifecycleInterface").map Value.textOrEmpty
  guardException := (options.member? "guardException").map Value.textOrEmpty
  disposeMethod := (options.member? "disposeMethod").map Value.textOrEmpty
  helperNameFragments :=
    (options.member? "helperNameFragments").map fun parts => parts.entries.map Value.textOrEmpty

/-- Overrides by rule. -/
def heldRules (rules : Value) : RuleOverrides := ⟨(rules.member? disposedGuardId).map heldGuard⟩

/-- An ignore rule, as far as its members are texts. -/
def heldEntry (entry : Value) : IgnoreRule where
  type := (entry.member? "type").map Value.textOrEmpty
  method := (entry.member? "method").map Value.textOrEmpty
  rule := (entry.member? "rule").map Value.textOrEmpty
  reason := ((entry.member? "reason").map Value.textOrEmpty).getD ""

/-- Settings, as far as the members are of the right kinds. -/
def held (v : Value) : Settings where
  overrides := (v.member? "rules").map heldRules
  ignore := ((v.member? "ignore").map fun ignore => ignore.entries.map heldEntry).getD []

/-! ## The readers -/

theorem follows_optionally {α : Type} {read : Value → Except SettingsError α}
    {checks : Value → List SettingsCheck} {result : Value → α}
    (h : ∀ value, Follows (read value) (checks value) (result value)) (v : Value) (name : String) :
    Follows (optionally read (v.member? name)) (onMember v name checks)
      ((v.member? name).map result) := by
  rw [onMember]
  cases v.member? name with
  | none => exact .of_ok Option.none
  | some value =>
      rw [Option.toList_some, List.flatMap_singleton]
      exact (h value).map some

theorem follows_readName (field : String) (value : Value) :
    Follows (readName field value) (nameChecks field value) value.textOrEmpty := by
  refine .cons (fun hnot => ?_) fun hname => ?_
  · cases value with
    | text s =>
        have hblank : Text.trim s = "" := by
          by_cases hblank : Text.trim s = ""
          · exact hblank
          · exact absurd ⟨s, rfl, hblank⟩ hnot
        simp [readName, hblank]
    | _ => rfl
  · obtain ⟨s, rfl, hblank⟩ := hname
    have hread : readName field (.text s) = .ok s := by simp [readName, hblank]
    rw [hread]
    exact .of_ok s

theorem follows_readFragments (value : Value) :
    Follows (readFragments value) (fragmentsChecks value)
      (value.entries.map Value.textOrEmpty) := by
  refine .cons (fun hnot => ?_) fun hlist => ?_
  · unfold readFragments
    split
    · exact absurd ⟨_, _, rfl⟩ hnot
    · rfl
  · obtain ⟨first, rest, rfl⟩ := hlist
    exact .mapM fun part _ => follows_readName "helperNameFragments" part

/-- Entries are checked in order, and the rest is done if none is bad. -/
theorem follows_find? {α γ : Type} (bad : γ → Bool) (error : γ → SettingsError) (l : List γ)
    {next : Except SettingsError α} {checks : List SettingsCheck} {a : α}
    (h : Follows next checks a) :
    Follows (match l.find? bad with
      | some x => .error (error x)
      | .none => next)
      (l.map (fun x => ⟨error x, bad x = false⟩) ++ checks) a := by
  induction l with
  | nil => exact h
  | cons x rest ih =>
      rw [List.map_cons, List.cons_append, List.find?_cons]
      cases hbad : bad x with
      | true => exact .cons (fun _ => rfl) fun hfine => by cases hfine
      | false => exact .cons (fun hnot => absurd rfl hnot) fun _ => ih

theorem follows_readGuard (options : Value) :
    Follows (readGuard options) (guardChecks options) (heldGuard options) := by
  refine .cons (fun hnot => ?_) fun hrecord => ?_
  · cases options with
    | record members => exact absurd ⟨members, rfl⟩ hnot
    | _ => rfl
  · obtain ⟨members, rfl⟩ := hrecord
    have hnames : (Value.record members).names.map
          (fun name => (⟨.unknownOption name, name ∈ optionNames⟩ : SettingsCheck)) =
        (Members.listing members).map fun m =>
          ⟨.unknownOption m.1, (!optionNames.contains m.1) = false⟩ := by
      simp [Value.names]
    rw [hnames]
    have hoptions : Follows (do
          let lifecycleInterface ← optionally (readName "lifecycleInterface")
            ((Value.record members).member? "lifecycleInterface")
          let guardException ← optionally (readName "guardException")
            ((Value.record members).member? "guardException")
          let disposeMethod ← optionally (readName "disposeMethod")
            ((Value.record members).member? "disposeMethod")
          let helperNameFragments ← optionally readFragments
            ((Value.record members).member? "helperNameFragments")
          pure { lifecycleInterface, guardException, disposeMethod, helperNameFragments })
        _ (heldGuard (.record members)) :=
      (follows_optionally (follows_readName _) _ _).bind fun _ =>
        (follows_optionally (follows_readName _) _ _).bind fun _ =>
          (follows_optionally (follows_readName _) _ _).bind fun _ =>
            (follows_optionally follows_readFragments _ _).map _
    have hall := follows_find? (fun m => !optionNames.contains m.1) (fun m => .unknownOption m.1)
      (Members.listing members) hoptions
    unfold readGuard
    dsimp only
    cases hunknown : (Members.listing members).find? fun m => !optionNames.contains m.1 with
    | some m =>
        rw [hunknown] at hall
        exact hall
    | none =>
        rw [hunknown] at hall
        exact hall

theorem follows_readRules (rules : Value) :
    Follows (readRules rules) (rulesChecks rules) (heldRules rules) := by
  refine .cons (fun hnot => ?_) fun hrecord => ?_
  · cases rules with
    | record members => exact absurd ⟨members, rfl⟩ hnot
    | _ => rfl
  · obtain ⟨members, rfl⟩ := hrecord
    exact (follows_optionally follows_readGuard (.record members) disposedGuardId).map
      RuleOverrides.mk

theorem follows_readCriterion (index : Nat) (field : String) (value : Value) :
    Follows (readCriterion index field value) [⟨.entryNotText index field, value.IsText⟩]
      value.textOrEmpty := by
  refine .cons (fun hnot => ?_) fun htext => ?_
  · cases value with
    | text s => exact absurd ⟨s, rfl⟩ hnot
    | _ => rfl
  · obtain ⟨s, rfl⟩ := htext
    exact .of_ok s

theorem follows_readReason (index : Nat) (entry : Value) :
    Follows (readReason index (entry.member? "reason")) (reasonChecks index entry)
      (heldEntry entry).reason := by
  refine .cons (fun hnot => ?_) fun hgiven => ?_
  · unfold readReason
    split
    · rename_i s hreason
      have hempty : s = "" := by
        by_cases hempty : s = ""
        · exact hempty
        · exact absurd ⟨s, hreason, hempty⟩ hnot
      rw [if_pos (String.isEmpty_iff.2 hempty)]
    · rfl
  · obtain ⟨s, hreason, hnonempty⟩ := hgiven
    have hread : readReason index (entry.member? "reason") =
        if Text.width (Text.trim s) < 10 then .error (.entryReasonTooShort index) else .ok s := by
      rw [hreason, readReason, if_neg (mt String.isEmpty_iff.1 hnonempty)]
    have hheld : (heldEntry entry).reason = s := by
      rw [heldEntry, hreason]
      rfl
    rw [hread, hheld]
    refine .cons (fun hnot => if_pos (Nat.lt_of_not_le fun hlong => hnot ?_)) fun hlong => ?_
    · intro s' hs'
      rw [hreason] at hs'
      cases hs'
      exact hlong
    · rw [if_neg (Nat.not_lt.2 (hlong s hreason))]
      exact .of_ok s

/-- A criterion says nothing if it is absent or empty. -/
theorem all_isEmpty_iff {part : Option Value} :
    (part.map Value.textOrEmpty).all String.isEmpty = true ↔
      ¬ ∃ s, part = some (.text s) ∧ s ≠ "" := by
  cases part with
  | none => simp
  | some value => cases value <;> simp [Value.textOrEmpty]

theorem follows_readEntry (index : Nat) (entry : Value) :
    Follows (readEntry index entry) (entryChecks index entry) (heldEntry entry) := by
  refine .cons (fun hnot => ?_) fun hrecord => ?_
  · cases entry with
    | record members => exact absurd ⟨members, rfl⟩ hnot
    | _ => rfl
  · have hcriteria : ([(heldEntry entry).type, (heldEntry entry).method,
          (heldEntry entry).rule].all fun c => c.all String.isEmpty) = true ↔
        ¬ ∃ field ∈ criteria, ∃ s, entry.member? field = some (.text s) ∧ s ≠ "" := by
      simp only [heldEntry, List.all_cons, List.all_nil, Bool.and_eq_true, all_isEmpty_iff,
        criteria, List.mem_cons, List.not_mem_nil, or_false, exists_eq_or_imp, exists_eq_left,
        not_or, and_true]
    have hrest : Follows
        (if [(heldEntry entry).type, (heldEntry entry).method, (heldEntry entry).rule].all
            (fun c => c.all String.isEmpty) then .error (.entryWithoutCriterion index)
          else do
            let reason ← readReason index (entry.member? "reason")
            pure { heldEntry entry with reason })
        (⟨.entryWithoutCriterion index,
            ∃ field ∈ criteria, ∃ s, entry.member? field = some (.text s) ∧ s ≠ ""⟩ ::
          reasonChecks index entry) (heldEntry entry) := by
      refine .cons (fun hnot => if_pos (hcriteria.2 hnot)) fun hsome => ?_
      rw [if_neg fun hempty => hcriteria.1 hempty hsome]
      exact (follows_readReason index entry).map fun reason => { heldEntry entry with reason }
    have hall : Follows (do
          let type ← optionally (readCriterion index "type") (entry.member? "type")
          let method ← optionally (readCriterion index "method") (entry.member? "method")
          let rule ← optionally (readCriterion index "rule") (entry.member? "rule")
          if [type, method, rule].all fun c => c.all String.isEmpty then
            throw (.entryWithoutCriterion index)
          let reason ← readReason index (entry.member? "reason")
          pure { type, method, rule, reason })
        _ (heldEntry entry) :=
      (follows_optionally (follows_readCriterion index "type") entry "type").bind fun _ =>
        (follows_optionally (follows_readCriterion index "method") entry "method").bind fun _ =>
          (follows_optionally (follows_readCriterion index "rule") entry "rule").bind fun _ => hrest
    obtain ⟨members, rfl⟩ := hrecord
    exact hall

theorem follows_readIgnore (ignore : Value) :
    Follows (readIgnore ignore) (ignoreChecks ignore) (ignore.entries.map heldEntry) := by
  refine .cons (fun hnot => ?_) fun hlist => ?_
  · cases ignore with
    | list entries => exact absurd ⟨entries, rfl⟩ hnot
    | _ => rfl
  · obtain ⟨entries, rfl⟩ := hlist
    have hentries : (entries.zipIdx.map fun entry => heldEntry entry.1) =
        entries.map heldEntry := by
      rw [show (fun entry : Value × Nat => heldEntry entry.1) = heldEntry ∘ Prod.fst from rfl,
        ← List.map_map, List.zipIdx_map_fst]
    show Follows _ _ (entries.map heldEntry)
    rw [← hentries]
    exact .mapM fun entry _ => follows_readEntry entry.2 entry.1

/-- Reading settings follows the list of checks. -/
theorem follows_ofValue (v : Value) : Follows (ofValue v) (checks v) (held v) := by
  refine .cons (fun hnot => ?_) fun hrecord => ?_
  · cases v with
    | record members => exact absurd ⟨members, rfl⟩ hnot
    | _ => rfl
  · have hignore := (follows_optionally follows_readIgnore v "ignore").map
      fun ignore => Settings.mk ((v.member? "rules").map heldRules) (ignore.getD [])
    have hall : Follows (do
          let overrides ← optionally readRules (v.member? "rules")
          let ignore ← optionally readIgnore (v.member? "ignore")
          pure { overrides, ignore := ignore.getD [] })
        _ (held v) :=
      (follows_optionally follows_readRules v "rules").bind fun _ => hignore
    obtain ⟨members, rfl⟩ := hrecord
    exact hall

end Settings

end DisposalAudit
