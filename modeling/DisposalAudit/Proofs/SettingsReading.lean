import DisposalAudit.Proofs.SettingsChecks
import Mathlib.Data.List.Forall2

/-!
# Reading settings

The checks of a reader are in an order; what is accepted is not. A value is
accepted if every part of it that settings know is of its documented kind,
and then nothing of these parts is lost or changed: absent members stay
absent, empty criteria stay empty, and lists keep their order.

## Main definitions

* `Settings.Documented` — the values that settings are read from.
* `Settings.IsHeldBy` — the settings that a value holds.
* `GuardOptions.IsOverriddenBy` — the standard options with the given ones
  in their place.

## Main results

* `Settings.checks_hold_iff` — all checks hold of the documented values.
* `Settings.Documented.isHeldBy` — what is read of a documented value.
* `Settings.Documented.ofValue_toValue` — written settings are read again.
* `Settings.ofValue_reads` — what is accepted, what is held, which error.
-/

namespace DisposalAudit

/-! ## Documented values -/

namespace Settings

/-- Options of the guard rule: no unknown ones, names that are not blank, and
a list of at least one fragment. -/
structure DocumentedGuard (options : Value) : Prop where
  isRecord : ∃ members, options = .record members ∧ ∀ member ∈ members, member.1 ∈ optionNames
  names : ∀ field ∈ ["lifecycleInterface", "guardException", "disposeMethod"],
    ∀ value ∈ options.member? field, value.IsName
  fragments : ∀ value ∈ options.member? "helperNameFragments",
    ∃ parts, value = .list parts ∧ parts ≠ [] ∧ ∀ part ∈ parts, part.IsName

/-- An ignore rule: criteria that are texts, one of them not empty, and a
reason. -/
structure DocumentedEntry (entry : Value) : Prop where
  isRecord : entry.IsRecord
  texts : ∀ field ∈ criteria, ∀ value ∈ entry.member? field, value.IsText
  criterion : ∃ field ∈ criteria, ∃ s, entry.member? field = some (.text s) ∧ s ≠ ""
  reason : ∃ s, entry.member? "reason" = some (.text s) ∧ 10 ≤ Text.width (Text.trim s)

/-- Settings: options of the guard rule and ignore rules, both of them if
they are there. -/
structure Documented (v : Value) : Prop where
  isRecord : v.IsRecord
  rules : ∀ rules ∈ v.member? "rules", rules.IsRecord ∧
    ∀ options ∈ rules.member? disposedGuardId, DocumentedGuard options
  ignore : ∀ ignore ∈ v.member? "ignore",
    ∃ entries, ignore = .list entries ∧ ∀ entry ∈ entries, DocumentedEntry entry

/-! ## The checks, without their order -/

theorem forall_onMember_iff {v : Value} {name : String} {checks : Value → List SettingsCheck} :
    (∀ check ∈ onMember v name checks, check.holds) ↔
      ∀ value ∈ v.member? name, ∀ check ∈ checks value, check.holds := by
  rw [onMember]
  cases v.member? name <;> simp

theorem forall_nameChecks_iff {field : String} {value : Value} :
    (∀ check ∈ nameChecks field value, check.holds) ↔ value.IsName := by
  simp [nameChecks]

theorem forall_fragmentsChecks_iff {value : Value} :
    (∀ check ∈ fragmentsChecks value, check.holds) ↔
      ∃ parts, value = .list parts ∧ parts ≠ [] ∧ ∀ part ∈ parts, part.IsName := by
  rw [fragmentsChecks, List.forall_mem_cons]
  simp only [List.mem_flatMap, forall_exists_index, and_imp]
  constructor
  · rintro ⟨⟨first, rest, rfl⟩, hparts⟩
    exact ⟨_, rfl, List.cons_ne_nil _ _,
      fun part hpart => forall_nameChecks_iff.1 fun check => hparts check part hpart⟩
  · rintro ⟨parts, rfl, hne, hparts⟩
    obtain ⟨first, rest, rfl⟩ := List.exists_cons_of_ne_nil hne
    exact ⟨⟨first, rest, rfl⟩,
      fun check part hpart => forall_nameChecks_iff.2 (hparts part hpart) check⟩

theorem forall_guardChecks_iff {options : Value} :
    (∀ check ∈ guardChecks options, check.holds) ↔ DocumentedGuard options := by
  simp only [guardChecks, List.forall_mem_cons, List.forall_mem_append, forall_onMember_iff,
    forall_nameChecks_iff, forall_fragmentsChecks_iff, List.forall_mem_map]
  constructor
  · rintro ⟨⟨members, rfl⟩, hknown, hlifecycle, hguard, hdispose, hfragments⟩
    refine ⟨⟨members, rfl, fun member hmember => ?_⟩, ?_, hfragments⟩
    · exact hknown member.1 (List.mem_map_of_mem (Members.mem_listing.2 hmember))
    · simp only [List.forall_mem_cons]
      exact ⟨hlifecycle, hguard, hdispose, by simp⟩
  · rintro ⟨⟨members, rfl, hknown⟩, hnames, hfragments⟩
    simp only [List.forall_mem_cons] at hnames
    obtain ⟨hlifecycle, hguard, hdispose, -⟩ := hnames
    refine ⟨⟨members, rfl⟩, fun name hname => ?_, hlifecycle, hguard, hdispose, hfragments⟩
    obtain ⟨member, hmember, rfl⟩ := List.mem_map.1 hname
    exact hknown member (Members.mem_listing.1 hmember)

theorem forall_criterionChecks_iff {index : Nat} {entry : Value} {field : String} :
    (∀ check ∈ criterionChecks index entry field, check.holds) ↔
      ∀ value ∈ entry.member? field, value.IsText := by
  simp [criterionChecks, forall_onMember_iff]

theorem forall_entryChecks_iff {index : Nat} {entry : Value} :
    (∀ check ∈ entryChecks index entry, check.holds) ↔ DocumentedEntry entry := by
  simp only [entryChecks, reasonChecks, List.forall_mem_cons, List.forall_mem_append,
    forall_criterionChecks_iff]
  constructor
  · rintro ⟨hrecord, htype, hmethod, hrule, hcriterion, ⟨s, hs, -⟩, hlong, -⟩
    refine ⟨hrecord, ?_, hcriterion, s, hs, hlong s hs⟩
    simp only [criteria, List.forall_mem_cons]
    exact ⟨htype, hmethod, hrule, by simp⟩
  · rintro ⟨hrecord, htexts, hcriterion, s, hs, hlong⟩
    simp only [criteria, List.forall_mem_cons] at htexts
    obtain ⟨htype, hmethod, hrule, -⟩ := htexts
    refine ⟨hrecord, htype, hmethod, hrule, hcriterion, ⟨s, hs, ?_⟩, ?_, by simp⟩
    · rintro rfl
      exact absurd hlong (by decide)
    · intro s' hs'
      rw [hs] at hs'
      cases hs'
      exact hlong

theorem forall_ignoreChecks_iff {ignore : Value} :
    (∀ check ∈ ignoreChecks ignore, check.holds) ↔
      ∃ entries, ignore = .list entries ∧ ∀ entry ∈ entries, DocumentedEntry entry := by
  rw [ignoreChecks, List.forall_mem_cons]
  simp only [List.mem_flatMap, forall_exists_index, and_imp, Prod.forall]
  constructor
  · rintro ⟨⟨entries, rfl⟩, hentries⟩
    refine ⟨entries, rfl, fun entry hentry => ?_⟩
    obtain ⟨i, hi⟩ := List.mem_iff_getElem?.1 hentry
    exact forall_entryChecks_iff.1 fun check =>
      hentries check entry i (List.mk_mem_zipIdx_iff_getElem?.2 hi)
  · rintro ⟨entries, rfl, hentries⟩
    refine ⟨⟨entries, rfl⟩, fun check entry i hentry => ?_⟩
    exact forall_entryChecks_iff.2
      (hentries entry (List.mem_of_getElem? (List.mk_mem_zipIdx_iff_getElem?.1 hentry))) check

/-- All checks hold of the documented values. -/
theorem checks_hold_iff {v : Value} :
    (∀ check ∈ checks v, check.holds) ↔ Documented v := by
  simp only [checks, rulesChecks, List.forall_mem_cons, List.forall_mem_append,
    forall_onMember_iff, forall_guardChecks_iff, forall_ignoreChecks_iff]
  exact ⟨fun h => ⟨h.1, h.2.1, h.2.2⟩, fun h => ⟨h.isRecord, h.rules, h.ignore⟩⟩

end Settings

/-! ## What a value holds -/

/-- The overrides that options hold: each option as it is written, and no
other. -/
structure GuardOverrides.IsHeldBy (overrides : GuardOverrides) (options : Value) : Prop where
  lifecycleInterface :
    options.member? "lifecycleInterface" = overrides.lifecycleInterface.map .text
  guardException : options.member? "guardException" = overrides.guardException.map .text
  disposeMethod : options.member? "disposeMethod" = overrides.disposeMethod.map .text
  helperNameFragments : options.member? "helperNameFragments" =
    overrides.helperNameFragments.map fun parts => .list (parts.map .text)

/-- The overrides by rule that a value holds. -/
def RuleOverrides.IsHeldBy (overrides : RuleOverrides) (rules : Value) : Prop :=
  Option.Rel GuardOverrides.IsHeldBy overrides.disposedGuard (rules.member? disposedGuardId)

/-- The ignore rule that a value holds. -/
structure IgnoreRule.IsHeldBy (ignore : IgnoreRule) (entry : Value) : Prop where
  type : entry.member? "type" = ignore.type.map .text
  method : entry.member? "method" = ignore.method.map .text
  rule : entry.member? "rule" = ignore.rule.map .text
  reason : entry.member? "reason" = some (.text ignore.reason)

/-- The settings that a value holds. Without a list of ignore rules there
are none. -/
structure Settings.IsHeldBy (settings : Settings) (v : Value) : Prop where
  overrides : Option.Rel RuleOverrides.IsHeldBy settings.overrides (v.member? "rules")
  ignore : List.Forall₂ IgnoreRule.IsHeldBy settings.ignore
    (((v.member? "ignore").map Value.entries).getD [])

namespace Settings

/-- A member that is a text is the text that it is taken for. -/
theorem member_eq_text {part : Option Value} (h : ∀ value ∈ part, value.IsText) :
    part = (part.map Value.textOrEmpty).map .text := by
  cases part with
  | none => rfl
  | some value =>
      obtain ⟨s, rfl⟩ := h value rfl
      rfl

theorem DocumentedGuard.isHeldBy {options : Value} (h : DocumentedGuard options) :
    (heldGuard options).IsHeldBy options := by
  have hname : ∀ field ∈ ["lifecycleInterface", "guardException", "disposeMethod"],
      options.member? field = ((options.member? field).map Value.textOrEmpty).map .text := by
    intro field hfield
    refine member_eq_text fun value hvalue => ?_
    obtain ⟨s, hs, -⟩ := h.names field hfield value hvalue
    exact ⟨s, hs⟩
  refine ⟨hname _ (by simp), hname _ (by simp), hname _ (by simp), ?_⟩
  rw [heldGuard, Option.map_map]
  cases hparts : options.member? "helperNameFragments" with
  | none => rfl
  | some value =>
      obtain ⟨parts, rfl, -, hnames⟩ := h.fragments value hparts
      have htexts : (parts.map Value.textOrEmpty).map Value.text = parts := by
        rw [List.map_map]
        refine (List.map_congr_left fun part hpart => ?_).trans (List.map_id parts)
        obtain ⟨s, rfl, -⟩ := hnames part hpart
        rfl
      simp [Value.entries, htexts]

theorem DocumentedEntry.isHeldBy {entry : Value} (h : DocumentedEntry entry) :
    (heldEntry entry).IsHeldBy entry := by
  obtain ⟨s, hs, -⟩ := h.reason
  refine ⟨member_eq_text (h.texts _ (by decide)), member_eq_text (h.texts _ (by decide)),
    member_eq_text (h.texts _ (by decide)), ?_⟩
  rw [heldEntry, hs]
  rfl

theorem Documented.isHeldBy {v : Value} (h : Documented v) : (held v).IsHeldBy v where
  overrides := by
    rw [held]
    cases hrules : v.member? "rules" with
    | none => exact .none
    | some rules =>
        refine .some ?_
        rw [RuleOverrides.IsHeldBy, heldRules]
        cases hoptions : rules.member? disposedGuardId with
        | none => exact .none
        | some options => exact .some ((h.rules rules hrules).2 options hoptions).isHeldBy
  ignore := by
    rw [held]
    cases hignore : v.member? "ignore" with
    | none => exact .nil
    | some ignore =>
        obtain ⟨entries, rfl, hentries⟩ := h.ignore ignore hignore
        show List.Forall₂ _ (entries.map heldEntry) entries
        rw [List.forall₂_map_left_iff, List.forall₂_same]
        exact fun entry hentry => (hentries entry hentry).isHeldBy

end Settings

/-! ## Writing and reading again -/

theorem Settings.get?_member? (name other : String) (value : Option Value) :
    Members.get? (member? name value) other = if name = other then value else .none := by
  cases value <;> simp [member?, Members.get?]

/-- Overrides that are written hold what was written. -/
theorem GuardOverrides.isHeldBy_toValue (overrides : GuardOverrides) :
    overrides.IsHeldBy overrides.toValue := by
  constructor <;>
    simp [GuardOverrides.toValue, Value.member?, Members.get?_append, Settings.get?_member?]

theorem IgnoreRule.isHeldBy_toValue (ignore : IgnoreRule) : ignore.IsHeldBy ignore.toValue := by
  constructor <;>
    simp [IgnoreRule.toValue, Value.member?, Members.get?_append, Settings.get?_member?,
      Members.get?]

namespace Settings

theorem member?_rules_toValue (settings : Settings) :
    settings.toValue.member? "rules" = settings.overrides.map fun overrides =>
      .record (member? disposedGuardId (overrides.disposedGuard.map GuardOverrides.toValue)) := by
  simp [toValue, Value.member?, Members.get?_append, get?_member?, Members.get?]

theorem member?_ignore_toValue (settings : Settings) :
    settings.toValue.member? "ignore" =
      some (.list (settings.ignore.map IgnoreRule.toValue)) := by
  simp [toValue, Value.member?, Members.get?_append, get?_member?, Members.get?]

theorem heldGuard_of_isHeldBy {overrides : GuardOverrides} {options : Value}
    (h : overrides.IsHeldBy options) : heldGuard options = overrides := by
  obtain ⟨hlifecycle, hguard, hdispose, hfragments⟩ := h
  rw [heldGuard, hlifecycle, hguard, hdispose, hfragments]
  cases overrides
  simp [Value.textOrEmpty, Value.entries, Function.comp_def]

theorem heldEntry_of_isHeldBy {ignore : IgnoreRule} {entry : Value}
    (h : ignore.IsHeldBy entry) : heldEntry entry = ignore := by
  obtain ⟨htype, hmethod, hrule, hreason⟩ := h
  rw [heldEntry, htype, hmethod, hrule, hreason]
  cases ignore
  simp [Value.textOrEmpty, Function.comp_def]

/-- What is related by undoing a function is got back by it. -/
theorem map_eq_of_rel {α β : Type} {related : α → β → Prop} {f : β → α} {a : Option α}
    {b : Option β} (h : Option.Rel related a b) (hf : ∀ x y, related x y → f y = x) :
    b.map f = a := by
  cases h with
  | some hxy => rw [Option.map_some, hf _ _ hxy]
  | none => rfl

theorem heldRules_of_isHeldBy {overrides : RuleOverrides} {rules : Value}
    (h : overrides.IsHeldBy rules) : heldRules rules = overrides := by
  rw [heldRules, map_eq_of_rel h fun _ _ => heldGuard_of_isHeldBy]

/-- The settings that a value holds are those that are read of it. -/
theorem held_of_isHeldBy {settings : Settings} {v : Value} (h : settings.IsHeldBy v) :
    held v = settings := by
  have hentries : settings.ignore =
      (((v.member? "ignore").map Value.entries).getD []).map heldEntry := by
    rw [← List.forall₂_eq_eq_eq, List.forall₂_map_right_iff]
    exact h.ignore.imp fun _ _ hentry => (heldEntry_of_isHeldBy hentry).symm
  have hignore : ((v.member? "ignore").map fun ignore => ignore.entries.map heldEntry).getD [] =
      settings.ignore := by
    rw [hentries]
    cases v.member? "ignore" <;> rfl
  rw [held, map_eq_of_rel h.overrides fun _ _ => heldRules_of_isHeldBy, hignore]

theorem isHeldBy_toValue (settings : Settings) : settings.IsHeldBy settings.toValue where
  overrides := by
    rw [member?_rules_toValue]
    cases settings.overrides with
    | none => exact .none
    | some overrides =>
        refine .some ?_
        rw [RuleOverrides.IsHeldBy, Value.member?, get?_member?, if_pos rfl]
        cases overrides.disposedGuard with
        | none => exact .none
        | some guard => exact .some guard.isHeldBy_toValue
  ignore := by
    rw [member?_ignore_toValue]
    show List.Forall₂ _ settings.ignore (settings.ignore.map IgnoreRule.toValue)
    rw [List.forall₂_map_right_iff, List.forall₂_same]
    exact fun ignore _ => ignore.isHeldBy_toValue

theorem fst_eq_of_mem_member? {name : String} {value : Option Value} {member : String × Value}
    (h : member ∈ member? name value) : member.1 = name := by
  obtain ⟨_, -, rfl⟩ := List.mem_map.1 h
  rfl

/-- What is read of documented options is documented when it is written. -/
theorem DocumentedGuard.toValue {options : Value} (h : DocumentedGuard options) :
    DocumentedGuard (heldGuard options).toValue := by
  have hheld := h.isHeldBy
  have hwritten := (heldGuard options).isHeldBy_toValue
  have hnames : ∀ field ∈ ["lifecycleInterface", "guardException", "disposeMethod"],
      (heldGuard options).toValue.member? field = options.member? field := by
    simp only [List.forall_mem_cons]
    exact ⟨hwritten.lifecycleInterface.trans hheld.lifecycleInterface.symm,
      hwritten.guardException.trans hheld.guardException.symm,
      hwritten.disposeMethod.trans hheld.disposeMethod.symm, by simp⟩
  refine ⟨⟨_, rfl, fun member hmember => ?_⟩, fun field hfield => ?_, ?_⟩
  · simp only [List.mem_append, or_assoc] at hmember
    rcases hmember with h | h | h | h <;> rw [fst_eq_of_mem_member? h] <;> decide
  · rw [hnames field hfield]
    exact h.names field hfield
  · rw [hwritten.helperNameFragments, ← hheld.helperNameFragments]
    exact h.fragments

theorem DocumentedEntry.toValue {entry : Value} (h : DocumentedEntry entry) :
    DocumentedEntry (heldEntry entry).toValue := by
  have hheld := h.isHeldBy
  have hwritten := (heldEntry entry).isHeldBy_toValue
  have hcriteria : ∀ field ∈ criteria,
      (heldEntry entry).toValue.member? field = entry.member? field := by
    simp only [criteria, List.forall_mem_cons]
    exact ⟨hwritten.type.trans hheld.type.symm, hwritten.method.trans hheld.method.symm,
      hwritten.rule.trans hheld.rule.symm, by simp⟩
  refine ⟨⟨_, rfl⟩, fun field hfield => ?_, ?_, ?_⟩
  · rw [hcriteria field hfield]
    exact h.texts field hfield
  · obtain ⟨field, hfield, hsome⟩ := h.criterion
    exact ⟨field, hfield, (hcriteria field hfield).symm ▸ hsome⟩
  · rw [hwritten.reason, ← hheld.reason]
    exact h.reason

theorem Documented.toValue {v : Value} (h : Documented v) : Documented (held v).toValue where
  isRecord := ⟨_, rfl⟩
  rules := by
    intro written hwritten
    rw [member?_rules_toValue, held, Option.mem_def, Option.map_map] at hwritten
    obtain ⟨rules, hrules, rfl⟩ := Option.map_eq_some_iff.1 hwritten
    refine ⟨⟨_, rfl⟩, fun options hoptions => ?_⟩
    change Members.get? (member? disposedGuardId _) disposedGuardId = some options at hoptions
    rw [get?_member?, if_pos rfl, heldRules, Option.map_map] at hoptions
    obtain ⟨given, hgiven, rfl⟩ := Option.map_eq_some_iff.1 hoptions
    exact ((h.rules rules hrules).2 given hgiven).toValue
  ignore := by
    intro written hwritten
    rw [member?_ignore_toValue, held, Option.mem_some_iff] at hwritten
    subst hwritten
    refine ⟨_, rfl, ?_⟩
    rw [List.forall_mem_map]
    cases hignore : v.member? "ignore" with
    | none => simp
    | some ignore =>
        obtain ⟨entries, rfl, hentries⟩ := h.ignore ignore hignore
        show ∀ ignore ∈ entries.map heldEntry, _
        rw [List.forall_mem_map]
        exact fun entry hentry => (hentries entry hentry).toValue

/-- Settings that were read are read again as themselves. -/
theorem Documented.ofValue_toValue {v : Value} (h : Documented v) :
    ofValue (held v).toValue = .ok (held v) := by
  rw [(follows_ofValue _).ok (checks_hold_iff.2 h.toValue), held_of_isHeldBy (isHeldBy_toValue _)]

/-! ## The options of the rule -/

/-- What a value gives for an option of the guard rule. -/
def givenOption (v : Value) (name : String) : Option Value :=
  ((v.member? "rules").bind fun rules => rules.member? disposedGuardId).bind
    fun options => options.member? name

end Settings

/-- The standard options with those that a value gives in their place. -/
structure GuardOptions.IsOverriddenBy (options : GuardOptions) (v : Value) : Prop where
  lifecycleInterface : .text options.lifecycleInterface =
    (Settings.givenOption v "lifecycleInterface").getD (.text standard.lifecycleInterface)
  guardException : .text options.guardException =
    (Settings.givenOption v "guardException").getD (.text standard.guardException)
  disposeMethod : .text options.disposeMethod =
    (Settings.givenOption v "disposeMethod").getD (.text standard.disposeMethod)
  helperNameFragments : .list (options.helperNameFragments.map .text) =
    (Settings.givenOption v "helperNameFragments").getD
      (.list (standard.helperNameFragments.map .text))

namespace Settings

/-- An option is given if it is in the overrides that are applied; where there
are none, nothing is given. -/
theorem IsHeldBy.givenOption_eq {settings : Settings} {v : Value} (h : settings.IsHeldBy v)
    {name : String} {option : GuardOverrides → Option Value} (hnone : option .none = .none)
    (hoption : ∀ overrides options, overrides.IsHeldBy options →
      options.member? name = option overrides) :
    givenOption v name =
      option ((settings.overrides.bind RuleOverrides.disposedGuard).getD .none) := by
  obtain ⟨overrides, ignore⟩ := settings
  obtain ⟨hoverrides, -⟩ := h
  rw [givenOption]
  generalize v.member? "rules" = rules at hoverrides
  cases hoverrides with
  | none => exact hnone.symm
  | @some overrides rules hrules =>
      obtain ⟨guard⟩ := overrides
      rw [RuleOverrides.IsHeldBy] at hrules
      rw [Option.bind_some]
      generalize rules.member? disposedGuardId = options at hrules
      cases hrules with
      | none => exact hnone.symm
      | some hguard => exact hoption _ _ hguard

theorem IsHeldBy.isOverriddenBy {settings : Settings} {v : Value} (h : settings.IsHeldBy v) :
    ((settings.overrides.bind RuleOverrides.disposedGuard).getD .none).apply.IsOverriddenBy v where
  lifecycleInterface := by
    rw [h.givenOption_eq rfl fun _ _ hguard => hguard.lifecycleInterface, Option.getD_map]
    rfl
  guardException := by
    rw [h.givenOption_eq rfl fun _ _ hguard => hguard.guardException, Option.getD_map]
    rfl
  disposeMethod := by
    rw [h.givenOption_eq rfl fun _ _ hguard => hguard.disposeMethod, Option.getD_map]
    rfl
  helperNameFragments := by
    rw [h.givenOption_eq rfl fun _ _ hguard => hguard.helperNameFragments]
    exact (Option.getD_map (fun parts : List String => Value.list (parts.map .text)) _ _).symm

/-- **What settings are read from.** Exactly the documented values are
accepted. The settings hold the members that are known, as they are written
and in their order; written out they are read again as themselves; and the
one rule that is run has the standard options but for those that are given.
Of any other value the error is that of the first check that fails. -/
theorem ofValue_reads (v : Value) :
    ((∃ settings, ofValue v = .ok settings) ↔ Documented v) ∧
      (∀ settings, ofValue v = .ok settings →
        settings.IsHeldBy v ∧ ofValue settings.toValue = .ok settings ∧
          ∃ options, settings.rules = [disposedGuard options] ∧ options.IsOverriddenBy v) ∧
      ∀ e, ofValue v = .error e ↔ SettingsCheck.FirstFailure (checks v) e := by
  have hfollows := follows_ofValue v
  have haccepts : (∃ settings, ofValue v = .ok settings) ↔ Documented v :=
    hfollows.exists_ok_iff.trans checks_hold_iff
  refine ⟨haccepts, fun settings hok => ?_, hfollows.error_iff⟩
  have hdocumented := haccepts.1 ⟨settings, hok⟩
  obtain rfl := hfollows.eq_of_ok hok
  exact ⟨hdocumented.isHeldBy, hdocumented.ofValue_toValue, _, rfl,
    hdocumented.isHeldBy.isOverriddenBy⟩

end Settings

end DisposalAudit
