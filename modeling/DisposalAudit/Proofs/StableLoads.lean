import DisposalAudit.Proofs.SessionHistory

/-!
# Loads that stay as they are

A load leaves nothing open in its modules, so whatever a session does
afterwards finds nothing in them to write to. Facts about bodies are kept
when they are first asked for, possibly before a load has written into the
body, but they do not depend on what a load writes. Both are true behind
every history, and together they make a run over a load a matter of the load
alone: it yields the same at every later point.

## Main definitions

* `Session.Coherent` — kept facts are right, and loaded modules are settled.

## Main results

* `Session.Coherent.perform`, `Session.coherent_after` — every step keeps a
  session coherent.
* `Session.runAt_eq_run` — what is kept does not show in a run.
* `Session.run_stable` — a run over a load, now and later.
-/

namespace DisposalAudit

/-! ## Runs and kept facts -/

/-- Facts that are right of every method make no difference to a run. -/
theorem Codebase.runWith_eq_run {c : Codebase} {facts : FactSource}
    (h : ∀ place a type m, c.modules[place.module]? = some a → a.types[place.type]? = some type →
      type.methods[place.method]? = some m → facts place m = m.facts)
    (rules : List Rule) (settings : Settings) :
    c.runWith facts rules settings = c.run rules settings := by
  have hsections : (c.modules.zipIdx.map fun entry =>
      (entry.1, entry.1.trials rules c.context facts entry.2)) =
        c.modules.zipIdx.map fun entry =>
          (entry.1, entry.1.trials rules c.context (fun _ m => m.facts) entry.2) := by
    refine List.map_congr_left fun entry ha => ?_
    obtain ⟨a, i⟩ := entry
    rw [List.mem_zipIdx_iff_getElem?] at ha
    refine congrArg (Prod.mk a) ?_
    rw [Module.trials, Module.trials]
    refine List.flatMap_congr fun entry htype => ?_
    obtain ⟨type, j⟩ := entry
    rw [List.mem_zipIdx_iff_getElem?] at htype
    refine List.flatMap_congr fun entry hm => ?_
    obtain ⟨m, k⟩ := entry
    rw [List.mem_zipIdx_iff_getElem?] at hm
    have hfacts := h ⟨i, j, k⟩ a type m ha htype hm
    show rules.map (Trial.of c.context (facts ⟨i, j, k⟩ m) m) = _
    rw [hfacts]
  rw [run, runWith, runWith]
  simp only [hsections]

namespace Session

/-! ## Coherent sessions -/

/-- What every history keeps true of a session. -/
structure Coherent (s : Session) : Prop where
  /-- Facts that are kept are the facts about the method as it is. -/
  known : ∀ entry ∈ s.known, ∃ m, s.method? entry.1 = some m ∧ entry.2 = m.facts
  /-- The modules of a load are there, and have nothing left to settle. -/
  loads : ∀ load ∈ s.loads, ∀ position ∈ load.2,
    ∃ a, s.modules[position]? = some a ∧ a.IsSettled

/-- The facts that a coherent session gives about a method are right. -/
theorem Coherent.facts_eq {s : Session} (h : s.Coherent) {place : MethodPlace} {m : Method}
    (hm : s.method? place = some m) : s.facts place m = m.facts := by
  rw [facts]
  cases hlookup : s.known.lookup place with
  | none => rfl
  | some facts =>
      obtain ⟨m', hm', hfacts⟩ := h.known _ (mem_of_lookup_eq_some hlookup)
      obtain rfl : m = m' := Option.some.inj (hm.symm.trans hm')
      exact hfacts

/-- A settled module is left as it is by every step. -/
theorem getElem?_modules_perform {s : Session} {position : Nat} {a : Module}
    (ha : s.modules[position]? = some a) (hsettled : a.IsSettled) (step : Step) :
    (s.perform step).modules[position]? = some a := by
  have hlt : position < (settledModules s.modules (s.loaded? step)).length := by
    rw [settledModules, List.length_mapIdx]
    exact (List.getElem?_eq_some_iff.1 ha).1
  rw [modules_perform, List.getElem?_append_left hlt, settledModules, List.getElem?_mapIdx, ha,
    Option.map_some, hsettled]

/-- The modules of a load have nothing left to settle. -/
theorem isSettled_loadAt {s : Session} {positions : List Nat}
    (hthere : s.canLoad positions = true) (name : String) :
    ∀ position ∈ positions,
      ∃ a, (s.loadAt name positions).2.modules[position]? = some a ∧ a.IsSettled := by
  intro position hmem
  have hlt := canLoad_iff.1 hthere position hmem
  rw [getElem?_modules_loadAt hthere, codebaseFor?_of_mem hmem, List.getElem?_eq_getElem hlt]
  exact ⟨_, rfl, Module.isSettled_mapRefs _ _⟩

/-- Methods are still there behind a step, with the same facts. -/
theorem method?_perform {s : Session} {place : MethodPlace} {m : Method}
    (hm : s.method? place = some m) (step : Step) :
    ∃ m', (s.perform step).method? place = some m' ∧ m'.facts = m.facts := by
  have hlt : place.module < (settledModules s.modules (s.loaded? step)).length := by
    rw [settledModules, List.length_mapIdx]
    by_contra hge
    have hnone : s.modules[place.module]? = none := List.getElem?_eq_none (by omega)
    rw [method?, hnone] at hm
    cases hm
  have hmodules : (s.perform step).modules[place.module]? =
      (s.modules[place.module]?).map (Module.mapRefs
        (MethodRef.settledBy (codebaseFor? (s.loaded? step) place.module))) := by
    rw [modules_perform, List.getElem?_append_left hlt, settledModules, List.getElem?_mapIdx]
  exact ⟨_, by rw [method?_of_modules hmodules, hm, Option.map_some], m.facts_mapRefs _⟩

/-- Every step keeps a session coherent. -/
theorem Coherent.perform {s : Session} (h : s.Coherent) (step : Step) :
    (s.perform step).Coherent := by
  have hkept : ∀ entry ∈ s.known,
      ∃ m, (s.perform step).method? entry.1 = some m ∧ entry.2 = m.facts := by
    intro entry hentry
    obtain ⟨m, hm, hfacts⟩ := h.known entry hentry
    obtain ⟨m', hm', hsame⟩ := method?_perform hm step
    exact ⟨m', hm', hfacts.trans hsame.symm⟩
  have hloaded : ∀ load ∈ s.loads, ∀ position ∈ load.2,
      ∃ a, (s.perform step).modules[position]? = some a ∧ a.IsSettled := by
    intro load hload position hmem
    obtain ⟨a, ha, hsettled⟩ := h.loads load hload position hmem
    exact ⟨a, getElem?_modules_perform ha hsettled step, hsettled⟩
  rcases s.perform_cases step with
    ⟨name, source, value, m, rfl, -, hperform⟩ | ⟨name, positions, rfl, hthere, hperform⟩ |
    ⟨-, -, hquiet⟩
  · refine ⟨fun entry hentry => hkept entry ?_, fun load hload => hloaded load ?_⟩
    · rwa [hperform] at hentry
    · rwa [hperform] at hload
  · refine ⟨fun entry hentry => hkept entry ?_, fun load hload => ?_⟩
    · rwa [hperform] at hentry
    · -- the load of the step, or one before it
      rw [hperform] at hload
      rcases List.mem_cons.1 hload with rfl | hbefore
      · rw [hperform]
        exact isSettled_loadAt hthere name
      · exact hloaded load hbefore
  · refine ⟨fun entry hentry => ?_, fun load hload => hloaded load ?_⟩
    · rcases hquiet.known entry hentry with hknown | ⟨m, hm, hfacts⟩
      · exact hkept entry hknown
      · obtain ⟨m', hm', hsame⟩ := method?_perform hm step
        exact ⟨m', hm', hfacts.trans hsame.symm⟩
    · rwa [hquiet.loads] at hload

theorem coherent_after (history : List Step) : (after history).Coherent := by
  induction history using List.reverseRecOn with
  | nil =>
      exact ⟨fun _ h => absurd h List.not_mem_nil, fun _ h => absurd h List.not_mem_nil⟩
  | append_singleton history step ih =>
      rw [after_concat]
      exact ih.perform step

/-! ## Runs over loads -/

/-- A codebase has the modules at its positions in their order. -/
theorem getElem?_modules_codebaseAt {s : Session} {positions : List Nat}
    (hthere : ∀ p ∈ positions, p < s.modules.length) (index : Nat) :
    (s.codebaseAt positions).modules[index]? = (positions[index]?).bind (s.modules[·]?) := by
  have hmap : positions.filterMap (s.modules[·]?) =
      positions.map fun p => s.modules[p]?.getD default := by
    refine List.filterMap_eq_map_iff_forall_eq_some.2 fun p hp => ?_
    rw [List.getElem?_eq_getElem (hthere p hp), Option.getD_some]
  rw [codebaseAt, hmap, List.getElem?_map]
  cases hposition : positions[index]? with
  | none => rfl
  | some p =>
      have hlt := hthere p (List.mem_of_getElem? hposition)
      rw [Option.map_some, Option.bind_some, List.getElem?_eq_getElem hlt, Option.getD_some]

/-- Facts that have been kept do not show in a run. -/
theorem runAt_eq_run {s : Session} (h : s.Coherent) {positions : List Nat}
    (hthere : ∀ p ∈ positions, p < s.modules.length) (rules : List Rule) (settings : Settings)
    (collector : Option String) :
    (s.runAt positions rules settings collector).1 =
      (s.codebaseAt positions).run rules settings := by
  refine Codebase.runWith_eq_run (fun place a type m ha htype hm => ?_) rules settings
  rw [getElem?_modules_codebaseAt hthere] at ha
  obtain ⟨position, hposition, hmodule⟩ := Option.bind_eq_some_iff.1 ha
  have hmethod : s.method? ⟨position, place.type, place.method⟩ = some m := by
    simp only [method?, hmodule, htype, hm, Option.bind_eq_bind, Option.bind_some]
  rw [factsAt, List.getD_eq_getElem?_getD, hposition, Option.getD_some]
  exact h.facts_eq hmethod

/-- A load stands for the same modules behind every later history. -/
theorem codebaseAt_foldl_perform {positions : List Nat} (later : List Step) :
    ∀ s : Session,
      (∀ position ∈ positions, ∃ a, s.modules[position]? = some a ∧ a.IsSettled) →
        (later.foldl perform s).codebaseAt positions = s.codebaseAt positions := by
  induction later with
  | nil => exact fun _ _ => rfl
  | cons step rest ih =>
      intro s hsettled
      have hstep : ∀ position ∈ positions,
          (s.perform step).modules[position]? = s.modules[position]? := by
        intro position hmem
        obtain ⟨a, ha, hdone⟩ := hsettled position hmem
        rw [ha, getElem?_modules_perform ha hdone]
      have hsame : (s.perform step).codebaseAt positions = s.codebaseAt positions := by
        rw [codebaseAt, codebaseAt, List.filterMap_congr hstep]
      rw [List.foldl_cons, ih, hsame]
      intro position hmem
      obtain ⟨a, ha, hdone⟩ := hsettled position hmem
      exact ⟨a, by rw [hstep position hmem, ha], hdone⟩

/--
**Loads are stable.** What any rules find in a load under any settings, with
all counts and the log, is the same at every later point of the session,
whatever happens in between and whoever listens.
-/
theorem run_stable (before later : List Step) {name : String} {positions : List Nat}
    (hload : (name, positions) ∈ (after before).loads) (rules : List Rule) (settings : Settings)
    (collector laterCollector : Option String) :
    ((after (before ++ later)).runAt positions rules settings laterCollector).1 =
      ((after before).runAt positions rules settings collector).1 := by
  have hsettled := (coherent_after before).loads _ hload
  have hcodebase : (after (before ++ later)).codebaseAt positions =
      (after before).codebaseAt positions := by
    rw [after_append]
    exact codebaseAt_foldl_perform later _ hsettled
  have hthere : ∀ p ∈ positions, p < (after before).modules.length := by
    intro p hp
    obtain ⟨a, ha, -⟩ := hsettled p hp
    exact (List.getElem?_eq_some_iff.1 ha).1
  have hlater : ∀ p ∈ positions, p < (after (before ++ later)).modules.length := by
    intro p hp
    have hlt := hthere p hp
    rw [length_modules_after] at hlt ⊢
    rw [dumpsOf, List.filterMap_append, List.length_append]
    exact Nat.lt_add_right _ hlt
  rw [runAt_eq_run (coherent_after _) hlater, runAt_eq_run (coherent_after _) hthere, hcodebase]

/-- A door that is loaded alone stays one whose tools are not known, also when
it is loaded with them later. -/
theorem run_stable_door :
    ("alone", [0]) ∈ (after [.decode "door" "door.json" doorDump,
        .decode "tools" "tools.json" toolsDump, .load "alone" [0]]).loads ∧
      ((after ([.decode "door" "door.json" doorDump, .decode "tools" "tools.json" toolsDump,
          .load "alone" [0]] ++ [.load "both" [0, 1], .summarize ⟨0, 0, 0⟩, .verbose true])).runAt
        [0] (registeredRules none) .none none).1 =
      ((after [.decode "door" "door.json" doorDump, .decode "tools" "tools.json" toolsDump,
          .load "alone" [0]]).runAt [0] (registeredRules none) .none none).1 := by
  have hload : ("alone", [0]) ∈ (after [.decode "door" "door.json" doorDump,
      .decode "tools" "tools.json" toolsDump, .load "alone" [0]]).loads := by
    decide +kernel
  exact ⟨hload, run_stable _ _ hload (registeredRules none) .none none none⟩

end Session

end DisposalAudit
