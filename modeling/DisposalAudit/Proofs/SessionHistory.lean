import DisposalAudit.Proofs.DumpShape
import DisposalAudit.Proofs.SettledCalls
import DisposalAudit.Session
import Mathlib.Data.List.Induction

/-!
# What a session has settled

Modules are shared by all the codebases that they are loaded into, and
loading writes into them. What a history leaves of a module can all the same
be read off two things: its dump, and the first load that it took part in.
Calls that the dump leaves open are settled by that load, for good, and
nothing else of a module ever changes.

What one step does to the modules is said once, by `Session.modules_perform`;
a history is followed from its end.

## Main definitions

* `Session.dumpsOf`, `Session.loadsOf` — the dumps that a history has decoded
  and the loads that it has made.
* `Session.firstLoad?` — the first codebase that a module is loaded into.
* `Session.reference?`, `Session.callAt?` — a reference as it is now, and as
  its dump wrote it.

## Main results

* `Session.modules_perform` — the modules behind a step.
* `Session.getElem?_modules_after` — the modules behind a history.
* `Session.hasThis_settled_once` — open calls are settled by the first load.
-/

namespace DisposalAudit

theorem mem_of_lookup_eq_some {α β : Type} [BEq α] [LawfulBEq α] {l : List (α × β)} {a : α}
    {b : β} (h : l.lookup a = some b) : (a, b) ∈ l := by
  obtain ⟨front, back, rfl, -⟩ := List.lookup_eq_some_iff.1 h
  exact List.mem_append_right front List.mem_cons_self

namespace Session

/-! ## Loads -/

theorem canLoad_iff {s : Session} {positions : List Nat} :
    s.canLoad positions = true ↔ ∀ p ∈ positions, p < s.modules.length := by
  simp [canLoad]

/-- The codebase of a load, if the module at a position takes part in it. -/
def codebaseFor? (load : Option (List Nat × Codebase)) (position : Nat) : Option Codebase :=
  (load.filter fun l => l.1.contains position).map Prod.snd

theorem codebaseFor?_of_mem {positions : List Nat} {position : Nat} (h : position ∈ positions)
    (c : Codebase) : codebaseFor? (some (positions, c)) position = some c := by
  simp [codebaseFor?, h]

theorem codebaseFor?_of_not_mem {positions : List Nat} {position : Nat}
    (h : position ∉ positions) (c : Codebase) :
    codebaseFor? (some (positions, c)) position = none := by
  simp [codebaseFor?, h]

/-- Writing at some positions is seen at those. -/
theorem getElem?_store_map (g : Nat → Module) (positions : List Nat) :
    ∀ (modules : List Module) (position : Nat),
      (store modules (positions.map fun p => (p, g p)))[position]? =
        if position ∈ positions then (modules[position]?).map fun _ => g position
        else modules[position]? := by
  induction positions with
  | nil =>
      intro modules position
      simp [store]
  | cons first rest ih =>
      intro modules position
      show (store (modules.set first (g first)) (rest.map fun p => (p, g p)))[position]? = _
      rw [ih, List.getElem?_set]
      by_cases hfirst : first = position
      · subst hfirst
        by_cases hlt : first < modules.length
        · simp [hlt]
        · simp [hlt]
      · simp [hfirst, Ne.symm hfirst]

/-- Positions that are all there meet their own modules. -/
theorem zip_filterMap_getElem? (modules : List Module) (h : Module → Module)
    (positions : List Nat) (hthere : ∀ p ∈ positions, p < modules.length) :
    positions.zip ((positions.filterMap (modules[·]?)).map h) =
      positions.map fun p => (p, h (modules[p]?.getD default)) := by
  induction positions with
  | nil => rfl
  | cons first rest ih =>
      have hfirst := List.getElem?_eq_getElem (hthere first List.mem_cons_self)
      have hrest := ih fun p hp => hthere p (List.mem_cons_of_mem first hp)
      rw [List.filterMap_cons_some hfirst, List.map_cons, List.zip_cons_cons, hrest, List.map_cons,
        hfirst, Option.getD_some]

/-- A load settles the modules that take part in it, and no others. -/
theorem getElem?_modules_loadAt {s : Session} {positions : List Nat}
    (hthere : s.canLoad positions = true) (name : String) (position : Nat) :
    (s.loadAt name positions).2.modules[position]? =
      (s.modules[position]?).map (Module.mapRefs (MethodRef.settledBy
        (codebaseFor? (some (positions, (s.loadAt name positions).1)) position))) := by
  have hzip := zip_filterMap_getElem? s.modules
    (Module.mapRefs (MethodRef.settledBy (some (s.codebaseAt positions).link))) positions
    (canLoad_iff.1 hthere)
  show (store s.modules (positions.zip (s.codebaseAt positions).link.modules))[position]? = _
  rw [Codebase.link_modules, codebaseAt]
  rw [codebaseAt] at hzip
  rw [hzip]
  refine Eq.trans (getElem?_store_map (fun p => Module.mapRefs _ (s.modules[p]?.getD default))
    positions s.modules position) ?_
  by_cases hmem : position ∈ positions
  · rw [if_pos hmem, codebaseFor?_of_mem hmem]
    cases s.modules[position]? <;> rfl
  · rw [if_neg hmem, codebaseFor?_of_not_mem hmem]
    cases s.modules[position]? with
    | none => rfl
    | some a => exact congrArg some (Module.mapRefs_id a).symm

/-! ## Steps -/

/-- The dump that a step decodes, with its source. -/
def dump? : Step → Option (String × ModuleDump)
  | .decode _ source value =>
    match Module.ofValue source value with
    | .ok _ => some (source, ModuleDump.ofValue value)
    | .error _ => none
  | _ => none

/-- The load that a step makes: the positions of the modules, and the
codebase. -/
def loaded? (s : Session) : Step → Option (List Nat × Codebase)
  | .load name positions =>
    if s.canLoad positions then some (positions, (s.loadAt name positions).1) else none
  | _ => none

/-- A session that is another one but for its collectors, its verbosity, and
facts about methods as the other one has them. -/
structure Quiet (s t : Session) : Prop where
  modules : t.modules = s.modules
  moduleNames : t.moduleNames = s.moduleNames
  loads : t.loads = s.loads
  known : ∀ entry ∈ t.known,
    entry ∈ s.known ∨ ∃ m, s.method? entry.1 = some m ∧ entry.2 = m.facts

theorem Quiet.refl (s : Session) : Quiet s s := ⟨rfl, rfl, rfl, fun _ h => .inl h⟩

theorem Quiet.trans {s t u : Session} (hst : Quiet s t) (htu : Quiet t u) : Quiet s u where
  modules := htu.modules.trans hst.modules
  moduleNames := htu.moduleNames.trans hst.moduleNames
  loads := htu.loads.trans hst.loads
  known := by
    intro entry hentry
    rcases htu.known entry hentry with hknown | ⟨m, hm, hfacts⟩
    · exact hst.known entry hknown
    · rw [method?, hst.modules] at hm
      exact .inr ⟨m, hm, hfacts⟩

theorem quiet_learn (s : Session) (place : MethodPlace) : Quiet s (s.learn place) := by
  unfold learn
  split
  · rename_i m _ hm
    refine ⟨rfl, rfl, rfl, fun entry hentry => ?_⟩
    rcases List.mem_cons.1 hentry with rfl | hknown
    · exact .inr ⟨m, hm, rfl⟩
    · exact .inl hknown
  · exact .refl s

theorem quiet_foldl_learn (places : List MethodPlace) :
    ∀ s : Session, Quiet s (places.foldl learn s) := by
  induction places with
  | nil => exact Quiet.refl
  | cons place rest ih =>
      intro s
      exact (quiet_learn s place).trans (ih _)

theorem quiet_collect (s : Session) (collector : Option String) (findings : List Finding) :
    Quiet s (s.collect collector findings) := by
  cases collector <;> exact ⟨rfl, rfl, rfl, fun _ h => .inl h⟩

/-- A step decodes a dump, or makes a load, or is quiet. -/
theorem perform_cases (s : Session) (step : Step) :
    (∃ name source value m, step = .decode name source value ∧
      Module.ofValue source value = .ok m ∧
      s.perform step = { s with
        modules := s.modules ++ [m], moduleNames := (name, s.modules.length) :: s.moduleNames }) ∨
    (∃ name positions, step = .load name positions ∧ s.canLoad positions = true ∧
      s.perform step = (s.loadAt name positions).2) ∨
    (dump? step = none ∧ s.loaded? step = none ∧ Quiet s (s.perform step)) := by
  cases step with
  | decode name source value =>
      cases hmodule : Module.ofValue source value with
      | ok m =>
          refine .inl ⟨name, source, value, m, rfl, hmodule, ?_⟩
          simp only [perform, decode, hmodule, Except.map]
      | error violations =>
          refine .inr (.inr ⟨?_, rfl, ?_⟩)
          · simp only [dump?, hmodule]
          · simp only [perform, decode, hmodule, Except.map]
            exact .refl s
  | load name positions =>
      by_cases hthere : s.canLoad positions = true
      · exact .inr (.inl ⟨name, positions, rfl, hthere, if_pos hthere⟩)
      · refine .inr (.inr ⟨rfl, if_neg hthere, ?_⟩)
        simp only [perform, if_neg hthere]
        exact .refl s
  | summarize place =>
      refine .inr (.inr ⟨rfl, rfl, ?_⟩)
      simp only [perform, summarize]
      cases s.method? place with
      | none => exact .refl s
      | some m => exact quiet_learn s place
  | trace place index =>
      refine .inr (.inr ⟨rfl, rfl, ?_⟩)
      simp only [perform, trace]
      cases s.method? place with
      | none => exact .refl s
      | some m => exact quiet_learn s place
  | check positions place rule collector =>
      refine .inr (.inr ⟨rfl, rfl, ?_⟩)
      simp only [perform, checkAt]
      cases s.method? place with
      | none => exact .refl s
      | some m => exact (quiet_learn s place).trans (quiet_collect _ collector _)
  | run positions rules settings collector =>
      exact .inr (.inr ⟨rfl, rfl, (quiet_foldl_learn _ s).trans (quiet_collect _ collector _)⟩)
  | report collector findings =>
      exact .inr (.inr ⟨rfl, rfl, quiet_collect s (some collector) findings⟩)
  | clear collector => exact .inr (.inr ⟨rfl, rfl, rfl, rfl, rfl, fun _ h => .inl h⟩)
  | verbose on => exact .inr (.inr ⟨rfl, rfl, rfl, rfl, rfl, fun _ h => .inl h⟩)

/-- The modules with what a load settles in them. -/
def settledModules (modules : List Module) (load : Option (List Nat × Codebase)) : List Module :=
  modules.mapIdx fun position a =>
    a.mapRefs (MethodRef.settledBy (codebaseFor? load position))

theorem settledModules_none (modules : List Module) : settledModules modules none = modules := by
  refine List.ext_getElem? fun position => ?_
  rw [settledModules, List.getElem?_mapIdx]
  cases modules[position]? with
  | none => rfl
  | some a => exact congrArg some (Module.mapRefs_id a)

/--
**One step.** A step settles the modules of the load that it makes, if it
makes one, and adds the module of the dump that it decodes, if it decodes
one. That is all that happens to modules.
-/
theorem modules_perform (s : Session) (step : Step) :
    (s.perform step).modules =
      settledModules s.modules (s.loaded? step) ++
        (dump? step).toList.map fun d => d.2.decode d.1 := by
  rcases s.perform_cases step with
    ⟨name, source, value, m, rfl, hmodule, hperform⟩ | ⟨name, positions, rfl, hthere, hperform⟩ |
    ⟨hdump, hload, hquiet⟩
  · obtain ⟨-, hm⟩ := Module.ofValue_eq_ok_iff.1 hmodule
    have hdump : dump? (.decode name source value) = some (source, ModuleDump.ofValue value) := by
      simp only [dump?, hmodule]
    have hload : s.loaded? (.decode name source value) = none := rfl
    rw [hperform, hdump, hload, settledModules_none, hm]
    rfl
  · have hload : s.loaded? (.load name positions) =
        some (positions, (s.loadAt name positions).1) := if_pos hthere
    have hdump : dump? (.load name positions) = none := rfl
    rw [hperform, hload, hdump, Option.toList_none, List.map_nil, List.append_nil]
    refine List.ext_getElem? fun position => ?_
    rw [getElem?_modules_loadAt hthere, settledModules, List.getElem?_mapIdx]
  · rw [hdump, hload, settledModules_none, hquiet.modules, Option.toList_none, List.map_nil,
      List.append_nil]

theorem length_modules_perform (s : Session) (step : Step) :
    (s.perform step).modules.length = s.modules.length + (dump? step).toList.length := by
  rw [modules_perform, List.length_append, settledModules, List.length_mapIdx, List.length_map]

/-! ## Histories -/

/-- The dumps that a history has decoded, in order. -/
def dumpsOf (history : List Step) : List (String × ModuleDump) := history.filterMap dump?

/-- The loads that some steps make from a session on, in order. -/
def loadsFrom (s : Session) : List Step → List (List Nat × Codebase)
  | [] => []
  | step :: rest => (s.loaded? step).toList ++ loadsFrom (s.perform step) rest

/-- The loads that a history has made, in order. -/
def loadsOf (history : List Step) : List (List Nat × Codebase) := loadsFrom empty history

/-- The codebase of the first load that the module at a position takes part
in. -/
def firstLoad? (history : List Step) (position : Nat) : Option Codebase :=
  ((loadsOf history).find? fun load => load.1.contains position).map Prod.snd

theorem after_append (history later : List Step) :
    after (history ++ later) = later.foldl perform (after history) :=
  List.foldl_append

theorem after_concat (history : List Step) (step : Step) :
    after (history ++ [step]) = (after history).perform step :=
  after_append history [step]

theorem dumpsOf_concat (history : List Step) (step : Step) :
    dumpsOf (history ++ [step]) = dumpsOf history ++ (dump? step).toList := by
  rw [dumpsOf, dumpsOf, List.filterMap_append]
  cases hdump : dump? step <;> simp [hdump]

theorem loadsFrom_append (history later : List Step) :
    ∀ s : Session, loadsFrom s (history ++ later) =
      loadsFrom s history ++ loadsFrom (history.foldl perform s) later := by
  induction history with
  | nil => exact fun s => rfl
  | cons step rest ih =>
      intro s
      rw [List.cons_append, loadsFrom, ih, loadsFrom, List.append_assoc, List.foldl_cons]

theorem firstLoad?_append (history later : List Step) (position : Nat) :
    firstLoad? (history ++ later) position =
      (firstLoad? history position).or
        (((loadsFrom (after history) later).find? fun load => load.1.contains position).map
          Prod.snd) := by
  rw [firstLoad?, loadsOf, loadsFrom_append, List.find?_append, Option.map_or]
  rfl

/-- The first load is the one of the history before, or that of the last
step. -/
theorem firstLoad?_concat (history : List Step) (step : Step) (position : Nat) :
    firstLoad? (history ++ [step]) position =
      (firstLoad? history position).or
        (codebaseFor? ((after history).loaded? step) position) := by
  rw [firstLoad?_append, loadsFrom, loadsFrom, List.append_nil]
  congr 1
  cases (after history).loaded? step with
  | none => rfl
  | some load =>
      rw [Option.toList_some, List.find?_singleton, codebaseFor?, Option.filter_some]

theorem firstLoad?_eq_none_iff {history : List Step} {position : Nat} :
    firstLoad? history position = none ↔ ∀ load ∈ loadsOf history, position ∉ load.1 := by
  simp [firstLoad?]

/-- A history keeps one module for each dump that it has decoded. -/
theorem length_modules_after (history : List Step) :
    (after history).modules.length = (dumpsOf history).length := by
  induction history using List.reverseRecOn with
  | nil => rfl
  | append_singleton history step ih =>
      rw [after_concat, length_modules_perform, ih, dumpsOf_concat, List.length_append]

/-- A module that is not there yet takes part in no load. -/
theorem codebaseFor?_loaded?_of_le {s : Session} {position : Nat}
    (hle : s.modules.length ≤ position) (step : Step) :
    codebaseFor? (s.loaded? step) position = none := by
  unfold loaded?
  split
  · rename_i name positions
    by_cases hthere : s.canLoad positions = true
    · have hmem : position ∉ positions := fun hmem => by
        have := canLoad_iff.1 hthere position hmem
        omega
      rw [if_pos hthere, codebaseFor?_of_not_mem hmem]
    · rw [if_neg hthere]
      rfl
  · rfl

theorem firstLoad?_eq_none_of_le {history : List Step} {position : Nat}
    (hle : (after history).modules.length ≤ position) : firstLoad? history position = none := by
  induction history using List.reverseRecOn with
  | nil => rfl
  | append_singleton history step ih =>
      have hbefore : (after history).modules.length ≤ position := by
        rw [after_concat, length_modules_perform] at hle
        omega
      rw [firstLoad?_concat, ih hbefore, Option.none_or, codebaseFor?_loaded?_of_le hbefore]

/--
**A history of modules.** Behind every history a module is what its dump
says, with the calls that the dump leaves open settled by the first load.
-/
theorem getElem?_modules_after (history : List Step) (position : Nat) :
    (after history).modules[position]? =
      ((dumpsOf history)[position]?).map fun d =>
        (d.2.decode d.1).mapRefs (MethodRef.settledBy (firstLoad? history position)) := by
  induction history using List.reverseRecOn with
  | nil => rfl
  | append_singleton history step ih =>
      have hlength : (settledModules (after history).modules
          ((after history).loaded? step)).length = (dumpsOf history).length := by
        rw [settledModules, List.length_mapIdx, length_modules_after]
      rw [after_concat, modules_perform, dumpsOf_concat, List.getElem?_append, List.getElem?_append,
        firstLoad?_concat, hlength]
      by_cases hold : position < (dumpsOf history).length
      · -- a module of the history before
        rw [if_pos hold, if_pos hold, settledModules, List.getElem?_mapIdx, ih]
        cases (dumpsOf history)[position]? with
        | none => rfl
        | some d => exact congrArg some (Module.mapRefs_settledBy_settledBy _ _ _)
      · -- the module that the step has decoded, which no load can have had before
        have hle : (after history).modules.length ≤ position := by
          rw [length_modules_after]
          omega
        rw [if_neg hold, if_neg hold, List.getElem?_map, firstLoad?_eq_none_of_le hle,
          codebaseFor?_loaded?_of_le hle]
        cases (dump? step).toList[position - (dumpsOf history).length]? with
        | none => rfl
        | some d => exact congrArg some (Module.mapRefs_id _).symm

/-! ## References -/

/-- An instruction of the method at a place, as it is now. -/
def instruction? (s : Session) (place : MethodPlace) (index : Nat) : Option Instruction :=
  (s.method? place).bind fun m => m.body[index]?

/-- The reference of an instruction, as it is now. -/
def reference? (s : Session) (place : MethodPlace) (index : Nat) : Option MethodRef :=
  (s.instruction? place index).bind fun ins => ins.operand.reference?

/-- The reference of an instruction, as the dump of its module wrote it. -/
def callAt? (history : List Step) (place : MethodPlace) (index : Nat) : Option CallDump :=
  ((dumpsOf history)[place.module]?).bind fun d =>
    (d.2.types[place.type]?).bind fun type =>
      (type.methods[place.method]?).bind fun m => (m.body[index]?).bind InstructionDump.method

section

variable {s t : Session} {place : MethodPlace} {f : MethodRef → MethodRef}

/-- What happens to the references of a module happens to those of its
methods. -/
theorem method?_of_modules
    (h : t.modules[place.module]? = (s.modules[place.module]?).map (Module.mapRefs f)) :
    t.method? place = (s.method? place).map (Method.mapRefs f) := by
  simp only [method?, h, Option.bind_eq_bind]
  cases s.modules[place.module]? with
  | none => rfl
  | some a =>
      simp only [Option.map_some, Option.bind_some, Module.mapRefs, List.getElem?_map]
      cases a.types[place.type]? with
      | none => rfl
      | some type =>
          simp only [Option.map_some, Option.bind_some, TypeDefinition.mapRefs, List.getElem?_map]

theorem instruction?_of_modules (index : Nat)
    (h : t.modules[place.module]? = (s.modules[place.module]?).map (Module.mapRefs f)) :
    t.instruction? place index = (s.instruction? place index).map (Instruction.mapRef f) := by
  rw [instruction?, instruction?, method?_of_modules h]
  cases s.method? place with
  | none => rfl
  | some m => simp only [Option.map_some, Option.bind_some, Method.mapRefs, List.getElem?_map]

end

/-- A decoded instruction refers to a method if its dump names one. -/
theorem reference?_operand (d : InstructionDump) :
    d.operand.reference? = d.method.map CallDump.decode := by
  unfold InstructionDump.operand
  cases d.method with
  | some call => rfl
  | none => cases d.field <;> cases d.targets <;> rfl

/-- Behind every history a reference is what the dump of its module says, and
says what it passes if the dump does or the module has been loaded. -/
theorem reference?_after (history : List Step) (place : MethodPlace) (index : Nat) :
    (after history).reference? place index =
      (callAt? history place index).map fun call =>
        call.decode.settledBy (firstLoad? history place.module) := by
  simp only [reference?, instruction?, method?, getElem?_modules_after, callAt?,
    Option.bind_eq_bind]
  cases (dumpsOf history)[place.module]? with
  | none => rfl
  | some d =>
      simp only [Option.map_some, Option.bind_some, Module.mapRefs, ModuleDump.decode,
        List.getElem?_map]
      cases d.2.types[place.type]? with
      | none => rfl
      | some type =>
          simp only [Option.map_some, Option.bind_some, TypeDefinition.mapRefs, TypeDump.decode,
            List.getElem?_map]
          cases type.methods[place.method]? with
          | none => rfl
          | some m =>
              simp only [Option.map_some, Option.bind_some, Method.mapRefs, MethodDump.decode,
                List.getElem?_map]
              cases m.body[index]? with
              | none => rfl
              | some ins =>
                  simp only [Option.map_some, Option.bind_some, Instruction.reference?_mapRef,
                    InstructionDump.decode, reference?_operand, Option.map_map, Function.comp_def]

section

variable {call : CallDump}

theorem hasThis_decode_of_given {given : Bool} (h : call.hasThis = some given)
    (first : Option Codebase) : (call.decode.settledBy first).hasThis = some given := by
  have hgiven : call.decode.hasThis = some given := h
  cases first with
  | none => exact hgiven
  | some c =>
      show (call.decode.settle c.resolve?).hasThis = some given
      rw [MethodRef.settle_of_given hgiven, hgiven]

theorem hasThis_decode_of_open (h : call.hasThis = none) (c : Codebase) :
    (call.decode.settledBy (some c)).hasThis =
      some (c.passesThis (call.decode.settledBy (some c))) := by
  have hopen : call.decode.hasThis = none := h
  show (call.decode.settle c.resolve?).hasThis = some (c.passesThis (call.decode.settle c.resolve?))
  rw [MethodRef.settle_of_open hopen]
  rfl

end

/-- A first load stays the first. -/
theorem firstLoad?_append_of_some {history : List Step} {position : Nat} {c : Codebase}
    (h : firstLoad? history position = some c) (later : List Step) :
    firstLoad? (history ++ later) position = some c := by
  rw [firstLoad?_append, h, Option.some_or]

/-! ## Loads as steps -/

theorem after_load {history : List Step} {positions : List Nat}
    (hthere : (after history).canLoad positions = true) (name : String) :
    after (history ++ [.load name positions]) = ((after history).loadAt name positions).2 := by
  rw [after_concat]
  exact if_pos hthere

/-- Names stand for modules that are there. -/
theorem moduleNames_lt (history : List Step) :
    ∀ entry ∈ (after history).moduleNames, entry.2 < (after history).modules.length := by
  induction history using List.reverseRecOn with
  | nil => exact fun entry h => absurd h List.not_mem_nil
  | append_singleton history step ih =>
      rw [after_concat]
      intro entry hentry
      have hold : entry ∈ (after history).moduleNames →
          entry.2 < ((after history).perform step).modules.length := by
        intro hbefore
        rw [length_modules_perform]
        exact Nat.lt_add_right _ (ih entry hbefore)
      rcases (after history).perform_cases step with
        ⟨name, source, value, m, -, -, hperform⟩ | ⟨name, positions, -, -, hperform⟩ |
        ⟨-, -, hquiet⟩
      · rw [hperform] at hentry
        rcases List.mem_cons.1 hentry with rfl | hbefore
        · rw [hperform, List.length_append, List.length_singleton]
          exact Nat.lt_succ_self _
        · exact hold hbefore
      · rw [hperform] at hentry
        exact hold hentry
      · rw [hquiet.moduleNames] at hentry
        exact hold hentry

/-- To load modules by their names is a step. -/
theorem load_eq_after (history : List Step) (name : String) (moduleNames : List String) :
    ((after history).load name moduleNames).2 =
      after (history ++ [.load name (moduleNames.filterMap fun moduleName =>
        (after history).moduleNames.lookup moduleName)]) := by
  refine (after_load (canLoad_iff.2 fun p hp => ?_) name).symm
  obtain ⟨moduleName, -, hlookup⟩ := List.mem_filterMap.1 hp
  exact moduleNames_lt history (moduleName, p) (mem_of_lookup_eq_some hlookup)

/-- Settling, as it is written into one reference. -/
theorem settledBy_some_eq (c : Codebase) :
    MethodRef.settledBy (some c) = fun ref =>
      match ref.hasThis with
      | some _ => ref
      | none => { ref with hasThis := some (c.passesThis ref) } := by
  funext ref
  show ref.settle c.resolve? = _
  cases hthis : ref.hasThis with
  | some given => rw [MethodRef.settle_of_given hthis]
  | none => rw [MethodRef.settle_of_open hthis]

/--
**Calls are settled once, by the first load.** Behind every history a
reference passes an instance as its dump says, if the dump says. If not, it
is open until its module is loaded, and from the first load on it says what
that load has resolved, whatever comes later: no instance for a static
callee, and an instance for every other callee and for none. A load changes
nothing else of the modules that take part in it, and nothing of the others;
and the stack effects that it changes are those of open calls to static
methods, which take one value less.
-/
theorem hasThis_settled_once (history : List Step) :
    (∀ place index ref, (after history).reference? place index = some ref →
      ∃ call, callAt? history place index = some call ∧
        (∀ given, call.hasThis = some given → ref.hasThis = some given) ∧
        (call.hasThis = none → (∀ load ∈ loadsOf history, place.module ∉ load.1) →
          ref.hasThis = none) ∧
        ∀ c, call.hasThis = none → firstLoad? history place.module = some c →
          ref.hasThis = some (match c.resolve? ref with
            | some callee => !callee.isStatic
            | none => true)) ∧
      (∀ position c later, firstLoad? history position = some c →
        firstLoad? (history ++ later) position = some c) ∧
      ∀ name positions, (after history).canLoad positions = true →
        ∃ c, (after history).loadAt name positions =
            (c, after (history ++ [.load name positions])) ∧
          (∀ position ∉ positions, (after (history ++ [.load name positions])).modules[position]? =
            (after history).modules[position]?) ∧
          (∀ position ∈ positions, (after (history ++ [.load name positions])).modules[position]? =
            ((after history).modules[position]?).map (Module.mapRefs fun ref =>
              match ref.hasThis with
              | some _ => ref
              | none => { ref with hasThis := some (c.passesThis ref) })) ∧
          ∀ place index ins, (after history).instruction? place index = some ins →
            ∃ ins', (after (history ++ [.load name positions])).instruction? place index =
                some ins' ∧
              (¬ (place.module ∈ positions ∧ ins.LosesThis c) →
                ins'.stackEffect? = ins.stackEffect?) ∧
              (place.module ∈ positions ∧ ins.LosesThis c →
                ∃ n push, ins.stackEffect? = some ⟨.ofNat (n + 1), push⟩ ∧
                  ins'.stackEffect? = some ⟨.ofNat n, push⟩) := by
  refine ⟨?_, ?_, ?_⟩
  · intro place index ref href
    rw [reference?_after] at href
    obtain ⟨call, hcall, rfl⟩ := Option.map_eq_some_iff.1 href
    refine ⟨call, hcall, ?_, ?_, ?_⟩
    · intro given hgiven
      exact hasThis_decode_of_given hgiven _
    · intro hopen hnever
      rw [firstLoad?_eq_none_iff.2 hnever]
      exact hopen
    · intro c hopen hfirst
      rw [hfirst, hasThis_decode_of_open hopen]
      rfl
  · intro position c later hfirst
    exact firstLoad?_append_of_some hfirst later
  · intro name positions hthere
    have hload := getElem?_modules_loadAt hthere name
    refine ⟨((after history).loadAt name positions).1, ?_, ?_, ?_, ?_⟩
    · rw [after_load hthere]
    · intro position hmem
      rw [after_load hthere, hload, codebaseFor?_of_not_mem hmem]
      cases (after history).modules[position]? with
      | none => rfl
      | some a => exact congrArg some (Module.mapRefs_id a)
    · intro position hmem
      rw [after_load hthere, hload, codebaseFor?_of_mem hmem, settledBy_some_eq]
    · intro place index ins hins
      have hafter := instruction?_of_modules index (hload place.module)
      rw [after_load hthere, hafter, hins]
      refine ⟨_, rfl, ?_, ?_⟩
      · intro hkeeps
        by_cases hmem : place.module ∈ positions
        · rw [codebaseFor?_of_mem hmem]
          exact Instruction.stackEffect?_settle_of_not_losesThis fun hloses => hkeeps ⟨hmem, hloses⟩
        · rw [codebaseFor?_of_not_mem hmem]
          exact congrArg Instruction.stackEffect? ins.mapRef_id
      · intro hchanges
        rw [codebaseFor?_of_mem hchanges.1]
        exact Instruction.stackEffect?_settle_of_losesThis hchanges.2

/-! ## A door and its tools -/

/-- A dump with one method, which stores what a call yields in a field of its
instance. Whether the call passes an instance is left open. -/
def doorDump : Value := .record
  [("module", .text "Door"),
    ("types", .list
      [.record
        [("name", .text "App.Door"), ("interfaces", .list [.text "System.IDisposable"]),
          ("methods", .list
            [.record
              [("name", .text "Open"), ("visibility", .text "public"),
                ("body", .list
                  [.record [("offset", .number 0), ("op", .text "ldarg.0")],
                    .record [("offset", .number 1), ("op", .text "call"),
                      ("method", .record
                        [("declaringType", .text "App.Tools"), ("name", .text "Count"),
                          ("returnType", .text "System.Int32")])],
                    .record [("offset", .number 6), ("op", .text "stfld"),
                      ("field", .record
                        [("declaringType", .text "App.Door"), ("name", .text "count")])],
                    .record [("offset", .number 11), ("op", .text "ret")]])]])]])]

/-- A dump with the callee, which is static. -/
def toolsDump : Value := .record
  [("module", .text "Tools"),
    ("types", .list
      [.record
        [("name", .text "App.Tools"),
          ("methods", .list
            [.record
              [("name", .text "Count"), ("static", .bool true),
                ("returnType", .text "System.Int32")]])]])]

example :
    ((after [.decode "door" "door.json" doorDump, .decode "tools" "tools.json" toolsDump,
      .load "both" [0, 1]]).reference? ⟨0, 0, 0⟩ 1).map MethodRef.hasThis = some (some false) := by
  decide +kernel

example :
    ((after [.decode "door" "door.json" doorDump, .decode "tools" "tools.json" toolsDump,
      .load "alone" [0], .load "both" [0, 1]]).reference? ⟨0, 0, 0⟩ 1).map MethodRef.hasThis =
      some (some true) := by
  decide +kernel

end Session

end DisposalAudit
