import DisposalAudit.Proofs.AskedFacts
import DisposalAudit.Proofs.RunAccounts
import DisposalAudit.Proofs.StableLoads

/-!
# Caches that never go stale

Opcodes and targets are kept by method once they have been asked for, each in
a cache of its own, while modules that are loaded later are written into. What
a load writes says what calls pass, and neither fact depends on that: whatever
is kept is what would be computed now. A session with caches therefore gives
the answers of one without.

The program is written once, as a computation that asks for facts. It is run
with the caches, and by computing every fact when it is asked for; the running
session, which keeps both facts of a method together, answers in the same way.

## Main definitions

* `Caches`, `Asking.served` — what is kept, and a computation that is served
  from it.
* `Caches.Right` — what is kept is true of the methods as they are.
* `Session.Action`, `Session.act` — what can be asked of a session.

## Main results

* `Asking.served_eq` — right caches do not show, and stay right.
* `Session.reply_eq` — neither do the facts of the running session.
* `Session.caches_never_stale` — all histories.
* `Session.run_registered` — the registered rules, at the end of any history.
-/

namespace DisposalAudit

variable {α β : Type}

/-! ## Caches -/

/-- What is kept about methods, by their places. -/
structure Caches where
  opcodes : List (MethodPlace × OpcodeSet)
  targets : List (MethodPlace × List Number)

/-- Caches that keep nothing. -/
def Caches.empty : Caches := ⟨[], []⟩

/-- A fact about the method at a place: what is kept, or else what it is now,
which is kept from then on. -/
def serve (kept : List (MethodPlace × β)) (place : MethodPlace) (fact : β) :
    β × List (MethodPlace × β) :=
  match kept.lookup place with
  | some found => (found, kept)
  | none => (fact, (place, fact) :: kept)

/-- The outcome, and the caches behind it, if facts are served from caches. -/
def Asking.served : Asking α → Caches → α × Caches
  | done value, caches => (value, caches)
  | opcodes place m next, caches =>
    let found := serve caches.opcodes place m.opcodes
    (next found.1).served { caches with opcodes := found.2 }
  | targets place m next, caches =>
    let found := serve caches.targets place m.branchTargets
    (next found.1).served { caches with targets := found.2 }

/-- What is kept is true of the methods at their places. -/
def IsTrueOf (method? : MethodPlace → Option Method) (fact : Method → β)
    (kept : List (MethodPlace × β)) : Prop :=
  ∀ entry ∈ kept, ∃ m, method? entry.1 = some m ∧ entry.2 = fact m

/-- Both caches are true of the methods at their places. -/
structure Caches.Right (method? : MethodPlace → Option Method) (caches : Caches) : Prop where
  opcodes : IsTrueOf method? Method.opcodes caches.opcodes
  targets : IsTrueOf method? Method.branchTargets caches.targets

variable {method? : MethodPlace → Option Method}

theorem Caches.right_empty : Caches.empty.Right method? :=
  ⟨fun _ h => absurd h List.not_mem_nil, fun _ h => absurd h List.not_mem_nil⟩

/-- What is served is what would be computed, and so is what is kept
then. -/
theorem serve_eq {fact : Method → β} {kept : List (MethodPlace × β)} {place : MethodPlace}
    {m : Method} (hkept : IsTrueOf method? fact kept) (hm : method? place = some m) :
    (serve kept place (fact m)).1 = fact m ∧
      IsTrueOf method? fact (serve kept place (fact m)).2 := by
  unfold serve
  cases hlookup : kept.lookup place with
  | none =>
      refine ⟨rfl, fun entry hentry => ?_⟩
      rcases List.mem_cons.1 hentry with rfl | hold
      · exact ⟨m, hm, rfl⟩
      · exact hkept entry hold
  | some found =>
      obtain ⟨m', hm', hfact⟩ := hkept _ (mem_of_lookup_eq_some hlookup)
      obtain rfl : m = m' := Option.some.inj (hm.symm.trans hm')
      exact ⟨hfact, hkept⟩

/-- **Right caches do not show.** -/
theorem Asking.served_eq {asking : Asking α} (habout : asking.About method?) :
    ∀ {caches : Caches}, caches.Right method? →
      (asking.served caches).1 = asking.plainly ∧ (asking.served caches).2.Right method? := by
  induction asking with
  | done value => exact fun hright => ⟨rfl, hright⟩
  | opcodes place m next ih =>
      intro caches hright
      obtain ⟨hfound, hkept⟩ := serve_eq hright.opcodes habout.1
      rw [served, hfound]
      exact ih m.opcodes (habout.2 m.opcodes) ⟨hkept, hright.targets⟩
  | targets place m next ih =>
      intro caches hright
      obtain ⟨hfound, hkept⟩ := serve_eq hright.targets habout.1
      rw [served, hfound]
      exact ih m.branchTargets (habout.2 m.branchTargets) ⟨hright.opcodes, hkept⟩

/-- Caches stay right while methods keep their facts. -/
theorem Caches.Right.of_facts {caches : Caches} (hright : caches.Right method?)
    {later? : MethodPlace → Option Method}
    (hfacts : ∀ place m, method? place = some m →
      ∃ m', later? place = some m' ∧ m'.facts = m.facts) : caches.Right later? := by
  constructor
  · intro entry hentry
    obtain ⟨m, hm, hfact⟩ := hright.opcodes entry hentry
    obtain ⟨m', hm', hsame⟩ := hfacts entry.1 m hm
    exact ⟨m', hm', hfact.trans (congrArg BodyFacts.opcodes hsame).symm⟩
  · intro entry hentry
    obtain ⟨m, hm, hfact⟩ := hright.targets entry hentry
    obtain ⟨m', hm', hsame⟩ := hfacts entry.1 m hm
    exact ⟨m', hm', hfact.trans (congrArg BodyFacts.targets hsame).symm⟩

/-! ## Runs that ask -/

/-- The trials of a module at a position. -/
def Module.askTrials (rules : List AskingRule) (context : RuleContext) (position : Nat)
    (a : Module) : Asking (List Trial) :=
  Asking.flatMap (fun (type, j) =>
    Asking.flatMap (fun (m, k) =>
      Asking.flatMap (fun rule =>
        (rule.ask context ⟨position, j, k⟩ m).map fun inspection =>
          [⟨rule.id, m.signature, inspection⟩]) rules)
      type.methods.zipIdx)
    a.types.zipIdx

theorem Module.plainly_askTrials (rules : List AskingRule) (context : RuleContext)
    (position : Nat) (a : Module) :
    (a.askTrials rules context position).plainly =
      a.trialsIn (rules.map AskingRule.toRule) context := by
  have hrules (m : Method) : (rules.flatMap fun rule =>
      [(⟨rule.id, m.signature, rule.inspect context m.facts m⟩ : Trial)]) =
        (rules.map AskingRule.toRule).map (Trial.of context m.facts m) := by
    rw [List.map_map, List.map_eq_flatMap]
    rfl
  unfold askTrials trialsIn
  simp only [Asking.plainly_flatMap, Asking.plainly_map, AskingRule.plainly_ask, hrules]
  have hmethods := flatMap_zipIdx_fst fun m : Method =>
    (rules.map AskingRule.toRule).map (Trial.of context m.facts m)
  simp only [hmethods]
  exact flatMap_zipIdx_fst (fun type : TypeDefinition => type.methods.flatMap fun m =>
    (rules.map AskingRule.toRule).map (Trial.of context m.facts m)) a.types

theorem Module.about_askTrials (rules : List AskingRule) (context : RuleContext)
    {position : Nat} {a : Module}
    (hthere : ∀ type ∈ a.types.zipIdx, ∀ m ∈ type.1.methods.zipIdx,
      method? ⟨position, type.2, m.2⟩ = some m.1) :
    (a.askTrials rules context position).About method? := by
  refine Asking.About.flatMap fun type htype => Asking.About.flatMap fun m hm =>
    Asking.About.flatMap fun rule _ => ?_
  exact (rule.about_ask method? context _ _ (hthere type htype m hm)).map _

/-- What a run comes to, by the trials of its modules. -/
def Codebase.account (c : Codebase) (settings : Settings)
    (sections : List (Module × List Trial)) : RunResult :=
  let trials := sections.flatMap Prod.snd
  { findings := trials.flatMap (Trial.kept settings)
    stats :=
      { modules := c.modules.length
        types := c.types.length
        methods := c.countMethods
        results := .of (trials.map Trial.verdict)
        suppressed := (trials.flatMap (Trial.suppressed settings)).length }
    log := sections.flatMap fun (a, trials) =>
      a.announcement :: trials.flatMap (Trial.log settings) }

theorem Codebase.account_eq_run (c : Codebase) (rules : List Rule) (settings : Settings) :
    c.account settings (c.modules.map fun a => (a, a.trialsIn rules c.context)) =
      c.run rules settings := by
  rw [run_eq, account]
  simp only [List.flatMap_map]
  rfl

namespace Session

/-- A run over the modules at some positions. -/
def askRun (s : Session) (positions : List Nat) (rules : List AskingRule) (settings : Settings) :
    Asking RunResult :=
  let c := s.codebaseAt positions
  (Asking.flatMap (fun (position, a) =>
    (a.askTrials rules c.context position).map fun trials => [(a, trials)])
    (positions.filterMap fun position => (s.modules[position]?).map fun a => (position, a))).map
      (c.account settings)

theorem plainly_askRun (s : Session) (positions : List Nat) (rules : List AskingRule)
    (settings : Settings) :
    (s.askRun positions rules settings).plainly =
      (s.codebaseAt positions).run (rules.map AskingRule.toRule) settings := by
  have hmodules : (s.codebaseAt positions).modules =
      (positions.filterMap fun position =>
        (s.modules[position]?).map fun a => (position, a)).map Prod.snd := by
    rw [codebaseAt, List.map_filterMap]
    refine List.filterMap_congr fun position _ => ?_
    cases s.modules[position]? <;> rfl
  rw [askRun, Asking.plainly_map, Asking.plainly_flatMap, ← Codebase.account_eq_run, hmodules,
    List.map_map, List.map_eq_flatMap]
  simp only [Asking.plainly_map, Module.plainly_askTrials]
  rfl

theorem about_askRun (s : Session) (positions : List Nat) (rules : List AskingRule)
    (settings : Settings) : (s.askRun positions rules settings).About s.method? := by
  refine Asking.About.map (Asking.About.flatMap fun entry hentry => ?_) _
  obtain ⟨position, -, hmodule⟩ := List.mem_filterMap.1 hentry
  obtain ⟨a, ha, rfl⟩ := Option.map_eq_some_iff.1 hmodule
  refine (Module.about_askTrials rules _ fun type htype m hm => ?_).map _
  have htype' := List.mem_zipIdx_iff_getElem?.1 htype
  have hm' := List.mem_zipIdx_iff_getElem?.1 hm
  simp only [method?, ha, htype', hm', Option.bind_eq_bind, Option.bind_some]

/-! ## Actions -/

/-- What can be asked of a session. Loads are meant by their names, and
modules and methods by their places. -/
inductive Action where
  | decode (name source : String) (value : Value)
  | load (name : String) (positions : List Nat)
  | summarize (place : MethodPlace)
  | trace (place : MethodPlace) (index : Nat)
  | check (load : String) (place : MethodPlace) (rule : AskingRule) (collector : Option String)
  | run (load : String) (rules : List AskingRule) (settings : Settings)
      (collector : Option String)

/-- What a session answers. Modules, methods and loads that are not there
have none. -/
inductive Answer where
  | decoded (outcome : Except (List Violation) Module)
  | loaded (codebase : Option Codebase)
  | summary (text : Option String)
  | receiver (found : Option (Option Nat × Bool))
  | inspection (outcome : Option Inspection)
  | result (outcome : Option RunResult)

/-- The answer that there is something, or that there is not. -/
def told (answer : Option α → Answer) (s : Session) : Option (α × Session) → Answer × Session
  | some (value, next) => (answer (some value), next)
  | none => (answer none, s)

/-- A dump is decoded. -/
def replyDecode (s : Session) (name source : String) (value : Value) : Answer × Session :=
  match s.decode name source value with
  | .ok (m, next) => (.decoded (.ok m), next)
  | .error violations => (.decoded (.error violations), s)

/-- Modules are loaded. -/
def replyLoad (s : Session) (name : String) (positions : List Nat) : Answer × Session :=
  told .loaded s (if s.canLoad positions then some (s.loadAt name positions) else none)

/-! ### The program that asks -/

/-- The opcodes of a method. -/
def askSummary (s : Session) (place : MethodPlace) : Asking (Answer × Session) :=
  match s.method? place with
  | none => .done (.summary none, s)
  | some m => .opcodes place m fun opcodes => .done (.summary (some opcodes.text), s)

/-- The producer of a receiver, and whether it is the own instance. -/
def askReceiver (s : Session) (place : MethodPlace) (index : Nat) : Asking (Answer × Session) :=
  match s.method? place with
  | none => .done (.receiver none, s)
  | some m => (m.askProducer place index).bind fun producer =>
    (m.askSelf place index).map fun isSelf => (.receiver (some (producer, isSelf)), s)

/-- One rule on one method in the context of a load. -/
def askCheck (s : Session) (load : String) (place : MethodPlace) (rule : AskingRule)
    (collector : Option String) : Asking (Answer × Session) :=
  match s.loads.lookup load with
  | none => .done (.inspection none, s)
  | some positions =>
    match s.method? place with
    | none => .done (.inspection none, s)
    | some m =>
      (rule.ask (s.codebaseAt positions).context place m).map fun inspection =>
        (.inspection (some inspection), s.collect collector inspection.findings)

/-- Rules over a load. -/
def askResult (s : Session) (load : String) (rules : List AskingRule) (settings : Settings)
    (collector : Option String) : Asking (Answer × Session) :=
  match s.loads.lookup load with
  | none => .done (.result none, s)
  | some positions => (s.askRun positions rules settings).map fun result =>
    (.result (some result), s.collect collector result.findings)

/-- The answer to an action, and the session behind it. -/
def act (s : Session) : Action → Asking (Answer × Session)
  | .decode name source value => .done (s.replyDecode name source value)
  | .load name positions => .done (s.replyLoad name positions)
  | .summarize place => s.askSummary place
  | .trace place index => s.askReceiver place index
  | .check load place rule collector => s.askCheck load place rule collector
  | .run load rules settings collector => s.askResult load rules settings collector

/-- The session without caches: every fact is computed when it is asked
for. -/
def replyPlainly (s : Session) (action : Action) : Answer × Session := (s.act action).plainly

/-- The running session. -/
def reply (s : Session) : Action → Answer × Session
  | .decode name source value => s.replyDecode name source value
  | .load name positions => s.replyLoad name positions
  | .summarize place => told .summary s (s.summarize place)
  | .trace place index => told .receiver s (s.trace place index)
  | .check load place rule collector =>
    told .inspection s (s.check load place rule.toRule collector)
  | .run load rules settings collector =>
    told .result s (s.run load (rules.map AskingRule.toRule) settings collector)

/-! ### What is asked, and what it comes to -/

section Replies

variable (s : Session)

/-- Actions ask about methods that are there. -/
theorem about_act (action : Action) : (s.act action).About s.method? := by
  cases action with
  | decode name source value => trivial
  | load name positions => trivial
  | summarize place =>
      show (s.askSummary place).About s.method?
      rw [askSummary]
      cases hm : s.method? place with
      | none => trivial
      | some m => exact ⟨hm, fun _ => trivial⟩
  | trace place index =>
      show (s.askReceiver place index).About s.method?
      rw [askReceiver]
      cases hm : s.method? place with
      | none => trivial
      | some m =>
          exact (Method.about_askProducer index hm).bind fun _ =>
            (Method.about_askSelf index hm).map _
  | check load place rule collector =>
      show (s.askCheck load place rule collector).About s.method?
      rw [askCheck]
      cases s.loads.lookup load with
      | none => trivial
      | some positions =>
          cases hm : s.method? place with
          | none => trivial
          | some m => exact (rule.about_ask s.method? _ place m hm).map _
  | run load rules settings collector =>
      show (s.askResult load rules settings collector).About s.method?
      rw [askResult]
      cases s.loads.lookup load with
      | none => trivial
      | some positions => exact (s.about_askRun positions rules settings).map _

theorem plainly_askSummary (place : MethodPlace) :
    (s.askSummary place).plainly =
      told .summary s ((s.method? place).map fun m => (m.opcodes.text, s)) := by
  rw [askSummary]
  cases s.method? place <;> rfl

theorem plainly_askReceiver (place : MethodPlace) (index : Nat) :
    (s.askReceiver place index).plainly =
      told .receiver s ((s.method? place).map fun m =>
        ((m.producer? m.branchTargets index, m.consumesSelf m.branchTargets index), s)) := by
  rw [askReceiver]
  cases s.method? place with
  | none => rfl
  | some m =>
      dsimp only
      rw [Asking.plainly_bind, Asking.plainly_map, Method.plainly_askProducer,
        Method.plainly_askSelf]
      rfl

theorem plainly_askCheck (load : String) (place : MethodPlace) (rule : AskingRule)
    (collector : Option String) :
    (s.askCheck load place rule collector).plainly =
      told .inspection s ((s.loads.lookup load).bind fun positions =>
        (s.method? place).map fun m =>
          (rule.inspect (s.codebaseAt positions).context m.facts m,
            s.collect collector
              (rule.inspect (s.codebaseAt positions).context m.facts m).findings)) := by
  rw [askCheck]
  cases s.loads.lookup load with
  | none => rfl
  | some positions =>
      dsimp only
      cases s.method? place with
      | none => rfl
      | some m =>
          dsimp only
          rw [Asking.plainly_map, rule.plainly_ask]
          rfl

theorem plainly_askResult (load : String) (rules : List AskingRule) (settings : Settings)
    (collector : Option String) :
    (s.askResult load rules settings collector).plainly =
      told .result s ((s.loads.lookup load).map fun positions =>
        ((s.codebaseAt positions).run (rules.map AskingRule.toRule) settings,
          s.collect collector
            ((s.codebaseAt positions).run (rules.map AskingRule.toRule) settings).findings)) := by
  rw [askResult]
  cases s.loads.lookup load with
  | none => rfl
  | some positions =>
      dsimp only
      rw [Asking.plainly_map, plainly_askRun]
      rfl

end Replies

/-! ### Methods keep their facts -/

theorem replyDecode_snd (s : Session) (name source : String) (value : Value) :
    (s.replyDecode name source value).2 = s.perform (.decode name source value) := by
  rw [replyDecode, perform]
  cases s.decode name source value <;> rfl

theorem replyLoad_snd (s : Session) (name : String) (positions : List Nat) :
    (s.replyLoad name positions).2 = s.perform (.load name positions) := by
  rw [replyLoad, perform]
  split <;> rfl

/-- Methods are still there behind an action, with the same facts. -/
theorem method?_replyPlainly {s : Session} {place : MethodPlace} {m : Method}
    (hm : s.method? place = some m) (action : Action) :
    ∃ m', (s.replyPlainly action).2.method? place = some m' ∧ m'.facts = m.facts := by
  -- Only decoding and loading change the modules.
  have hsame (next : Session) (hmodules : next.modules = s.modules) :
      ∃ m', next.method? place = some m' ∧ m'.facts = m.facts := by
    refine ⟨m, ?_, rfl⟩
    rw [method?, hmodules]
    exact hm
  cases action with
  | decode name source value =>
      show ∃ m', (s.replyDecode name source value).2.method? place = some m' ∧ _
      rw [replyDecode_snd]
      exact method?_perform hm _
  | load name positions =>
      show ∃ m', (s.replyLoad name positions).2.method? place = some m' ∧ _
      rw [replyLoad_snd]
      exact method?_perform hm _
  | summarize other =>
      refine hsame _ ?_
      show (s.askSummary other).plainly.2.modules = s.modules
      rw [plainly_askSummary]
      cases s.method? other <;> rfl
  | trace other index =>
      refine hsame _ ?_
      show (s.askReceiver other index).plainly.2.modules = s.modules
      rw [plainly_askReceiver]
      cases s.method? other <;> rfl
  | check load other rule collector =>
      refine hsame _ ?_
      show (s.askCheck load other rule collector).plainly.2.modules = s.modules
      rw [plainly_askCheck]
      cases s.loads.lookup load with
      | none => rfl
      | some positions =>
          cases s.method? other with
          | none => rfl
          | some m => exact (quiet_collect s collector _).modules
  | run load rules settings collector =>
      refine hsame _ ?_
      show (s.askResult load rules settings collector).plainly.2.modules = s.modules
      rw [plainly_askResult]
      cases s.loads.lookup load with
      | none => rfl
      | some positions => exact (quiet_collect s collector _).modules

/-! ### The running session -/

/-- A session without the facts that it has kept. -/
def forget (s : Session) : Session := { s with known := [] }

theorem forget_learn (s : Session) (place : MethodPlace) : (s.learn place).forget = s.forget := by
  unfold learn
  split <;> rfl

theorem forget_foldl_learn (places : List MethodPlace) :
    ∀ s : Session, (places.foldl learn s).forget = s.forget := by
  induction places with
  | nil => exact fun _ => rfl
  | cons place rest ih =>
      intro s
      rw [List.foldl_cons, ih, forget_learn]

theorem forget_collect (s : Session) (collector : Option String) (findings : List Finding) :
    (s.collect collector findings).forget = s.forget.collect collector findings := by
  cases collector <;> rfl

theorem told_snd (answer : Option α → Answer) (s : Session) (outcome : Option (α × Session)) :
    (told answer s outcome).2 = outcome.elim s Prod.snd := by
  cases outcome <;> rfl

/-- The running session stays coherent. -/
theorem Coherent.reply {s : Session} (h : s.Coherent) (action : Action) :
    (s.reply action).2.Coherent := by
  cases action with
  | decode name source value =>
      rw [Session.reply, replyDecode_snd]
      exact h.perform _
  | load name positions =>
      rw [Session.reply, replyLoad_snd]
      exact h.perform _
  | summarize place =>
      rw [Session.reply, told_snd]
      exact h.perform (.summarize place)
  | trace place index =>
      rw [Session.reply, told_snd]
      exact h.perform (.trace place index)
  | check load place rule collector =>
      rw [Session.reply, told_snd, Session.check]
      cases s.loads.lookup load with
      | none => exact h
      | some positions => exact h.perform (.check positions place rule.toRule collector)
  | run load rules settings collector =>
      rw [Session.reply, told_snd, Session.run]
      cases s.loads.lookup load with
      | none => exact h
      | some positions =>
          exact h.perform (.run positions (rules.map AskingRule.toRule) settings collector)

theorem map_forget_told (answer : Option α → Answer) (s : Session)
    (outcome : Option (α × Session)) :
    Prod.map id forget (told answer s outcome) =
      told answer s.forget (outcome.map (Prod.map id forget)) := by
  cases outcome <;> rfl

section KeptFacts

variable {s : Session} (h : s.Coherent)
include h

theorem forget_summarize (place : MethodPlace) :
    (s.summarize place).map (Prod.map id forget) =
      (s.method? place).map fun m => (m.opcodes.text, s.forget) := by
  rw [summarize, Option.map_map]
  refine Option.map_congr fun m hm => ?_
  show ((s.facts place m).opcodes.text, (s.learn place).forget) = _
  rw [h.facts_eq hm, forget_learn]
  rfl

theorem forget_trace (place : MethodPlace) (index : Nat) :
    (s.trace place index).map (Prod.map id forget) =
      (s.method? place).map fun m =>
        ((m.producer? m.branchTargets index, m.consumesSelf m.branchTargets index),
          s.forget) := by
  rw [trace, Option.map_map]
  refine Option.map_congr fun m hm => ?_
  show ((m.producer? (s.facts place m).targets index,
    m.consumesSelf (s.facts place m).targets index), (s.learn place).forget) = _
  rw [h.facts_eq hm, forget_learn]
  rfl

theorem forget_checkAt (positions : List Nat) (place : MethodPlace) (rule : Rule)
    (collector : Option String) :
    (s.checkAt positions place rule collector).map (Prod.map id forget) =
      (s.method? place).map fun m =>
        (rule.inspect (s.codebaseAt positions).context m.facts m,
          s.forget.collect collector
            (rule.inspect (s.codebaseAt positions).context m.facts m).findings) := by
  rw [checkAt, Option.map_map]
  refine Option.map_congr fun m hm => ?_
  show (_, ((s.learn place).collect collector _).forget) = _
  rw [h.facts_eq hm, forget_collect, forget_learn]
  rfl

theorem forget_run (load : String) (rules : List Rule) (settings : Settings)
    (collector : Option String) :
    (s.run load rules settings collector).map (Prod.map id forget) =
      (s.loads.lookup load).map fun positions =>
        ((s.codebaseAt positions).run rules settings,
          s.forget.collect collector ((s.codebaseAt positions).run rules settings).findings) := by
  rw [run, Option.map_map]
  refine Option.map_congr fun positions hlookup => ?_
  have hthere : ∀ p ∈ positions, p < s.modules.length := by
    intro p hp
    obtain ⟨a, ha, -⟩ := h.loads _ (mem_of_lookup_eq_some hlookup) p hp
    exact (List.getElem?_eq_some_iff.1 ha).1
  have hresult := runAt_eq_run h hthere rules settings collector
  have hnext : (s.runAt positions rules settings collector).2.forget =
      s.forget.collect collector (s.runAt positions rules settings collector).1.findings := by
    rw [runAt, forget_collect, forget_foldl_learn]
  show ((s.runAt positions rules settings collector).1,
    (s.runAt positions rules settings collector).2.forget) = _
  rw [hnext, hresult]

/-- **Kept facts do not show.** The running session gives the answers of one
that keeps no facts, and is that session, but for the facts that it keeps. -/
theorem reply_eq (action : Action) :
    Prod.map id forget (s.reply action) = s.forget.replyPlainly action := by
  cases action with
  | decode name source value =>
      show Prod.map id forget (s.replyDecode name source value) =
        s.forget.replyDecode name source value
      unfold replyDecode decode
      cases Module.ofValue source value <;> rfl
  | load name positions =>
      show Prod.map id forget (s.replyLoad name positions) = s.forget.replyLoad name positions
      have hthere : s.forget.canLoad positions = s.canLoad positions := rfl
      rw [replyLoad, replyLoad, hthere]
      split <;> rfl
  | summarize place =>
      show Prod.map id forget (told .summary s (s.summarize place)) =
        (s.forget.askSummary place).plainly
      rw [map_forget_told, forget_summarize h, plainly_askSummary]
      rfl
  | trace place index =>
      show Prod.map id forget (told .receiver s (s.trace place index)) =
        (s.forget.askReceiver place index).plainly
      rw [map_forget_told, forget_trace h, plainly_askReceiver]
      rfl
  | check load place rule collector =>
      show Prod.map id forget (told .inspection s (s.check load place rule.toRule collector)) =
        (s.forget.askCheck load place rule collector).plainly
      rw [map_forget_told, plainly_askCheck, check, Option.map_bind]
      simp only [Function.comp_def, forget_checkAt h]
      rfl
  | run load rules settings collector =>
      show Prod.map id forget
          (told .result s (s.run load (rules.map AskingRule.toRule) settings collector)) =
        (s.forget.askResult load rules settings collector).plainly
      rw [map_forget_told, forget_run h, plainly_askResult]
      rfl

end KeptFacts

/-! ### The session with caches -/

/-- A session with caches for what has been asked. -/
structure Cached where
  session : Session
  caches : Caches

/-- The session with caches: facts are served from them. -/
def Cached.reply (c : Cached) (action : Action) : Answer × Cached :=
  let ended := (c.session.act action).served c.caches
  (ended.1.1, ⟨ended.1.2, ended.2⟩)

/-- **Caches do not show, and stay right.** -/
theorem Cached.reply_eq {c : Cached} (hright : c.caches.Right c.session.method?)
    (action : Action) :
    Prod.map id session (c.reply action) = c.session.replyPlainly action ∧
      (c.reply action).2.caches.Right (c.reply action).2.session.method? := by
  obtain ⟨hreply, hkept⟩ := Asking.served_eq (c.session.about_act action) hright
  have hsession : (c.reply action).2.session = (c.session.replyPlainly action).2 :=
    congrArg Prod.snd hreply
  refine ⟨hreply, ?_⟩
  rw [hsession]
  exact hkept.of_facts fun place m hm => method?_replyPlainly hm action

/-! ### Histories -/

section Replay

variable {σ τ : Type}

/-- The answers to a history of actions, and what is there behind it. -/
def replay (reply : σ → Action → Answer × σ) (start : σ) : List Action → List Answer × σ
  | [] => ([], start)
  | action :: rest =>
    let first := reply start action
    let others := replay reply first.2 rest
    (first.1 :: others.1, others.2)

/-- Two programs that answer alike step by step answer histories alike, as
long as what one step needs is kept by every step. -/
theorem replay_eq {reply : σ → Action → Answer × σ} {reply' : τ → Action → Answer × τ}
    {view : σ → τ} {Kept : σ → Prop}
    (hstep : ∀ s action, Kept s →
      Prod.map id view (reply s action) = reply' (view s) action ∧ Kept (reply s action).2)
    (history : List Action) :
    ∀ s, Kept s →
      Prod.map id view (replay reply s history) = replay reply' (view s) history ∧
        Kept (replay reply s history).2 := by
  induction history with
  | nil => exact fun s hs => ⟨rfl, hs⟩
  | cons action rest ih =>
      intro s hs
      obtain ⟨hfirst, hnext⟩ := hstep s action hs
      obtain ⟨hothers, hkept⟩ := ih _ hnext
      refine ⟨?_, hkept⟩
      rw [replay, replay, ← hfirst]
      exact congrArg (fun others => ((reply s action).1 :: others.1, others.2)) hothers

end Replay

/-- The session with caches behind any history: its caches are right, and it
is the session without them. -/
theorem cached_after (history : List Action) :
    let cached := replay Cached.reply ⟨empty, .empty⟩ history
    Prod.map id Cached.session cached = replay replyPlainly empty history ∧
      cached.2.caches.Right cached.2.session.method? :=
  replay_eq (fun (c : Cached) action (h : c.caches.Right c.session.method?) =>
    Cached.reply_eq h action) history ⟨empty, .empty⟩ Caches.right_empty

/-- The running session behind any history: it is coherent, and without the
facts that it keeps it is the session that keeps none. -/
theorem running_after (history : List Action) :
    let running := replay reply empty history
    Prod.map id forget running = replay replyPlainly empty history ∧ running.2.Coherent :=
  replay_eq (fun (s : Session) action (h : s.Coherent) => ⟨reply_eq h action, h.reply action⟩)
    history empty (coherent_after [])

/--
**Caches never go stale.** Whatever is decoded, loaded, summarized, traced,
checked and run, and in whatever order: every entry of the two caches is what
would be computed from the body as it is now, also if a load has written into
that body since, and a session with caches gives the answers that it would
give without. The same is true of the running session, which keeps both facts
of a method together.
-/
theorem caches_never_stale (history : List Action) :
    let plain := replay replyPlainly empty history
    let cached := replay Cached.reply ⟨empty, .empty⟩ history
    let running := replay reply empty history
    ((∀ entry ∈ cached.2.caches.opcodes,
        ∃ m, cached.2.session.method? entry.1 = some m ∧ entry.2 = m.opcodes) ∧
      (∀ entry ∈ cached.2.caches.targets,
        ∃ m, cached.2.session.method? entry.1 = some m ∧ entry.2 = m.branchTargets) ∧
      cached.1 = plain.1 ∧ cached.2.session = plain.2) ∧
    (∀ entry ∈ running.2.known,
      ∃ m, running.2.method? entry.1 = some m ∧ entry.2 = m.facts) ∧
    running.1 = plain.1 ∧ running.2.forget = plain.2 := by
  intro plain cached running
  obtain ⟨hcached, hright⟩ := cached_after history
  obtain ⟨hrunning, hcoherent⟩ := running_after history
  have hanswers := congrArg Prod.fst hrunning
  have hbehind := congrArg Prod.snd hrunning
  exact ⟨⟨hright.opcodes, hright.targets, congrArg Prod.fst hcached, congrArg Prod.snd hcached⟩,
    hcoherent.known, hanswers, hbehind⟩

/-- The facts about a door are kept before a load writes into its body. -/
example :
    let cached := replay Cached.reply ⟨empty, .empty⟩
      [.decode "door" "door.json" doorDump, .decode "tools" "tools.json" toolsDump,
        .summarize ⟨0, 0, 0⟩, .trace ⟨0, 0, 0⟩ 2, .load "both" [0, 1]]
    cached.2.caches.opcodes.length = 1 ∧ cached.2.caches.targets = [(⟨0, 0, 0⟩, [])] ∧
      (cached.2.session.reference? ⟨0, 0, 0⟩ 1).map MethodRef.hasThis = some (some false) := by
  decide +kernel

/-- **The registered rules ask as well.** At the end of any history their run
over a load comes to the run over its codebase, with caches and in the running
session. -/
theorem run_registered (history : List Action) (load : String) (settings : Settings)
    (collector : Option String) :
    let cached := (replay Cached.reply ⟨empty, .empty⟩ history).2
    let running := (replay reply empty history).2
    let action := Action.run load settings.askingRules settings collector
    (cached.reply action).1 = .result ((cached.session.codebase? load).map fun c =>
        c.run settings.rules settings) ∧
      (running.reply action).1 = .result ((running.codebase? load).map fun c =>
        c.run settings.rules settings) := by
  intro cached running action
  have hanswer (s : Session) : (s.replyPlainly action).1 =
      .result ((s.codebase? load).map fun c => c.run settings.rules settings) := by
    show (s.askResult load settings.askingRules settings collector).plainly.1 = _
    rw [plainly_askResult, settings.askingRules_toRule, codebase?]
    cases s.loads.lookup load <;> rfl
  have hcached := (Cached.reply_eq (cached_after history).2 action).1
  have hrunning := reply_eq (running_after history).2 action
  exact ⟨(congrArg Prod.fst hcached).trans (hanswer _),
    (congrArg Prod.fst hrunning).trans (hanswer _)⟩

end Session

end DisposalAudit
