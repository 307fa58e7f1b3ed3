import DisposalAudit.Codebase.Basic
import DisposalAudit.Dump.Decode
import DisposalAudit.Body.Receiver
import DisposalAudit.Run

/-!
# Sessions

A session keeps decoded modules and loads them in any combination. A module
is kept once however many codebases it is loaded into, so a call that the
first load settles is settled for all of them. Facts about bodies are
computed when they are first asked for, and kept.

Names of modules, loads and collectors may be given again; what was loaded
under an earlier name stays as it was.

## Main definitions

* `Session` — modules, loads, collectors of findings, and known facts.
* `Session.decode`, `Session.load` — add a module, or load some of them.
* `Session.facts`, `Session.learn` — known facts, and asking for them.
* `Session.summarize`, `Session.trace`, `Session.check`, `Session.run` —
  what is done with methods and loads.
* `Session.Step`, `Session.after` — what can happen in a session, and the
  session behind a history of it.
-/

namespace DisposalAudit

/-- Modules that are kept, and what has been done with them. -/
structure Session where
  /-- Every module that was decoded, in order. -/
  modules : List Module
  /-- Names of modules, newest first, with their positions. -/
  moduleNames : List (String × Nat)
  /-- Names of loads, newest first, with the positions of their modules. -/
  loads : List (String × List Nat)
  /-- Collected findings by collector. -/
  collectors : List (String × List Finding)
  /-- Facts that have been asked for. -/
  known : List (MethodPlace × BodyFacts)
  /-- Whether debug entries are printed. -/
  verbose : Bool

namespace Session

/-- A session in which nothing has happened. -/
def empty : Session := ⟨[], [], [], [], [], false⟩

/-! ## Modules and loads -/

/-- The module that a name stands for. -/
def module? (s : Session) (name : String) : Option Module :=
  (s.moduleNames.lookup name).bind (s.modules[·]?)

/-- The codebase of the modules at some positions, as they are now. -/
def codebaseAt (s : Session) (positions : List Nat) : Codebase :=
  ⟨positions.filterMap (s.modules[·]?)⟩

/-- The codebase that a load stands for. -/
def codebase? (s : Session) (name : String) : Option Codebase :=
  (s.loads.lookup name).map s.codebaseAt

/-- Decodes a dump and keeps its module under a name. -/
def decode (s : Session) (name source : String) (value : Value) :
    Except (List Violation) (Module × Session) :=
  (Module.ofValue source value).map fun module =>
    (module,
      { s with
        modules := s.modules ++ [module]
        moduleNames := (name, s.modules.length) :: s.moduleNames })

/-- Replaces the modules at some positions. -/
def store (modules : List Module) (updates : List (Nat × Module)) : List Module :=
  updates.foldl (fun all update => all.set update.1 update.2) modules

/-- Whether there are modules at all of some positions. -/
def canLoad (s : Session) (positions : List Nat) : Bool :=
  positions.all fun position => position < s.modules.length

/-- Loads the modules at some positions together under a name. -/
def loadAt (s : Session) (name : String) (positions : List Nat) : Codebase × Session :=
  let linked := (s.codebaseAt positions).link
  (linked,
    { s with
      modules := store s.modules (positions.zip linked.modules)
      loads := (name, positions) :: s.loads })

/-- Loads modules together under a name. -/
def load (s : Session) (name : String) (moduleNames : List String) : Codebase × Session :=
  s.loadAt name (moduleNames.filterMap fun moduleName => s.moduleNames.lookup moduleName)

/-! ## Methods and facts -/

/-- The place of a method of a named module. -/
def place? (s : Session) (name : String) (type method : Nat) : Option MethodPlace :=
  (s.moduleNames.lookup name).map fun position => ⟨position, type, method⟩

/-- The method at a place, as it is now. -/
def method? (s : Session) (place : MethodPlace) : Option Method := do
  let module ← s.modules[place.module]?
  let type ← module.types[place.type]?
  type.methods[place.method]?

/-- The facts about a body: those that are kept, or else those of the method
itself. -/
def facts (s : Session) (place : MethodPlace) (m : Method) : BodyFacts :=
  (s.known.lookup place).getD m.facts

/-- Asks for the facts about the method at a place. -/
def learn (s : Session) (place : MethodPlace) : Session :=
  match s.known.lookup place, s.method? place with
  | none, some m => { s with known := (place, m.facts) :: s.known }
  | _, _ => s

/-- Written form of the opcode categories of a method. -/
def summarize (s : Session) (place : MethodPlace) : Option (String × Session) :=
  (s.method? place).map fun m => ((s.facts place m).opcodes.text, s.learn place)

/-- Position of the producer of a receiver, and whether it is the method's
own instance. -/
def trace (s : Session) (place : MethodPlace) (index : Nat) :
    Option ((Option Nat × Bool) × Session) :=
  (s.method? place).map fun m =>
    let targets := (s.facts place m).targets
    ((m.producer? targets index, m.consumesSelf targets index), s.learn place)

/-! ## Findings -/

/-- The findings that a collector holds. -/
def collected (s : Session) (collector : String) : List Finding :=
  (s.collectors.lookup collector).getD []

/-- Sets what a collector holds. -/
def setCollected (s : Session) (collector : String) (findings : List Finding) : Session :=
  { s with collectors := (collector, findings) :: s.collectors.filter (·.1 ≠ collector) }

/-- Hands findings to a collector, if one is named. -/
def collect (s : Session) (collector : Option String) (findings : List Finding) : Session :=
  match collector with
  | some name => s.setCollected name (s.collected name ++ findings)
  | none => s

/-! ## Checks and runs -/

/-- Puts a rule to one method in the context of the modules at some
positions. -/
def checkAt (s : Session) (positions : List Nat) (place : MethodPlace) (rule : Rule)
    (collector : Option String) : Option (Inspection × Session) :=
  (s.method? place).map fun m =>
    let inspection := rule.inspect (s.codebaseAt positions).context (s.facts place m) m
    (inspection, (s.learn place).collect collector inspection.findings)

/-- Puts a rule to one method in the context of a load. -/
def check (s : Session) (load : String) (place : MethodPlace) (rule : Rule)
    (collector : Option String) : Option (Inspection × Session) :=
  (s.loads.lookup load).bind fun positions => s.checkAt positions place rule collector

/-- Every place of a method of the modules at some positions. -/
def places (s : Session) (positions : List Nat) : List MethodPlace :=
  positions.flatMap fun position =>
    ((s.modules[position]?).toList.flatMap Module.types).zipIdx.flatMap fun (type, j) =>
      (List.range type.methods.length).map fun k => ⟨position, j, k⟩

/-- What is known about the modules at some positions, which a run numbers
from zero on. -/
def factsAt (s : Session) (positions : List Nat) : FactSource := fun place m =>
  s.facts { place with module := positions.getD place.module 0 } m

/-- Runs rules over the modules at some positions. -/
def runAt (s : Session) (positions : List Nat) (rules : List Rule) (settings : Settings)
    (collector : Option String) : RunResult × Session :=
  let result := (s.codebaseAt positions).runWith (s.factsAt positions) rules settings
  (result, ((s.places positions).foldl learn s).collect collector result.findings)

/-- Runs rules over a load. -/
def run (s : Session) (load : String) (rules : List Rule) (settings : Settings)
    (collector : Option String) : Option (RunResult × Session) :=
  (s.loads.lookup load).map fun positions => s.runAt positions rules settings collector

/-! ## Histories -/

/-- Something that can happen in a session. Modules are meant by their
positions, so that those whose names have been given again are meant too. -/
inductive Step where
  | decode (name source : String) (value : Value)
  | load (name : String) (positions : List Nat)
  | summarize (place : MethodPlace)
  | trace (place : MethodPlace) (index : Nat)
  | check (positions : List Nat) (place : MethodPlace) (rule : Rule) (collector : Option String)
  | run (positions : List Nat) (rules : List Rule) (settings : Settings)
      (collector : Option String)
  | report (collector : String) (findings : List Finding)
  | clear (collector : String)
  | verbose (on : Bool)

/-- The session behind a step. What is no dump is not kept, and modules or
methods that are not there cannot be loaded or looked at. -/
def perform (s : Session) : Step → Session
  | .decode name source value =>
    match s.decode name source value with
    | .ok (_, after) => after
    | .error _ => s
  | .load name positions => if s.canLoad positions then (s.loadAt name positions).2 else s
  | .summarize place => (s.summarize place).elim s Prod.snd
  | .trace place index => (s.trace place index).elim s Prod.snd
  | .check positions place rule collector =>
    (s.checkAt positions place rule collector).elim s Prod.snd
  | .run positions rules settings collector => (s.runAt positions rules settings collector).2
  | .report collector findings => s.collect (some collector) findings
  | .clear collector => s.setCollected collector []
  | .verbose on => { s with verbose := on }

/-- The session behind a history. -/
def after (history : List Step) : Session := history.foldl perform empty

end Session

end DisposalAudit
