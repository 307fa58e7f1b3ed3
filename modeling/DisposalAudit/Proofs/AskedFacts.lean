import DisposalAudit.Rule.DisposedGuard
import DisposalAudit.Run
import DisposalAudit.Settings.Basic

/-!
# Facts that are asked for

The facts about a body are asked for one at a time and only where they are
needed: the opcodes when a rule has to know whether there is anything to look
at, the targets when a receiver is traced. A computation of this kind is
written here with its questions, and what it comes to is what the definition
that is handed the facts comes to.

## Main definitions

* `Asking` — computations that may ask for the facts about methods.
* `Asking.plainly` — the outcome if every fact is computed when it is asked
  for.
* `Asking.About` — only methods that are there are asked about.
* `Method.askProducer`, `Method.askSelf`, `GuardOptions.askInspect` — receivers
  and the guard rule, with their questions.
* `AskingRule`, `askingGuard` — rules of this kind.
* `Settings.askingRules` — the registered rules, with their questions.

## Main results

* `GuardOptions.plainly_askInspect` — the guard rule is such a rule.
* `Settings.askingRules_toRule` — all registered rules are.
-/

namespace DisposalAudit

/-- A computation that may ask for the opcodes or the targets of methods,
which are told with their places. -/
inductive Asking (α : Type) where
  | done (value : α)
  | opcodes (place : MethodPlace) (m : Method) (next : OpcodeSet → Asking α)
  | targets (place : MethodPlace) (m : Method) (next : List Number → Asking α)

namespace Asking

variable {α β : Type}

/-- The outcome if every fact is computed when it is asked for. -/
def plainly : Asking α → α
  | done value => value
  | opcodes _ m next => (next m.opcodes).plainly
  | targets _ m next => (next m.branchTargets).plainly

/-- Only methods are asked about that are at their places. -/
def About (method? : MethodPlace → Option Method) : Asking α → Prop
  | done _ => True
  | opcodes place m next => method? place = some m ∧ ∀ kept, (next kept).About method?
  | targets place m next => method? place = some m ∧ ∀ kept, (next kept).About method?

/-! ## Putting computations together -/

/-- One computation after the other. -/
def bind (asking : Asking α) (next : α → Asking β) : Asking β :=
  match asking with
  | done value => next value
  | opcodes place m rest => .opcodes place m fun kept => (rest kept).bind next
  | targets place m rest => .targets place m fun kept => (rest kept).bind next

/-- A computation with its outcome changed. -/
def map (f : α → β) (asking : Asking α) : Asking β := asking.bind fun value => .done (f value)

/-- A computation for each entry of a list, and all that they yield. -/
def flatMap (step : α → Asking (List β)) : List α → Asking (List β)
  | [] => .done []
  | x :: rest => (step x).bind fun first => (flatMap step rest).map fun others => first ++ others

/-- A fold whose steps may ask. -/
def foldl (step : β → α → Asking β) (state : β) : List α → Asking β
  | [] => .done state
  | x :: rest => (step state x).bind fun next => foldl step next rest

theorem plainly_bind (asking : Asking α) (next : α → Asking β) :
    (asking.bind next).plainly = (next asking.plainly).plainly := by
  induction asking with
  | done value => rfl
  | opcodes place m rest ih => exact ih m.opcodes
  | targets place m rest ih => exact ih m.branchTargets

theorem plainly_map (f : α → β) (asking : Asking α) :
    (asking.map f).plainly = f asking.plainly :=
  plainly_bind asking _

theorem plainly_flatMap (step : α → Asking (List β)) (l : List α) :
    (flatMap step l).plainly = l.flatMap fun x => (step x).plainly := by
  induction l with
  | nil => rfl
  | cons x rest ih => rw [flatMap, plainly_bind, plainly_map, ih, List.flatMap_cons]

theorem plainly_foldl (step : β → α → Asking β) (l : List α) :
    ∀ state, (foldl step state l).plainly =
      l.foldl (fun state x => (step state x).plainly) state := by
  induction l with
  | nil => exact fun _ => rfl
  | cons x rest ih =>
      intro state
      rw [foldl, plainly_bind, ih, List.foldl_cons]

section About

variable {method? : MethodPlace → Option Method}

theorem About.bind {asking : Asking α} {next : α → Asking β} (hasking : asking.About method?)
    (hnext : ∀ value, (next value).About method?) : (asking.bind next).About method? := by
  induction asking with
  | done value => exact hnext value
  | opcodes place m rest ih => exact ⟨hasking.1, fun kept => ih kept (hasking.2 kept)⟩
  | targets place m rest ih => exact ⟨hasking.1, fun kept => ih kept (hasking.2 kept)⟩

theorem About.map {asking : Asking α} (hasking : asking.About method?) (f : α → β) :
    (asking.map f).About method? :=
  hasking.bind fun _ => trivial

theorem About.flatMap {step : α → Asking (List β)} {l : List α}
    (hstep : ∀ x ∈ l, (step x).About method?) : (flatMap step l).About method? := by
  induction l with
  | nil => trivial
  | cons x rest ih =>
      have hrest := ih fun y hy => hstep y (List.mem_cons_of_mem x hy)
      exact (hstep x List.mem_cons_self).bind fun first => hrest.map _

theorem About.foldl {step : β → α → Asking β} (hstep : ∀ state x, (step state x).About method?)
    (l : List α) : ∀ state, (foldl step state l).About method? := by
  induction l with
  | nil => exact fun _ => trivial
  | cons x rest ih => exact fun state => (hstep state x).bind ih

end About

end Asking

/-! ## Receivers -/

namespace Method

variable (m : Method) (place : MethodPlace) (index : Nat)

/-- The producer of a receiver. The targets are asked for if the instruction
is there and takes a value. -/
def askProducer : Asking (Option Nat) :=
  match m.body[index]? with
  | none => .done none
  | some consumer =>
    match consumer.stackEffect? with
    | none => .done none
    | some effect =>
      if effect.pop = 0 then .done none
      else .targets place m fun targets =>
        .done (producerBefore? targets effect.pop consumer (m.body.take index).reverse)

/-- Whether a receiver is certainly the method's own instance. Nothing is
asked for if the method has none. -/
def askSelf : Asking Bool :=
  if m.flags.isStatic then .done false
  else (m.askProducer place index).map fun producer =>
    match producer.bind (m.body[·]?) with
    | some producer => producer.opcode = some .loadSelf
    | none => false

theorem plainly_askProducer :
    (m.askProducer place index).plainly = m.producer? m.branchTargets index := by
  unfold askProducer producer?
  cases m.body[index]? with
  | none => rfl
  | some consumer =>
      dsimp only
      cases consumer.stackEffect? with
      | none => rfl
      | some effect =>
          dsimp only
          split <;> rfl

theorem plainly_askSelf :
    (m.askSelf place index).plainly = m.consumesSelf m.branchTargets index := by
  unfold askSelf consumesSelf
  cases m.flags.isStatic with
  | true => rfl
  | false =>
      show ((m.askProducer place index).map _).plainly = _
      rw [Asking.plainly_map, plainly_askProducer]
      rfl

variable {m place} {method? : MethodPlace → Option Method}

theorem about_askProducer (hm : method? place = some m) :
    (m.askProducer place index).About method? := by
  unfold askProducer
  cases m.body[index]? with
  | none => trivial
  | some consumer =>
      dsimp only
      cases consumer.stackEffect? with
      | none => trivial
      | some effect =>
          dsimp only
          split
          · trivial
          · exact ⟨hm, fun _ => trivial⟩

theorem about_askSelf (hm : method? place = some m) : (m.askSelf place index).About method? := by
  unfold askSelf
  split
  · trivial
  · exact (about_askProducer index hm).map _

end Method

/-! ## The guard rule -/

namespace GuardOptions

variable (options : GuardOptions) (context : RuleContext) (place : MethodPlace) (m : Method)

/-- Whether an instruction shows a signal. The receiver is traced last. -/
def askShows (signal : Signal) (index : Nat) (ins : Instruction) : Asking Bool :=
  match signal, ins.operand with
  | .selfCall, .method ref =>
    if ins.opcode.any Opcode.isCall &&
        (context.resolve? ref).any (isHiddenMember m.declaringType) then
      m.askSelf place index
    else .done false
  | .helperCall, .method ref =>
    .done (ins.opcode.any Opcode.isCall && options.isHelperName ref.name)
  | .selfField, .field ref =>
    if ins.opcode.any Opcode.isFieldAccess && ref.declaringType = m.declaringType then
      m.askSelf place index
    else .done false
  | .guardConstruction, .method ref =>
    .done (ins.opcode = some .construct && ref.declaringType = options.guardException)
  | _, _ => .done false

/-- What one instruction adds to the signals seen. -/
def askSight (seen : List (Signal × Number)) (entry : Instruction × Nat) :
    Asking (List (Signal × Number)) :=
  (Asking.flatMap (fun signal =>
    if seen.any fun sighting => sighting.1 = signal then .done []
    else (options.askShows context place m signal entry.2 entry.1).map fun shown =>
      if shown then [(signal, entry.1.offset)] else []) Signal.all).map fun fresh => seen ++ fresh

/-- Whether the rule concerns a method. The opcodes of methods that are not
public are not asked for. -/
def askEligible : Asking Bool :=
  if m.flags.isPublic then
    .opcodes place m fun opcodes => .done
      (opcodes.intersects .callsAndFields &&
        context.implements m.declaringType options.lifecycleInterface && options.mayThrow m)
  else .done false

/-- What the rule says of a body in which it has seen some signals. -/
def conclude (seen : List (Signal × Number)) : Inspection :=
  let trace :=
    "-----------------------------------------" :: m.signature ::
      seen.map fun (signal, offset) => signal.describe offset
  let log := trace.map fun message => RuleEvent.logged (entry .debug message)
  if isViolation (seen.map Prod.fst) then ⟨log ++ [.reported (options.finding m)], .ok .failure⟩
  else ⟨log, .ok .success⟩

/-- The inspection of one method. -/
def askInspect : Asking Inspection :=
  if m.body.isEmpty then .done (.pure .doesNotApply)
  else if m.flags.isGenerated || context.isGenerated m then .done (.pure .doesNotApply)
  else (options.askEligible context place m).bind fun eligible =>
    if !eligible then .done (.pure .doesNotApply)
    else
      match m.firstFlaw? with
      | some flaw => .done
        ⟨[.logged (entry .warning ("skipping " ++ m.signature ++ ": " ++ flaw.message))],
          .ok .skipped⟩
      | none =>
        (Asking.foldl (options.askSight context place m) [] m.body.zipIdx).map
          (options.conclude m)

theorem plainly_askShows (signal : Signal) (index : Nat) (ins : Instruction) :
    (options.askShows context place m signal index ins).plainly =
      options.shows context m.facts m signal index ins := by
  have hself (needed : Bool) :
      (if needed then m.askSelf place index else .done false).plainly =
        (needed && m.consumesSelf m.branchTargets index) := by
    cases needed with
    | true => exact m.plainly_askSelf place index
    | false => rfl
  obtain ⟨offset, opcode, operand, flow, stack, mnemonic⟩ := ins
  cases signal <;> cases operand <;> first | rfl | exact hself _

theorem plainly_askSight (seen : List (Signal × Number)) (entry : Instruction × Nat) :
    (options.askSight context place m seen entry).plainly =
      options.sight context m.facts m seen entry := by
  have hsignal (signal : Signal) :
      (if seen.any fun sighting => sighting.1 = signal then Asking.done []
        else (options.askShows context place m signal entry.2 entry.1).map fun shown =>
          if shown then [(signal, entry.1.offset)] else []).plainly =
        if !(seen.any fun sighting => sighting.1 = signal) &&
            options.shows context m.facts m signal entry.2 entry.1 then
          [(signal, entry.1.offset)]
        else [] := by
    cases seen.any fun sighting => sighting.1 = signal with
    | true => rfl
    | false =>
        rw [if_neg Bool.false_ne_true, Asking.plainly_map, plainly_askShows, Bool.not_false,
          Bool.true_and]
  have hfresh (signals : List Signal) (p : Signal → Bool) :
      (signals.flatMap fun signal => if p signal then [(signal, entry.1.offset)] else []) =
        (signals.filter p).map fun signal => (signal, entry.1.offset) := by
    induction signals with
    | nil => rfl
    | cons signal rest ih =>
        rw [List.flatMap_cons, ih, List.filter_cons]
        cases p signal <;> rfl
  rw [askSight, Asking.plainly_map, Asking.plainly_flatMap]
  simp only [hsignal, hfresh]
  rfl

theorem plainly_askEligible :
    (options.askEligible context place m).plainly = options.isEligible context m.facts m := by
  unfold askEligible isEligible
  cases m.flags.isPublic <;> rfl

/-- **The guard rule with its questions is the guard rule.** -/
theorem plainly_askInspect :
    (options.askInspect context place m).plainly = options.inspect context m.facts m := by
  have hscan : (Asking.foldl (options.askSight context place m) [] m.body.zipIdx).plainly =
      options.sightings context m.facts m := by
    rw [Asking.plainly_foldl]
    simp only [plainly_askSight]
    rfl
  unfold askInspect inspect
  split
  · rfl
  split
  · rfl
  rw [Asking.plainly_bind, plainly_askEligible]
  split
  · rfl
  cases m.firstFlaw? with
  | some flaw => rfl
  | none =>
      dsimp only
      rw [Asking.plainly_map, hscan]
      rfl

variable {place m} {method? : MethodPlace → Option Method}

theorem about_askShows (hm : method? place = some m) (signal : Signal) (index : Nat)
    (ins : Instruction) : (options.askShows context place m signal index ins).About method? := by
  have hself (needed : Bool) :
      (if needed then m.askSelf place index else .done false).About method? := by
    cases needed with
    | true => exact Method.about_askSelf index hm
    | false => trivial
  obtain ⟨offset, opcode, operand, flow, stack, mnemonic⟩ := ins
  cases signal <;> cases operand <;> first | trivial | exact hself _

theorem about_askSight (hm : method? place = some m) (seen : List (Signal × Number))
    (entry : Instruction × Nat) : (options.askSight context place m seen entry).About method? := by
  refine Asking.About.map (Asking.About.flatMap fun signal _ => ?_) _
  split
  · trivial
  · exact (options.about_askShows context hm signal entry.2 entry.1).map _

/-- The rule asks about the method that it is put to. -/
theorem about_askInspect (hm : method? place = some m) :
    (options.askInspect context place m).About method? := by
  have heligible : (options.askEligible context place m).About method? := by
    unfold askEligible
    split
    · exact ⟨hm, fun _ => trivial⟩
    · trivial
  unfold askInspect
  split
  · trivial
  split
  · trivial
  refine heligible.bind fun eligible => ?_
  split
  · trivial
  cases m.firstFlaw? with
  | some flaw => trivial
  | none => exact (Asking.About.foldl (options.about_askSight context hm) _ _).map _

end GuardOptions

/-! ## Rules -/

/-- A rule that asks for the facts that it needs, about the method that it is
put to. -/
structure AskingRule extends Rule where
  ask : RuleContext → MethodPlace → Method → Asking Inspection
  plainly_ask : ∀ context place m, (ask context place m).plainly = inspect context m.facts m
  about_ask : ∀ (method? : MethodPlace → Option Method) context place m, method? place = some m →
    (ask context place m).About method?

/-- The guard rule with its questions. -/
def askingGuard (options : GuardOptions) : AskingRule where
  toRule := disposedGuard options
  ask := options.askInspect
  plainly_ask := options.plainly_askInspect
  about_ask _ context _ _ hm := options.about_askInspect context hm

/-- The registered rules under some settings, with their questions. -/
def Settings.askingRules (settings : Settings) : List AskingRule :=
  [askingGuard ((settings.overrides.bind RuleOverrides.disposedGuard).getD .none).apply]

theorem Settings.askingRules_toRule (settings : Settings) :
    settings.askingRules.map AskingRule.toRule = settings.rules := rfl

end DisposalAudit
