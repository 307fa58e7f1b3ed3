import DisposalAudit.Body.Receiver
import DisposalAudit.Body.Validity
import DisposalAudit.MethodPattern
import DisposalAudit.Rule.Basic

/-!
# The guard against use after disposal

A public method of a disposable type has to throw the guard exception once
the object has been disposed. A method breaks the rule if it touches the
state of its own instance (a field of its type, or a method of its type
that is neither public nor static, reached through the instance itself) and
neither constructs the guard exception nor calls a helper whose name says
that it makes the check.

Constructors, finalizers, property getters, event accessors, the methods
that every object has, closing, and disposal itself are exempt.

## Main definitions

* `GuardOptions` — the names that the rule looks for.
* `Signal`, `GuardOptions.shows` — what a single instruction can show.
* `GuardOptions.sightings` — the first instruction that shows each signal.
* `GuardOptions.isEligible` — whether the rule concerns a method.
* `disposedGuard` — the rule.
-/

namespace DisposalAudit

/-- The names that the rule looks for. -/
structure GuardOptions where
  /-- Interface of disposable types. -/
  lifecycleInterface : String
  /-- Exception that a disposed object should throw. -/
  guardException : String
  /-- Name of disposal itself. -/
  disposeMethod : String
  /-- Parts that the name of a checking helper has, all of them. -/
  helperNameFragments : List String
  deriving DecidableEq, Inhabited

/-- The names of the platform. -/
def GuardOptions.standard : GuardOptions where
  lifecycleInterface := "System.IDisposable"
  guardException := "System.ObjectDisposedException"
  disposeMethod := "Dispose"
  helperNameFragments := ["Check", "Dispose"]

/-- What an instruction can show about its method. -/
inductive Signal where
  | selfCall
  | helperCall
  | selfField
  | guardConstruction
  deriving DecidableEq

namespace Signal

/-- Every signal, in the order in which one instruction shows them. -/
def all : List Signal := [selfCall, helperCall, selfField, guardConstruction]

/-- Log text of a signal first seen at an offset. -/
def describe (signal : Signal) (offset : Number) : String :=
  let event := match signal with
    | selfCall => "found non-public this call"
    | helperCall => "found dispose check"
    | selfField => "found field access"
    | guardConstruction => "creates exception"
  event ++ " at " ++ offsetLabel offset

end Signal

/-- Identifier of the rule. -/
def disposedGuardId : String := "use-object-disposed-exception"

namespace GuardOptions

variable (options : GuardOptions)

/-- Whether a name says that a method makes the check. Without fragments no
name does. -/
def isHelperName (name : String) : Bool :=
  !options.helperNameFragments.isEmpty &&
    options.helperNameFragments.all fun part => Text.contains name part

/-! ## Signals -/

/-- Whether a callee is hidden state of a type: an instance method of the
type that is not public. -/
def isHiddenMember (ownType : String) (callee : Callee) : Bool :=
  !callee.isPublic && !callee.isStatic && callee.declaringType = ownType

/-- Whether the instruction at a position shows a signal. -/
def shows (context : RuleContext) (facts : BodyFacts) (m : Method) (signal : Signal)
    (index : Nat) (ins : Instruction) : Bool :=
  match signal, ins.operand with
  | .selfCall, .method ref =>
    ins.opcode.any Opcode.isCall &&
      (context.resolve? ref).any (isHiddenMember m.declaringType) &&
      m.consumesSelf facts.targets index
  | .helperCall, .method ref => ins.opcode.any Opcode.isCall && options.isHelperName ref.name
  | .selfField, .field ref =>
    ins.opcode.any Opcode.isFieldAccess && ref.declaringType = m.declaringType &&
      m.consumesSelf facts.targets index
  | .guardConstruction, .method ref =>
    ins.opcode = some .construct && ref.declaringType = options.guardException
  | _, _ => false

/-- Signals with the offset of the instruction that first shows them. One
instruction is read after those that have been read already; a signal that
has been seen is not looked for again. -/
def sight (context : RuleContext) (facts : BodyFacts) (m : Method)
    (seen : List (Signal × Number)) (entry : Instruction × Nat) : List (Signal × Number) :=
  let fresh := Signal.all.filter fun signal =>
    !(seen.any fun sighting => sighting.1 = signal) &&
      options.shows context facts m signal entry.2 entry.1
  seen ++ fresh.map fun signal => (signal, entry.1.offset)

/-- Every signal of a body with the offset of the instruction that first
shows it, in the order of those instructions. -/
def sightings (context : RuleContext) (facts : BodyFacts) (m : Method) :
    List (Signal × Number) :=
  m.body.zipIdx.foldl (options.sight context facts m) []

/-! ## Eligible methods -/

/-- Whether a method is one of those that may throw. -/
def mayThrow (m : Method) : Bool :=
  !(m.flags.isConstructor || m.flags.isFinalizer || MethodPattern.finalize.accepts m ||
    m.flags.isPropertyGetter || m.flags.isEventAccessor ||
    MethodPattern.equals.accepts m || MethodPattern.getHashCode.accepts m ||
    MethodPattern.toText.accepts m || MethodPattern.close.accepts m) &&
  m.name ≠ options.disposeMethod

/-- Whether the rule concerns a method: public, touching calls or fields,
declared on a disposable type, and not exempt. -/
def isEligible (context : RuleContext) (facts : BodyFacts) (m : Method) : Bool :=
  m.flags.isPublic && facts.opcodes.intersects .callsAndFields &&
    context.implements m.declaringType options.lifecycleInterface && options.mayThrow m

/-! ## The inspection -/

/-- A log entry of this rule. -/
def entry (level : LogLevel) (message : String) : LogEntry := ⟨"dispose-guard", level, message⟩

/-- The finding on a method that breaks the rule. -/
def finding (m : Method) : Finding where
  rule := disposedGuardId
  type := m.declaringType
  method := m.name
  signature := m.signature
  severity := .medium
  confidence := .high
  message := m.name ++ " uses instance state but never throws " ++ options.guardException

/-- Whether signals amount to a use of instance state without a guard. -/
def isViolation (seen : List Signal) : Bool :=
  (seen.contains .selfCall || seen.contains .selfField) &&
    !seen.contains .guardConstruction && !seen.contains .helperCall

/-- The inspection of one method. -/
def inspect (context : RuleContext) (facts : BodyFacts) (m : Method) : Inspection :=
  if m.body.isEmpty then .pure .doesNotApply
  else if m.flags.isGenerated || context.isGenerated m then .pure .doesNotApply
  else if !options.isEligible context facts m then .pure .doesNotApply
  else
    match m.firstFlaw? with
    | some flaw =>
      ⟨[.logged (entry .warning ("skipping " ++ m.signature ++ ": " ++ flaw.message))],
        .ok .skipped⟩
    | none =>
      let seen := options.sightings context facts m
      let trace :=
        "-----------------------------------------" :: m.signature ::
          seen.map fun (signal, offset) => signal.describe offset
      let log := trace.map fun message => RuleEvent.logged (entry .debug message)
      if isViolation (seen.map Prod.fst) then
        ⟨log ++ [.reported (options.finding m)], .ok .failure⟩
      else ⟨log, .ok .success⟩

end GuardOptions

/-- The rule with some options. -/
def disposedGuard (options : GuardOptions) : Rule where
  id := disposedGuardId
  problem := "A method of a disposable type does not throw the guard exception after disposal."
  solution := "Throw the guard exception from public methods once the object has been disposed."
  inspect := options.inspect

end DisposalAudit
