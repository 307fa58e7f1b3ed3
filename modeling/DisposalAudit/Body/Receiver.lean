import DisposalAudit.Body.Method

/-!
# Receivers

The receiver of a call or field access is the deepest value that the
instruction takes off the stack. Its producer is found by walking backward
from the consumer and counting how many values still have to be accounted
for. The walk stays on one straight line of code and gives up whenever the
producer could depend on the path, so that a producer it names is certain.

## Main definitions

* `producerBefore?` — the backward walk.
* `Method.producer?` — position of the instruction that pushed the deepest
  operand of another.
* `Method.consumesSelf` — whether that is the method's own instance.
-/

namespace DisposalAudit

/-- Position of the instruction that pushed the value `pending` places
below the top of the stack before `consumer`, searched in the instructions
before it, nearest first.

The walk ends without an answer at a branch target, whose stack depends on
the path; behind an instruction that does not fall through; at an unknown
stack effect; and where an instruction pushed the value together with
values below it. -/
def producerBefore? (targets : List Number) (pending : Number) (consumer : Instruction) :
    List Instruction → Option Nat
  | [] => none
  | producer :: earlier =>
    if targets.contains consumer.offset then none
    else if !producer.flow.fallsThrough then none
    else
      match producer.stackEffect? with
      | none => none
      | some effect =>
        let left := pending - effect.push
        if left = 0 then some earlier.length
        else if left < 0 then none
        else producerBefore? targets (left + effect.pop) producer earlier

namespace Method

/-- Position of the instruction that pushed the deepest operand of the
instruction at `index`, given the branch targets of the body. -/
def producer? (m : Method) (targets : List Number) (index : Nat) : Option Nat :=
  match m.body[index]? with
  | none => none
  | some consumer =>
    match consumer.stackEffect? with
    | none => none
    | some effect =>
      if effect.pop = 0 then none
      else producerBefore? targets effect.pop consumer (m.body.take index).reverse

/-- Whether the receiver of the instruction at `index` is certainly the
method's own instance. -/
def consumesSelf (m : Method) (targets : List Number) (index : Nat) : Bool :=
  !m.flags.isStatic &&
    match (m.producer? targets index).bind (m.body[·]?) with
    | some producer => producer.opcode = some .loadSelf
    | none => false

end Method

end DisposalAudit
