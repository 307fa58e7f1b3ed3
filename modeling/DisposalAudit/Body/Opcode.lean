import DisposalAudit.Number.Numeral
import DisposalAudit.Text.Units

/-!
# Opcode categories and sets of them

An audit tells eight kinds of instruction apart; everything that is none of
the first seven is `other`. A set of categories is the summary of a method
body by which most methods are passed over without a walk. It is one
integer mask with a bit for each category, and all that is done to a mask
is done to its lowest 32 bits, read back as a signed number.

## Main definitions

* `Opcode` — the categories, with their written names.
* `OpcodeSet` — sets of categories: `contains`, `insert`, `ofList`,
  `intersects`.
* `OpcodeSet.callsAndFields` — the categories that touch an object's state.
-/

namespace DisposalAudit

/-- A category of instructions. -/
inductive Opcode where
  | callDirect
  | callVirtual
  | loadField
  | storeField
  | loadFieldAddress
  | construct
  | loadSelf
  | other
  deriving DecidableEq, Inhabited

namespace Opcode

/-- Every category, in the order of its bit. -/
def all : List Opcode :=
  [callDirect, callVirtual, loadField, storeField, loadFieldAddress, construct, loadSelf, other]

/-- Written form of a category. -/
def name : Opcode → String
  | callDirect => "invoke-direct"
  | callVirtual => "invoke-virtual"
  | loadField => "load-field"
  | storeField => "store-field"
  | loadFieldAddress => "load-field-address"
  | construct => "construct-object"
  | loadSelf => "load-self"
  | other => "other"

/-- The category of a written form. -/
def ofName? (text : String) : Option Opcode := all.find? fun opcode => opcode.name = text

/-- Both kinds of call. -/
def isCall : Opcode → Bool
  | callDirect | callVirtual => true
  | _ => false

/-- Everything that reads, writes or takes the address of a field. -/
def isFieldAccess : Opcode → Bool
  | loadField | storeField | loadFieldAddress => true
  | _ => false

/-- The category's own bit in a mask. -/
def bit : Opcode → BitVec 32
  | callDirect => 0x01
  | callVirtual => 0x02
  | loadField => 0x04
  | storeField => 0x08
  | loadFieldAddress => 0x10
  | construct => 0x20
  | loadSelf => 0x40
  | other => 0x80

end Opcode

/-- A set of categories. Any integer is a mask. -/
structure OpcodeSet where
  mask : Int
  deriving DecidableEq, Inhabited

namespace OpcodeSet

/-- The bits that count: the lowest 32. -/
def word (s : OpcodeSet) : BitVec 32 := BitVec.ofInt 32 s.mask

/-- The set without members. -/
def empty : OpcodeSet := ⟨0⟩

/-- Membership. -/
def contains (s : OpcodeSet) (opcode : Opcode) : Bool := s.word &&& opcode.bit != 0

/-- The set with one more member. -/
def insert (s : OpcodeSet) (opcode : Opcode) : OpcodeSet := ⟨(s.word ||| opcode.bit).toInt⟩

/-- The set of the listed categories. -/
def ofList (opcodes : List Opcode) : OpcodeSet := opcodes.foldl insert empty

/-- Whether two masks share a bit. -/
def intersects (s t : OpcodeSet) : Bool := s.word &&& t.word != 0

/-- Written form: at least two hexadecimal digits. -/
def text (s : OpcodeSet) : String := "0x" ++ Text.padLeft 2 '0' (Number.hexInt s.mask)

/-- The categories that touch an object's state. -/
def callsAndFields : OpcodeSet :=
  ofList [.callDirect, .callVirtual, .loadField, .storeField, .loadFieldAddress]

end OpcodeSet

end DisposalAudit
