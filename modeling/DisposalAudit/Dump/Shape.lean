import DisposalAudit.Value

/-!
# Shapes of document values

A shape says what a document may hold at a place. A value that does not
have its shape is answered with every violation at once, each with the path
of the value that it concerns.

A value of the wrong kind is one violation, and nothing below it is looked
at. A record is judged in three steps: the members it lacks, the members it
must not have, and then the members it has, in the order of the shape.

## Main definitions

* `Shape` — texts, truth values, counts, choices, lists and records.
* `Violation` — a fault and the path of the value.
* `Shape.violations` — all violations of a value, in reporting order.
-/

namespace DisposalAudit

/-- What a document may hold at a place. -/
inductive Shape where
  /-- A text, possibly one that must not be empty. -/
  | text (nonempty : Bool)
  /-- A truth value. -/
  | bool
  /-- An integer that is not negative. A number need not be finite, so the
  infinity above all integers is taken for one. -/
  | count
  /-- One of some texts. -/
  | choice (names : List String)
  /-- A list of one shape, possibly one that must not be empty. -/
  | list (nonempty : Bool) (item : Shape)
  /-- A record with the named members and no others; a member is required
  or optional. -/
  | record (fields : List (String × Bool × Shape))

/-- What is wrong with a value. -/
inductive ShapeFault where
  | wrongKind (expected : String)
  | negative
  | emptyText
  | emptyList
  | noChoice
  | missing (name : String)
  | unknownMember
  deriving DecidableEq

/-- Description of a fault. -/
def ShapeFault.text : ShapeFault → String
  | wrongKind expected => "must be " ++ expected
  | negative => "must be >= 0"
  | emptyText => "must NOT have fewer than 1 characters"
  | emptyList => "must NOT have fewer than 1 items"
  | noChoice => "must be equal to one of the allowed values"
  | missing name => "must have required property '" ++ name ++ "'"
  | unknownMember => "must NOT have additional properties"

/-- One step from a value to a part of it. -/
inductive PathStep where
  | member (name : String)
  | item (index : Nat)
  deriving DecidableEq

/-- Written form of a step. -/
def PathStep.text : PathStep → String
  | member name => name
  | item index => toString index

/-- A fault, and where the value stands. -/
structure Violation where
  /-- Steps from the root to the value. -/
  path : List PathStep
  fault : ShapeFault
  deriving DecidableEq

namespace Violation

/-- Written form of a path. -/
def pathText : List PathStep → String
  | [] => "/"
  | steps => String.join (steps.map fun step => "/" ++ step.text)

/-- Path and description. -/
def text (v : Violation) : String := pathText v.path ++ " " ++ v.fault.text

end Violation

namespace Shape

/-- Members that a record has to have and lacks, in the order of the
shape. -/
def missing (path : List PathStep) (fields : List (String × Bool × Shape)) (members : Members) :
    List Violation :=
  (fields.filter fun field => field.2.1 && (Members.get? members field.1).isNone).map fun field =>
    ⟨path, .missing field.1⟩

/-- Members that a record must not have. -/
def unknown (path : List PathStep) (fields : List (String × Bool × Shape)) (members : Members) :
    List Violation :=
  (members.filter fun member => !(fields.any fun field => field.1 = member.1)).map fun _ =>
    ⟨path, .unknownMember⟩

mutual

/-- All violations of a value that stands at a path. -/
def violations (path : List PathStep) : Shape → Value → List Violation
  | .text nonempty, .text s => if nonempty && s.isEmpty then [⟨path, .emptyText⟩] else []
  | .text _, _ => [⟨path, .wrongKind "string"⟩]
  | .bool, .bool _ => []
  | .bool, _ => [⟨path, .wrongKind "boolean"⟩]
  | .count, .number n =>
    (if n.isWhole then [] else [⟨path, .wrongKind "integer"⟩]) ++
      (if n.isNonnegative then [] else [⟨path, .negative⟩])
  | .count, _ => [⟨path, .wrongKind "integer"⟩]
  | .choice names, .text s => if names.contains s then [] else [⟨path, .noChoice⟩]
  | .choice _, _ => [⟨path, .noChoice⟩]
  | .list nonempty item, .list values =>
    (if nonempty && values.isEmpty then [⟨path, .emptyList⟩] else []) ++
      values.zipIdx.flatMap fun (value, index) => item.violations (path ++ [.item index]) value
  | .list _ _, _ => [⟨path, .wrongKind "array"⟩]
  | .record fields, .record members =>
    missing path fields members ++ unknown path fields members ++
      fieldViolations path members fields
  | .record _, _ => [⟨path, .wrongKind "object"⟩]

/-- Violations inside the members that a record has, in the order of the
shape. -/
def fieldViolations (path : List PathStep) (members : Members) :
    List (String × Bool × Shape) → List Violation
  | [] => []
  | (name, _, shape) :: rest =>
    (match Members.get? members name with
      | some value => shape.violations (path ++ [.member name]) value
      | none => []) ++ fieldViolations path members rest

end

end Shape

end DisposalAudit
