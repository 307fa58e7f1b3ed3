import DisposalAudit.Json.Printer
import DisposalAudit.Yaml.Scalar

/-!
# Nodes

A node is finished when its value is known. Anchors name finished nodes, and
references repeat them; how much a document may repeat is bounded, so that a
short text cannot stand for a huge value.

## Main definitions

* `Yaml.Node` — a finished node.
* `Yaml.Node.list`, `Yaml.Node.record?` — nodes of collections; the keys of
  a record that are written as scalars have to differ.
* `Yaml.Anchors.refer?` — the node that a reference repeats.
-/

namespace DisposalAudit.Yaml

/-- A finished node. -/
structure Node where
  value : Value
  /-- Whether it is written as a scalar, and not a reference to one. -/
  scalar : Bool
  /-- How often its most repeated part has been repeated. -/
  weight : Nat

/-- A key with its value. -/
abbrev Entry := Node × Node

namespace Node

/-- A scalar. -/
def ofScalar (value : Value) : Node := ⟨value, true, 1⟩

/-- What stands where nothing is written. -/
def missing : Node := ofScalar .null

/-- A list of nodes. -/
def list (items : List Node) : Node :=
  ⟨.list (items.map Node.value), false, (items.map Node.weight).foldl max 0⟩

/-- Whether two scalars are the same key. Numbers are compared as numbers,
and what is not a number differs from itself. -/
def sameScalar : Value → Value → Bool
  | .null, .null => true
  | .bool a, .bool b => a == b
  | .number a, .number b => a = b ∧ a ≠ .nan
  | .text a, .text b => a == b
  | _, _ => false

/-- The name under which the value of a key is kept. -/
def keyText : Value → String
  | .null => ""
  | .bool b => if b then "true" else "false"
  | .number n => n.text
  | .text s => s
  | value => Json.compact value

/-- A record of entries. A name that two keys come to keeps the last
value. -/
def record (entries : List Entry) : Node :=
  let put (members : Members) (e : Entry) : Members :=
    Members.insert members (keyText e.1.value) e.2.value
  ⟨.record (entries.foldl put []), false,
    (entries.map fun e => max e.1.weight e.2.weight).foldl max 0⟩

/-- Puts an entry in front of others, unless its key is among them. -/
def consDistinct? (entries : List Entry) (key value : Node) : Option (List Entry) :=
  let same (e : Entry) : Bool := e.1.scalar && key.scalar && sameScalar e.1.value key.value
  if entries.any same then none else some ((key, value) :: entries)

end Node

/-! ## Anchors -/

/-- A node with a name, and how often it stands in the document. -/
structure Anchored where
  node : Node
  count : Nat

/-- The anchors of a document, newest first. -/
abbrev Anchors := List (String × Anchored)

namespace Anchors

/-- How often a part of a document may be repeated. -/
def repetitionLimit : Nat := 100

/-- Names a node. An anchor may be given again to a later node. -/
def define (anchors : Anchors) (name : String) (node : Node) : Anchors :=
  (name, ⟨node, 1⟩) :: anchors

/-- The node that a reference repeats. -/
def refer? (anchors : Anchors) (name : String) : Option (Node × Anchors) :=
  (anchors.lookup name).bind fun anchored =>
    let count := anchored.count + 1
    let weight := count * anchored.node.weight
    if repetitionLimit < weight then none
    else some (⟨anchored.node.value, false, weight⟩, (name, { anchored with count }) :: anchors)

end Anchors

/-! ## Properties -/

/-- What stands in front of a node. -/
structure Props where
  anchor : Option String
  tag : Option Tag

namespace Props

/-- No properties. -/
def none : Props := ⟨.none, .none⟩

/-- Whether there are no properties. -/
def isEmpty (p : Props) : Bool := p.anchor.isNone && p.tag.isNone

/-- Properties from two places. There may be one anchor and one tag. -/
def merge? (p q : Props) : Option Props :=
  if (p.anchor.isSome ∧ q.anchor.isSome) ∨ (p.tag.isSome ∧ q.tag.isSome) then .none
  else some ⟨p.anchor <|> q.anchor, p.tag <|> q.tag⟩

end Props

/-- What has been written of a node. -/
inductive Content where
  | plain (text : List Char)
  /-- A quoted or block text. -/
  | text (value : String)
  | reference (name : String)
  | collection (node : Node)

/-- The node of a content with properties, or of properties alone. A
reference takes none. -/
def Content.node? (content : Option Content) (props : Props) (anchors : Anchors) :
    Option (Node × Anchors) :=
  let named (node : Node) : Option (Node × Anchors) :=
    some (node, props.anchor.elim anchors fun name => anchors.define name node)
  match content with
  | some (.reference name) => if props.isEmpty then anchors.refer? name else none
  | some (.collection node) => named node
  | some (.plain chars) => named (.ofScalar (props.tag.elim (plainScalar chars) (·.scalar chars)))
  | some (.text value) =>
    named (.ofScalar (props.tag.elim (.text value) (·.scalar value.toList)))
  | none => named (.ofScalar (props.tag.elim .null (·.scalar [])))

end DisposalAudit.Yaml
