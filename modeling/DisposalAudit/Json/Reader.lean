import DisposalAudit.Json.Token

/-!
# Reading JSON

A JSON text is read token by token by a machine whose stack holds the lists
and records that are still open, so the depth of a document is bounded by
nothing but its length.

## Main definitions

* `Json.Frame` — an open list or record.
* `Json.Expect` — what may come next, over the stack of frames.
* `Json.Expect.step` — one token.
* `Json.read?` — the value of a text, if it is JSON.
-/

namespace DisposalAudit.Json

/-- A list or record that is not closed yet. -/
inductive Frame where
  /-- Items so far, newest first. -/
  | list (items : List Value)
  /-- Members so far, and the name whose value is being read. -/
  | entry (members : Members) (key : String)

/-- What the grammar allows next. -/
inductive Expect where
  /-- A value. -/
  | value (stack : List Frame)
  /-- The first item of a list, or its end. -/
  | firstItem (stack : List Frame)
  /-- The first name of a record, or its end. -/
  | firstName (stack : List Frame)
  /-- Another name, after a comma. -/
  | nextName (members : Members) (stack : List Frame)
  /-- The colon behind a name. -/
  | colon (members : Members) (key : String) (stack : List Frame)
  /-- A value is complete: a comma, the end of what encloses it, or the end
  of the text. -/
  | complete (value : Value) (stack : List Frame)

namespace Expect

/-- A token where a value has to start. -/
def startValue (stack : List Frame) : Token → Option Expect
  | .text s => some (.complete (.text s) stack)
  | .word v => some (.complete v stack)
  | .openList => some (.firstItem stack)
  | .openRecord => some (.firstName stack)
  | _ => none

/-- One token read, if the grammar allows it. -/
def step : Expect → Token → Option Expect
  | .value stack, token => startValue stack token
  | .firstItem stack, .closeList => some (.complete (.list []) stack)
  | .firstItem stack, token => startValue (.list [] :: stack) token
  | .firstName stack, .closeRecord => some (.complete (.record []) stack)
  | .firstName stack, .text s => some (.colon [] s stack)
  | .nextName members stack, .text s => some (.colon members s stack)
  | .colon members key stack, .colon => some (.value (.entry members key :: stack))
  | .complete v (.list items :: stack), .comma => some (.value (.list (v :: items) :: stack))
  | .complete v (.list items :: stack), .closeList =>
    some (.complete (.list (v :: items).reverse) stack)
  | .complete v (.entry members key :: stack), .comma =>
    some (.nextName (Members.insert members key v) stack)
  | .complete v (.entry members key :: stack), .closeRecord =>
    some (.complete (.record (Members.insert members key v)) stack)
  | _, _ => none

end Expect

/-- The value of a JSON text, or `none` if it is not one. -/
def read? (text : String) : Option Value := do
  match ← (← tokens? text).foldlM Expect.step (.value []) with
  | .complete value [] => some value
  | _ => none

end DisposalAudit.Json
