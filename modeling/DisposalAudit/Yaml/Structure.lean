import DisposalAudit.Yaml.Node
import DisposalAudit.Yaml.Token

/-!
# Structure of a document

Tokens are put together by a machine whose stack holds the collections that
are still open. A token that stands less deep than a block collection closes
it; a scalar becomes a key when a colon follows it on its line.

## Main definitions

* `Yaml.Slot` — what has been written where a node is expected.
* `Yaml.Frame` — an open collection.
* `Yaml.Structure` — the open collections around a slot.
* `Yaml.Structure.step?` — one token.
* `Yaml.node?` — the node that tokens describe.
-/

namespace DisposalAudit.Yaml

/-! ## Slots -/

/-- What has been written where a node is expected. Properties on an earlier
line are kept apart, because they belong to a record whose first key stands
on the later line. -/
structure Slot where
  outer : Props
  inner : Props
  content : Option Content
  /-- The first token on the line on which the content, or the inner
  properties, start. -/
  opener : Option Token
  /-- The line on which the content ends. -/
  lastLine : Nat

namespace Slot

/-- Nothing written yet. -/
def empty : Slot := ⟨.none, .none, none, none, 0⟩

/-- Whether nothing is written yet. -/
def isEmpty (s : Slot) : Bool := s.outer.isEmpty && s.inner.isEmpty && s.content.isNone

/-- A block collection with its properties. -/
def ofCollection (props : Props) (node : Node) : Slot :=
  { empty with outer := props, content := some (.collection node) }

/-- The slot when a token is added to it on some line. -/
def onLineOf? (s : Slot) (token : Token) : Option Slot :=
  if s.opener.any fun o => o.line = token.line then some s
  else
    (s.outer.merge? s.inner).map fun outer =>
      { s with outer := outer, inner := .none, opener := some token }

/-- Adds properties, which come before the content. -/
def addProps? (s : Slot) (token : Token) (props : Props) : Option Slot :=
  if s.content.isSome then none
  else do
    let s ← s.onLineOf? token
    let inner ← s.inner.merge? props
    pure { s with inner }

/-- Adds the content, of which there is one. -/
def addContent? (s : Slot) (token : Token) (content : Content) : Option Slot :=
  if s.content.isSome then none
  else (s.onLineOf? token).map fun s => { s with content, lastLine := token.lastLine }

/-- How far behind the start of a key its colon may stand. -/
def keyReach : Nat := 1024

/-- Whether a colon follows what is written on the one line that it
takes. -/
def isKeyBefore (s : Slot) (colon : Token) : Bool :=
  (s.opener.any fun o => o.line = colon.line ∧ colon.column ≤ o.column + keyReach) &&
    (s.content.isNone || s.lastLine = colon.line)

/-- The node that is written. -/
def node? (s : Slot) (anchors : Anchors) : Option (Node × Anchors) :=
  (s.outer.merge? s.inner).bind fun props => Content.node? s.content props anchors

end Slot

/-! ## Open collections -/

/-- Where a block record stands. -/
inductive Place where
  /-- At a key that needs a colon behind it. -/
  | key
  /-- At a key behind its sign. -/
  | signedKey
  /-- At the value of a key, on the line of whose colon no block collection
  may start. -/
  | value (key : Node) (line : Option Nat)

/-- How far an entry of a flow collection has come. -/
structure FlowEntry where
  /-- Whether it starts with the sign of a key. -/
  signed : Bool
  /-- The key, if a colon stands behind it. -/
  key : Option Node

/-- A collection that is not closed yet. Items and entries are kept newest
first. -/
inductive Frame where
  | list (column : Nat) (props : Props) (items : List Node)
  | record (column : Nat) (props : Props) (entries : List Entry) (place : Place)
  /-- A list in brackets, and the slot that it fills. -/
  | flowList (slot : Slot) (items : List Node) (entry : FlowEntry)
  /-- A record in braces, and the slot that it fills. -/
  | flowRecord (slot : Slot) (entries : List Entry) (entry : FlowEntry)

/-- The open collections, innermost first, around the slot of the node that
is being written. -/
structure Structure where
  frames : List Frame
  slot : Slot
  anchors : Anchors

namespace Frame

/-- Closes a block collection whose last node is in the slot. -/
def close? (frame : Frame) (slot : Slot) (anchors : Anchors) : Option (Slot × Anchors) := do
  let (node, anchors) ← slot.node? anchors
  let record (props : Props) (entries : List Entry) : Slot × Anchors :=
    (.ofCollection props (.record entries.reverse), anchors)
  match frame with
  | list _ props items => pure (.ofCollection props (.list (node :: items).reverse), anchors)
  | .record _ props entries .signedKey =>
    (Node.consDistinct? entries node .missing).map (record props)
  | .record _ props entries (.value key _) =>
    (Node.consDistinct? entries key node).map (record props)
  | _ => none

/-- Whether a token closes a collection. The items of a list may stand at
the column of the key whose value it is. -/
def closesBefore (frame : Frame) (token : Token) : Bool :=
  match frame, token.lexeme with
  | list column _ _, .dash => token.indent < column
  | list column _ _, _ => token.indent ≤ column
  | record column _ _ _, _ => token.indent < column
  | _, _ => false

end Frame

namespace Structure

/-- Nothing read yet. -/
def start : Structure := ⟨[], .empty, []⟩

/-- Closes block collections as long as they pass a test. -/
def closeWhile? (test : Frame → Bool) : List Frame → Slot → Anchors → Option Structure
  | [], slot, anchors => some ⟨[], slot, anchors⟩
  | frame :: frames, slot, anchors =>
    if test frame then
      (frame.close? slot anchors).bind fun (slot, anchors) =>
        closeWhile? test frames slot anchors
    else some ⟨frame :: frames, slot, anchors⟩

/-- Writes to the slot. -/
def fill? (s : Structure) (slot : Option Slot) : Option Structure :=
  slot.map fun slot => { s with slot }

/-- Opens a collection, with an empty slot. -/
def push (s : Structure) (frame : Frame) : Structure :=
  { s with frames := frame :: s.frames, slot := .empty }

/-- Opens a collection in brackets or braces. -/
def openFlow? (s : Structure) (token : Token) (frame : Slot → Frame) : Option Structure :=
  if s.slot.content.isSome then none
  else (s.slot.onLineOf? token).map fun slot => s.push (frame slot)

/-! ### Block collections -/

/-- The column of the innermost block collection. -/
def column (s : Structure) : Nat :=
  match s.frames with
  | .list column _ _ :: _ => column
  | .record column _ _ _ :: _ => column
  | _ => 0

/-- Whether a tab stands where only spaces may indent. -/
def isTabbed (s : Structure) (token : Token) : Bool :=
  token.tab.any fun indent =>
    match token.lexeme with
    | .dash | .question | .colon | .anchor _ | .tag _ => true
    | .openList | .openRecord => !s.frames.isEmpty && indent ≤ s.column
    | _ => indent ≤ s.column

/-- Whether a block collection may start with a token. -/
def mayOpen (s : Structure) (token : Token) : Bool :=
  token.first && token.tab.isNone &&
    match s.frames with
    | .record _ _ _ (.value _ line) :: _ => line != some token.line
    | _ => true

/-- Opens a block collection whose sign stands in front. -/
def openBlock? (s : Structure) (token : Token) (frame : Nat → Props → Frame) :
    Option Structure :=
  if s.slot.content.isSome ∨ !s.mayOpen token then none
  else (s.slot.outer.merge? s.slot.inner).map fun props => s.push (frame token.indent props)

/-- The colon behind a key: one that the innermost record waits for, or the
first of a record that starts with it. -/
def colon? (s : Structure) (token : Token) : Option Structure := do
  match s.frames with
  | .record column props entries .key :: frames =>
    if !s.slot.isKeyBefore token ∨ !s.slot.outer.isEmpty then none
    let (key, anchors) ← s.slot.node? s.anchors
    pure ⟨.record column props entries (.value key token.line) :: frames, .empty, anchors⟩
  | _ =>
    if s.slot.isKeyBefore token then
      let opener ← s.slot.opener
      if !s.mayOpen opener then none
      let (key, anchors) ← { s.slot with outer := .none }.node? s.anchors
      pure
        ⟨.record opener.indent s.slot.outer [] (.value key token.line) :: s.frames, .empty, anchors⟩
    else
      s.openBlock? token fun column props => .record column props [] (.value .missing token.line)

/-- A token behind the column of the innermost collection. -/
def extend? (s : Structure) (handles : List (String × String)) (token : Token) :
    Option Structure :=
  match token.lexeme with
  | .anchor name => s.fill? (s.slot.addProps? token ⟨name, none⟩)
  | .tag source =>
    (Tag.resolve? handles source).bind fun tag =>
      s.fill? (s.slot.addProps? token ⟨none, tag⟩)
  | .plain text => s.fill? (s.slot.addContent? token (.plain text))
  | .text value => s.fill? (s.slot.addContent? token (.text value))
  | .reference name => s.fill? (s.slot.addContent? token (.reference name))
  | .openList => s.openFlow? token fun slot => .flowList slot [] ⟨false, none⟩
  | .openRecord => s.openFlow? token fun slot => .flowRecord slot [] ⟨false, none⟩
  | .dash => s.openBlock? token fun column props => .list column props []
  | .question => s.openBlock? token fun column props => .record column props [] .signedKey
  | .colon => s.colon? token
  | .comma | .closeList | .closeRecord => none

/-- A token at the column of a block record, where an entry starts. -/
def startKey? (s : Structure) (handles : List (String × String)) (column : Nat) (props : Props)
    (entries : List Entry) (frames : List Frame) (token : Token) : Option Structure :=
  let within (place : Place) : Structure :=
    ⟨.record column props entries place :: frames, .empty, s.anchors⟩
  match token.lexeme with
  | .question => some (within .signedKey)
  | .colon => some (within (.value .missing token.line))
  | _ => (within .key).extend? handles token

/-- The first token of a line at the column of a block record. -/
def atRecord? (s : Structure) (handles : List (String × String)) (column : Nat) (props : Props)
    (entries : List Entry) (place : Place) (frames : List Frame) (token : Token) :
    Option Structure := do
  match place, token.lexeme with
  | .key, _ => none
  | _, .dash => s.extend? handles token
  | .signedKey, .colon =>
    let (key, anchors) ← s.slot.node? s.anchors
    pure ⟨.record column props entries (.value key none) :: frames, .empty, anchors⟩
  | .signedKey, _ =>
    let (key, anchors) ← s.slot.node? s.anchors
    let entries ← Node.consDistinct? entries key .missing
    { s with anchors }.startKey? handles column props entries frames token
  | .value key _, _ =>
    let (value, anchors) ← s.slot.node? s.anchors
    let entries ← Node.consDistinct? entries key value
    { s with anchors }.startKey? handles column props entries frames token

/-- A token outside flow collections. -/
def block? (s : Structure) (handles : List (String × String)) (token : Token) :
    Option Structure := do
  let s ← closeWhile? (fun frame => frame.closesBefore token) s.frames s.slot s.anchors
  if s.isTabbed token then none
  match s.frames, token.lexeme with
  | .list column props items :: frames, .dash =>
    if token.indent = column then
      let (item, anchors) ← s.slot.node? s.anchors
      pure ⟨.list column props (item :: items) :: frames, .empty, anchors⟩
    else s.extend? handles token
  | .record column props entries place :: frames, _ =>
    if token.first ∧ token.indent = column then
      s.atRecord? handles column props entries place frames token
    else s.extend? handles token
  | _, _ => s.extend? handles token

/-! ### Flow collections -/

/-- Whether an entry has not been started. -/
def isBlankEntry (s : Structure) (entry : FlowEntry) : Bool :=
  !entry.signed && entry.key.isNone && s.slot.isEmpty

/-- The nodes of an entry. -/
def pair? (s : Structure) (entry : FlowEntry) : Option (Entry × Anchors) :=
  (s.slot.node? s.anchors).map fun (node, anchors) =>
    match entry.key with
    | some key => ((key, node), anchors)
    | none => ((node, .missing), anchors)

/-- Adds the entry that has been started to a list. An entry with a key is a
record of its own. -/
def addItem? (s : Structure) (items : List Node) (entry : FlowEntry) :
    Option (List Node × Anchors) :=
  (s.pair? entry).map fun (pair, anchors) =>
    let item := if entry.signed ∨ entry.key.isSome then Node.record [pair] else pair.1
    (item :: items, anchors)

/-- Adds the entry that has been started to a record. -/
def addPair? (s : Structure) (entries : List Entry) (entry : FlowEntry) :
    Option (List Entry × Anchors) :=
  (s.pair? entry).bind fun ((key, value), anchors) =>
    (Node.consDistinct? entries key value).map fun entries => (entries, anchors)

/-- A slot that a flow collection has filled. -/
def filled (slot : Slot) (token : Token) (node : Node) : Slot :=
  { slot with content := some (.collection node), lastLine := token.lastLine }

/-- The comma, the end, the sign of a key or the colon of a list in
brackets. -/
def inFlowList? (s : Structure) (slot : Slot) (items : List Node) (entry : FlowEntry)
    (frames : List Frame) (token : Token) : Option Structure := do
  match token.lexeme with
  | .comma =>
    if s.isBlankEntry entry then none
    let (items, anchors) ← s.addItem? items entry
    pure ⟨.flowList slot items ⟨false, none⟩ :: frames, .empty, anchors⟩
  | .closeList =>
    let (items, anchors) ←
      if s.isBlankEntry entry then some (items, s.anchors) else s.addItem? items entry
    pure ⟨frames, filled slot token (.list items.reverse), anchors⟩
  | .question =>
    if !s.isBlankEntry entry then none
    pure ⟨.flowList slot items ⟨true, none⟩ :: frames, .empty, s.anchors⟩
  | .colon =>
    if entry.key.isSome then none
    if !(entry.signed || s.slot.isEmpty || s.slot.isKeyBefore token) then none
    let (key, anchors) ← s.slot.node? s.anchors
    pure ⟨.flowList slot items { entry with key } :: frames, .empty, anchors⟩
  | _ => none

/-- The comma, the end, the sign of a key or the colon of a record in
braces. -/
def inFlowRecord? (s : Structure) (slot : Slot) (entries : List Entry) (entry : FlowEntry)
    (frames : List Frame) (token : Token) : Option Structure := do
  match token.lexeme with
  | .comma =>
    if s.isBlankEntry entry then none
    let (entries, anchors) ← s.addPair? entries entry
    pure ⟨.flowRecord slot entries ⟨false, none⟩ :: frames, .empty, anchors⟩
  | .closeRecord =>
    let (entries, anchors) ←
      if s.isBlankEntry entry then some (entries, s.anchors) else s.addPair? entries entry
    pure ⟨frames, filled slot token (.record entries.reverse), anchors⟩
  | .question =>
    if !s.isBlankEntry entry then none
    pure ⟨.flowRecord slot entries ⟨true, none⟩ :: frames, .empty, s.anchors⟩
  | .colon =>
    if entry.key.isSome then none
    let (key, anchors) ← s.slot.node? s.anchors
    pure ⟨.flowRecord slot entries { entry with key } :: frames, .empty, anchors⟩
  | _ => none

/-! ### Tokens -/

/-- Whether a token writes to the slot of a flow collection. -/
def isFlowContent : Lexeme → Bool
  | .anchor _ | .tag _ | .reference _ | .plain _ | .text _ | .openList | .openRecord => true
  | _ => false

/-- One token read, if the grammar allows it. -/
def step? (handles : List (String × String)) (s : Structure) (token : Token) :
    Option Structure :=
  match s.frames with
  | .flowList slot items entry :: frames =>
    if isFlowContent token.lexeme then s.extend? handles token
    else s.inFlowList? slot items entry frames token
  | .flowRecord slot entries entry :: frames =>
    if isFlowContent token.lexeme then s.extend? handles token
    else s.inFlowRecord? slot entries entry frames token
  | _ => s.block? handles token

/-- The node of a whole document. -/
def finish? (s : Structure) : Option Node := do
  let s ← closeWhile? (fun _ => true) s.frames s.slot s.anchors
  let (node, _) ← s.slot.node? s.anchors
  pure node

end Structure

/-- The node that tokens describe, if they describe one. -/
def node? (handles : List (String × String)) (tokens : List Token) : Option Node :=
  (tokens.foldlM (Structure.step? handles) .start).bind Structure.finish?

end DisposalAudit.Yaml
