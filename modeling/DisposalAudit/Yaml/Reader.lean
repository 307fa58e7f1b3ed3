import DisposalAudit.Yaml.Structure

/-!
# Reading YAML

A text holds one document. Comments and directives may stand before it;
a marker of three hyphens starts it, and must be there behind directives; a
marker of three dots ends it, and nothing but comments and directives may
follow.

## Main definitions

* `Yaml.Document`, `Yaml.document?` — the document of a text.
* `Yaml.read?` — its value.
* `Yaml.readers` — readers that say the same of every faulty text.
-/

namespace DisposalAudit.Yaml

/-! ## Lines -/

/-- A text with a line feed alone for every pair of a carriage return and a
line feed. -/
def joinBreaks : List Char → List Char
  | '\r' :: '\n' :: rest => '\n' :: joinBreaks rest
  | c :: rest => c :: joinBreaks rest
  | [] => []

/-- The lines of a text without the byte order mark in front. -/
def lines (text : String) : List (List Char) :=
  let chars := match text.toList with
    | '\uFEFF' :: rest => rest
    | chars => chars
  (joinBreaks chars).splitOn '\n'

/-- Whether a line is a marker of three equal characters. -/
def isMarker (mark : Char) (line : List Char) : Bool :=
  line.take 3 == [mark, mark, mark] && standsAlone false (line.drop 3)

/-- Whether a line is empty or a comment. -/
def isComment (line : List Char) : Bool :=
  match trimStart line with
  | [] => true
  | c :: _ => c == '#'

/-! ## Directives -/

/-- The handles of tags, and what they stand for. -/
abbrev Handles := List (String × String)

/-- The words of a directive line, without a comment. -/
def words (line : List Char) : List (List Char) :=
  ((line.splitOnP isBlank).filter fun word => !word.isEmpty).takeWhile fun word =>
    word.head? != some '#'

/-- Whether a word is a version: digits on both sides of a point. -/
def isVersion (word : List Char) : Bool :=
  let whole := word.takeWhile Char.isDigit
  match word.drop whole.length with
  | '.' :: fraction => !whole.isEmpty && !fraction.isEmpty && fraction.all Char.isDigit
  | _ => false

/-- The handles after a directive. A version has one part and a handle two;
other directives are passed over. -/
def directive? (handles : Handles) (line : List Char) : Option Handles :=
  match (words line).map String.ofList with
  | ["%YAML", version] => if isVersion version.toList then some handles else none
  | "%YAML" :: _ => none
  | ["%TAG", handle, start] => some ((handle, start) :: handles)
  | "%TAG" :: _ => none
  | _ => some handles

/-! ## Documents -/

/-- A document. -/
structure Document where
  handles : Handles
  /-- Whether it starts on the line of its marker. -/
  marked : Bool
  source : Remaining

/-- Whether the lines behind a document hold no other one. -/
def endsWith (lines : List (List Char)) : Bool :=
  let isEnd (line : List Char) : Bool := isMarker '.' line && nothingFollows (line.drop 3)
  match lines with
  | [] => true
  | line :: rest =>
    isEnd line && rest.all fun line => isEnd line || isComment line || line.head? == some '%'

/-- A document that starts with some lines. -/
def body? (handles : Handles) (marked : Bool) (line : List Char) (below : List (List Char)) :
    Option Document :=
  let inside (line : List Char) : Bool := !isMarker '-' line && !isMarker '.' line
  if endsWith (below.dropWhile inside) then
    some ⟨handles, marked, line, below.takeWhile inside⟩
  else none

/-- The document of some lines, behind directives or not. -/
def document? (handles : Handles) (directed : Bool) : List (List Char) → Option Document
  | [] => if directed then none else some ⟨handles, false, [], []⟩
  | line :: below =>
    if isMarker '-' line then body? handles true (line.drop 3) below
    else if isMarker '.' line then none
    else if line.head? = some '%' then
      (directive? handles line).bind fun handles => document? handles true below
    else if isComment line then document? handles directed below
    else if directed then none
    else body? handles false [] (line :: below)

/-- The handles that need no directive. -/
def Handles.standard : Handles := [("!!", "tag:yaml.org,2002:")]

/-- The value of a YAML text, or `none` if it is not one. -/
def read? (text : String) : Option Value := do
  let document ← document? .standard false (lines text)
  let node ← node? document.handles (← tokens? document.marked document.source)
  pure node.value

/-- Readers of documents that say the same of every text with a fault. What
is known of YAML here is its core schema without directives that change it:
a document of version 1.1, and the tags of sets, ordered maps and binary
texts, are read as if they were not there. -/
def readers (fault : String) : Readers where
  yaml text := (read? text).elim (.error fault) .ok
  jsonFault _ := fault

end DisposalAudit.Yaml
