import DisposalAudit.Files.Tree
import DisposalAudit.Text.Units
import DisposalAudit.Text.Wildcard

/-!
# File patterns

A file pattern is a path whose names may hold wildcards: `*` for any run of
units, `?` for one unit, and a class of units in brackets. The name `**`
stands for any number of directories. Alternatives in braces are written out
first. A name with a dot in front is matched only by a dot. Counted
alternatives, groups of names behind a sign, and classes of units by name are
no part of these patterns. The commands themselves take any search.

## Main definitions

* `FilePattern.readings` — a pattern with its alternatives written out.
* `FilePattern.Part`, `FilePattern.parts` — the parts of a name.
* `FilePattern.Segment` — a name of a pattern, or any number of directories.
* `FilePattern.accepts` — whether a pattern read in a directory matches the
  path of a file.
* `FilePattern.found` — the files that a pattern matches.
* `FilePattern.roots` — the directories that hold all files it can match.
-/

namespace DisposalAudit.FilePattern

/-! ## Alternatives -/

/-- Texts that a part of a pattern may be read as. -/
abbrev Readings := List (List Char)

/-- Every reading of one part followed by every reading of another. -/
def Readings.append (first second : Readings) : Readings :=
  first.flatMap fun a => second.map fun b => a ++ b

/-- A pattern that has been read in part: what stands in front of each open
brace with the alternatives behind it, newest first, and the readings since
the last brace or comma. -/
structure Expansion where
  outer : List (Readings × List Readings)
  current : Readings
  /-- Whether the next character stands for itself. -/
  escaped : Bool

namespace Expansion

/-- Nothing read yet. -/
def start : Expansion := ⟨[], [[]], false⟩

/-- A text that is read as it stands. -/
def add (e : Expansion) (text : List Char) : Expansion :=
  { e with current := e.current.map fun reading => reading ++ text }

/-- One character read. Braces around a single alternative stand for
themselves. -/
def step (e : Expansion) (c : Char) : Expansion :=
  if e.escaped then { e.add [c] with escaped := false }
  else
    match c, e.outer with
    | '\\', _ => { e.add ['\\'] with escaped := true }
    | '\x7b', outer => ⟨(e.current, []) :: outer, [[]], false⟩
    | ',', (front, alternatives) :: outer =>
      ⟨(front, e.current :: alternatives) :: outer, [[]], false⟩
    | '\x7d', (front, []) :: outer =>
      ⟨outer, (front.append [['\x7b']]).append (e.current.append [['\x7d']]), false⟩
    | '\x7d', (front, alternatives) :: outer =>
      ⟨outer, front.append (e.current :: alternatives).reverse.flatten, false⟩
    | _, _ => e.add [c]

/-- The readings at the end. Braces that are still open stand for
themselves. -/
def finish (e : Expansion) : Readings :=
  e.outer.foldl (fun current (front, alternatives) =>
    let inside := alternatives.foldl
      (fun behind alternative => alternative.append ((Readings.append [[',']] behind))) current
    (front.append [['\x7b']]).append inside) e.current

end Expansion

/-- A pattern with its alternatives written out. -/
def readings (pattern : String) : Readings :=
  (pattern.toList.foldl Expansion.step .start).finish

/-! ## Names -/

/-- A part of a name. -/
inductive Part where
  /-- One given unit. -/
  | exactly (unit : UInt16)
  /-- One unit. -/
  | any
  /-- Any run of units. -/
  | many
  /-- One unit inside, or outside, some ranges. -/
  | oneOf (ranges : List (UInt16 × UInt16)) (negated : Bool)
  deriving DecidableEq

/-- What a part matches. A class without ranges matches nothing. -/
def Part.wildcard : Part → Wildcard UInt16
  | exactly unit => .one fun u => u == unit
  | any => .one fun _ => true
  | many => .run fun _ => true
  | oneOf ranges negated =>
    .one fun u => !ranges.isEmpty && (ranges.any fun r => r.1 ≤ u && u ≤ r.2) != negated

/-- The characters of a class up to its closing bracket, which is an
ordinary character in front, and the number of characters read. -/
def classChars? : Bool → List Char → Option (List Char × Nat)
  | _, [] => none
  | true, c :: rest => (classChars? false rest).map fun (cs, n) => (c :: cs, n + 1)
  | false, ']' :: _ => some ([], 1)
  | false, '\\' :: c :: rest => (classChars? false rest).map fun (cs, n) => (c :: cs, n + 2)
  | false, c :: rest => (classChars? false rest).map fun (cs, n) => (c :: cs, n + 1)

/-- The ranges of a class. -/
def ranges : List UInt16 → List (UInt16 × UInt16)
  | [] => []
  | [u] => [(u, u)]
  | [u, v] => [(u, u), (v, v)]
  | u :: v :: w :: rest =>
    if v = 0x2D then (if u ≤ w then (u, w) :: ranges rest else ranges rest)
    else (u, u) :: ranges (v :: w :: rest)

/-- A class from behind its opening bracket, and the number of characters
read. One unit in brackets stands for itself. -/
def class? (source : List Char) : Option (Part × Nat) :=
  let negated := source.head? = some '!' ∨ source.head? = some '^'
  let skipped := if negated then 1 else 0
  (classChars? true (source.drop skipped)).map fun (chars, width) =>
    let part := match ranges (chars.flatMap Text.charUnits) with
      | [(u, v)] => if u = v ∧ ¬negated then .exactly u else .oneOf [(u, v)] negated
      | rs => .oneOf rs negated
    (part, width + skipped)

/-- The parts of a name, after some characters that have been read. A
bracket that is never closed stands for itself. -/
def partsFrom : Nat → List Char → List Part
  | _, [] => []
  | read + 1, _ :: rest => partsFrom read rest
  | 0, c :: rest =>
    match c with
    | '*' => .many :: partsFrom 0 rest
    | '?' => .any :: partsFrom 0 rest
    | '[' =>
      match class? rest with
      | some (part, width) => part :: partsFrom width rest
      | none => (Text.charUnits c).map .exactly ++ partsFrom 0 rest
    | '\\' =>
      match rest with
      | next :: _ => (Text.charUnits next).map .exactly ++ partsFrom 1 rest
      | [] => [.exactly 0x5C]
    | _ => (Text.charUnits c).map .exactly ++ partsFrom 0 rest

/-- The parts of a name. -/
def parts (name : List Char) : List Part := partsFrom 0 name

/-! ## Paths -/

/-- The unit that hides a file when it stands in front of its name. -/
def dot : UInt16 := 0x2E

/-- A name of a pattern. -/
inductive Segment where
  /-- Any number of directories, none of them hidden. -/
  | anyDepth
  /-- One name. -/
  | name (parts : List Part)
  deriving DecidableEq

namespace Segment

/-- The segment of a name as it is written. -/
def ofName (written : List Char) : Segment :=
  if written = ['*', '*'] then .anyDepth else .name (parts written)

/-- The segment that a name alone matches. -/
def exactly (name : List Char) : Segment := .name ((name.flatMap Text.charUnits).map .exactly)

/-- Whether the parts of a name match a name. -/
def matchesName (parts : List Part) (name : List UInt16) : Bool :=
  (name.head? != some dot || parts.head? == some (.exactly dot)) &&
    Wildcard.matchesAll (parts.map Part.wildcard) name

/-- What a segment matches. -/
def wildcard : Segment → Wildcard (List UInt16)
  | anyDepth => .run fun name => name.head? != some dot
  | name parts => .one (matchesName parts)

end Segment

/-- The segments of one reading of a pattern in a directory, unless it can
only stand for directories. Two dots take back the name before them. -/
def segments? (directory : String) (reading : List Char) : Option (List Segment) :=
  let written := reading.splitOn '/'
  if [[], ['.'], ['.', '.']].contains (written.getLast?.getD []) then none
  else
    let base := if reading.head? = some '/' then [] else (Path.names directory).map Segment.exactly
    some (written.foldl (fun segments name =>
      if name = [] ∨ name = ['.'] then segments
      else if name = ['.', '.'] then segments.dropLast
      else segments ++ [.ofName name]) base)

/-- Whether a pattern, read in a directory, matches the absolute path of a
file. -/
def accepts (directory pattern path : String) : Bool :=
  let names := (Path.names path).map fun name => name.flatMap Text.charUnits
  (readings pattern).any fun reading =>
    (segments? directory reading).any fun segments =>
      Wildcard.matchesAll (segments.map Segment.wildcard) names

/-- The paths of the files that a pattern, read in a directory, matches. -/
def found (files : FileTree) (directory pattern : String) : List String :=
  (files.map Prod.fst).filter (accepts directory pattern)

/-- The name that a part of a pattern stands for, if it is only one. -/
def Segment.name? : Segment → Option String
  | anyDepth => none
  | name parts => (parts.mapM fun
      | Part.exactly unit => some unit
      | _ => none).map Text.ofUnits

/-- The directories that hold all files that a pattern can match, one for
each of its readings. -/
def roots (directory pattern : String) : List String :=
  (readings pattern).filterMap fun reading =>
    (segments? directory reading).map fun segments =>
      let fixed := segments.dropLast.map Segment.name?
      Path.ofNames ((fixed.takeWhile Option.isSome).filterMap fun name => name.map String.toList)

end DisposalAudit.FilePattern
