import DisposalAudit.Text.Units

/-!
# Suggestions for misspelt names

A name that is not known may be a known one misspelt. The distance of two
names is the number of units that are inserted, deleted or replaced, or
swapped with their neighbour, no stretch being edited twice. The nearest
names are suggested, if they are near enough.

## Main definitions

* `Suggestion.distance` — the distance of two sequences.
* `Suggestion.nearest` — the names to suggest.
* `Suggestion.text` — what is said about them.
-/

namespace DisposalAudit.Suggestion

/-! ## Distance -/

section Distance

variable {α : Type} [DecidableEq α]

/-- The distances of a sequence that ends in `x` from the prefixes of
another, given those of the sequence without `x`. What stands in front of
`x` may be swapped with it; `older` holds the distances without both. -/
def cells (x : α) (front : Option α) (left : Nat) (last : Option α) :
    List α → List Nat → List Nat → List Nat
  | y :: rest, diagonal :: above :: row, older =>
    let edited := min (min (above + 1) (left + 1)) (diagonal + if x = y then 0 else 1)
    let swapped := front = some y ∧ last = some x
    let cell := if swapped then min edited (older.headD 0 + 1) else edited
    cell :: cells x front cell (some y) rest (above :: row) (older.drop 1)
  | _, _, _ => []

/-- The distances of a sequence from the prefixes of another, from the row
for the part of it that has been read. -/
def finalRow (other : List α) : List α → Option α → List Nat → List Nat → List Nat
  | [], _, _, row => row
  | x :: rest, front, older, row =>
    let first := row.headD 0 + 1
    finalRow other rest (some x) row (first :: cells x front first none other row (0 :: older))

/-- The distance of two sequences. -/
def distance (a b : List α) : Nat :=
  ((finalRow b a none [] (List.range (b.length + 1))).getLast?).getD 0

end Distance

/-! ## Suggestions -/

/-- The greatest distance at which a name is suggested. -/
def reach : Nat := 3

/-- Whether a name is similar enough to another at some distance: more than
two fifths of the longer one are alike. -/
def isSimilar (length distance : Nat) : Bool := 2 * length < 5 * (length - distance)

/-- The known names that are nearest to a name, in order, if any is near
enough. Names of one letter are never suggested. -/
def nearest (name : List UInt16) (known : List (List UInt16)) : List (List UInt16) :=
  let near := known.filterMap fun other =>
    let d := distance name other
    if 1 < other.length ∧ d ≤ reach ∧ isSimilar (max name.length other.length) d then
      some (d, other)
    else none
  let least := near.foldl (fun least pair => min least pair.1) reach
  ((near.filter fun pair => pair.1 = least).map Prod.snd).mergeSort Text.listLE

/-- What is said about a name that is not known: nothing, or on a line of
its own which names may have been meant. Two hyphens in front of an option
are no part of its name. -/
def text (name : String) (known : List String) : String :=
  let skipped := if name.toList.take 2 = ['-', '-'] then 2 else 0
  let names := known.eraseDups.map fun other => (Text.units other).drop skipped
  let front := String.ofList (List.replicate skipped '-')
  match (nearest ((Text.units name).drop skipped) names).map fun other =>
    front ++ Text.ofUnits other with
  | [] => ""
  | [only] => "\n(Did you mean " ++ only ++ "?)"
  | several => "\n(Did you mean one of " ++ ", ".intercalate several ++ "?)"

end DisposalAudit.Suggestion
