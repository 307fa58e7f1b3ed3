import DisposalAudit.Number.Numeral

/-!
# Document values

What a JSON or YAML document says once its notation is gone: null, truth
values, numbers, texts, lists and records. A record keeps its members in
the order in which their names were first written.

## Main definitions

* `Value` — the tree of a document.
* `Members.insert` — writes a member; a name written twice keeps its first
  place and its last value.
* `Members.get?`, `Value.member?` — the value under a name.
* `Members.listing` — members in listing order: names that are array
  indices first, ascending, then all others in the order of writing.
* `Readers` — what the readers of documents answer to a text.

## Main results

* `Members.mem_listing` — listing loses no member and adds none.
-/

namespace DisposalAudit

/-- A document without its notation. -/
inductive Value where
  | null
  | bool (value : Bool)
  | number (value : Number)
  | text (value : String)
  | list (items : List Value)
  | record (members : List (String × Value))
  deriving Inhabited

/-- Members of a record, in order of first appearance. -/
abbrev Members := List (String × Value)

namespace Members

/-- The value under a name. -/
def get? : Members → String → Option Value
  | [], _ => none
  | (n, v) :: rest, name => if n = name then some v else get? rest name

/-- Writes a member in place if its name is there, at the end if not. -/
def insert : Members → String → Value → Members
  | [], name, value => [(name, value)]
  | (n, v) :: rest, name, value =>
    if n = name then (n, value) :: rest else (n, v) :: insert rest name value

theorem get?_append (members others : Members) (name : String) :
    get? (members ++ others) name = (get? members name).or (get? others name) := by
  induction members with
  | nil => rfl
  | cons member rest ih =>
    obtain ⟨n, v⟩ := member
    by_cases h : n = name <;> simp [get?, h, ih]

/-- The array index that a name spells: a natural number below
`2 ^ 32 - 1` in its shortest form. -/
def index? (name : String) : Option Nat :=
  let digits := name.toList
  let n := Numeral.natOfDigits 10 digits
  if digits.all Char.isDigit ∧ digits = Nat.toDigits 10 n ∧ n < Nat.pow 2 32 - 1 then some n
  else none

/-- Members in the order in which the names of a record are listed. -/
def listing (members : Members) : Members :=
  let indexed := members.filter fun m => (index? m.1).isSome
  let named := members.filter fun m => (index? m.1).isNone
  indexed.mergeSort (fun a b => (index? a.1).getD 0 ≤ (index? b.1).getD 0) ++ named

theorem mem_listing {members : Members} {member : String × Value} :
    member ∈ listing members ↔ member ∈ members := by
  rw [listing, List.mem_append, List.mem_mergeSort, List.mem_filter, List.mem_filter,
    ← and_or_left]
  cases index? member.1 <;> simp

end Members

namespace Value

/-- The value under a name, if this is a record that has one. -/
def member? (value : Value) (name : String) : Option Value :=
  match value with
  | .record members => Members.get? members name
  | _ => none

end Value

/-- What the readers of documents answer to a text. -/
structure Readers where
  /-- The value of a YAML text, or what is said if it is none. -/
  yaml : String → Except String Value
  /-- What is said about a text that is not JSON. -/
  jsonFault : String → String

end DisposalAudit
