/-!
# Wildcard patterns

A wildcard pattern is a sequence of two kinds of part: one letter of a
class, or a run of any length of letters of a class. Whether it matches a
whole text is decided for all suffixes of the text at once, one part of the
pattern after the other from the last to the first, so that the time taken
is the product of the two lengths however many runs there are.

## Main definitions

* `Wildcard` — a part of a pattern.
* `Wildcard.matchesAll` — whether a pattern matches a whole text.

## Main results

* `Wildcard.matchesAll_nil`, `Wildcard.matchesAll_one`,
  `Wildcard.matchesAll_run` — what the empty pattern and each kind of part
  match.
-/

namespace DisposalAudit

/-- A part of a pattern over letters of some type. -/
inductive Wildcard (α : Type) where
  /-- One letter of a class. -/
  | one (accepts : α → Bool)
  /-- Any number of letters of a class. -/
  | run (accepts : α → Bool)

namespace Wildcard

variable {α : Type}

/-- For every suffix of a text, longest first, whether a part followed by a
pattern matches it, given the same for the pattern alone. -/
def row (part : Wildcard α) : List α → List Bool → List Bool
  | [], rest =>
    match part with
    | one _ => [false]
    | run _ => rest
  | letter :: text, rest =>
    match part with
    | one accepts => (accepts letter && (rest.drop 1).headD false) :: row part text (rest.drop 1)
    | run accepts =>
      let shorter := row part text (rest.drop 1)
      (rest.headD false || (accepts letter && shorter.headD false)) :: shorter

/-- For every suffix of a text, longest first, whether a pattern matches
it. -/
def table (text : List α) : List (Wildcard α) → List Bool
  | [] => text.map (fun _ => false) ++ [true]
  | part :: pattern => row part text (table text pattern)

/-- Whether a pattern matches a whole text. -/
def matchesAll (pattern : List (Wildcard α)) (text : List α) : Bool :=
  (table text pattern).headD false

/-! ## What a pattern matches -/

/-- The answers for a longer text begin with one more answer. -/
theorem exists_table_cons (letter : α) (text : List α) (pattern : List (Wildcard α)) :
    ∃ answer, table (letter :: text) pattern = answer :: table text pattern := by
  induction pattern with
  | nil => exact ⟨false, rfl⟩
  | cons part pattern ih =>
    obtain ⟨answer, h⟩ := ih
    cases part <;> exact ⟨_, by simp only [table, h, row, List.drop_succ_cons, List.drop_zero]; rfl⟩

@[simp] theorem matchesAll_nil (text : List α) : matchesAll [] text = text.isEmpty := by
  cases text <;> rfl

theorem matchesAll_one_cons (accepts : α → Bool) (pattern : List (Wildcard α)) (letter : α)
    (rest : List α) :
    matchesAll (one accepts :: pattern) (letter :: rest) =
      (accepts letter && matchesAll pattern rest) := by
  obtain ⟨answer, h⟩ := exists_table_cons letter rest pattern
  simp [matchesAll, table, row, h]

theorem matchesAll_run_cons (accepts : α → Bool) (pattern : List (Wildcard α)) (letter : α)
    (rest : List α) :
    matchesAll (run accepts :: pattern) (letter :: rest) =
      (matchesAll pattern (letter :: rest) ||
        (accepts letter && matchesAll (run accepts :: pattern) rest)) := by
  obtain ⟨answer, h⟩ := exists_table_cons letter rest pattern
  simp [matchesAll, table, row, h]

/-- One letter of a class comes first. -/
theorem matchesAll_one (accepts : α → Bool) (pattern : List (Wildcard α)) (text : List α) :
    matchesAll (one accepts :: pattern) text = true ↔
      ∃ letter rest, text = letter :: rest ∧ accepts letter = true ∧
        matchesAll pattern rest = true := by
  cases text with
  | nil => simp [matchesAll, table, row]
  | cons letter rest =>
    rw [matchesAll_one_cons, Bool.and_eq_true]
    constructor
    · rintro ⟨ha, hp⟩
      exact ⟨letter, rest, rfl, ha, hp⟩
    · rintro ⟨_, _, same, ha, hp⟩
      obtain ⟨rfl, rfl⟩ := List.cons.inj same
      exact ⟨ha, hp⟩

/-- A run of letters of a class comes first. -/
theorem matchesAll_run (accepts : α → Bool) (pattern : List (Wildcard α)) (text : List α) :
    matchesAll (run accepts :: pattern) text = true ↔
      ∃ front back, text = front ++ back ∧ front.all accepts = true ∧
        matchesAll pattern back = true := by
  induction text with
  | nil =>
    have h : matchesAll (run accepts :: pattern) [] = matchesAll pattern [] := by
      simp [matchesAll, table, row]
    rw [h]
    constructor
    · intro hp
      exact ⟨[], [], rfl, rfl, hp⟩
    · rintro ⟨front, back, split, _, hp⟩
      obtain ⟨rfl, rfl⟩ := List.append_eq_nil_iff.1 split.symm
      exact hp
  | cons letter rest ih =>
    rw [matchesAll_run_cons, Bool.or_eq_true, Bool.and_eq_true, ih]
    constructor
    · rintro (hp | ⟨ha, front, back, rfl, hall, hp⟩)
      · exact ⟨[], letter :: rest, rfl, rfl, hp⟩
      · exact ⟨letter :: front, back, rfl, by simp [ha, hall], hp⟩
    · rintro ⟨front, back, split, hall, hp⟩
      cases front with
      | nil => exact .inl (by rwa [split])
      | cons first front =>
        simp only [List.cons_append, List.cons.injEq] at split
        simp only [List.all_cons, Bool.and_eq_true] at hall
        exact .inr ⟨split.1 ▸ hall.1, front, back, split.2, hall.2, hp⟩

end Wildcard

end DisposalAudit
