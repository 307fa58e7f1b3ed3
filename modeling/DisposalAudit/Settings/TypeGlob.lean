import DisposalAudit.Text.Units
import DisposalAudit.Text.Wildcard

/-!
# Globs over type names

A glob over dotted type names, read unit by unit: `**` is any run that
stays on one line, `*` a run within one segment, `?` one unit that is not a
line break, and everything else stands for itself. Of three asterisks the
first two belong together.

The regular expression that stands for a glob is a text, built by
substitution: the glob is cut at the pairs of asterisks, in every piece the
signs of expressions are escaped, asterisks and question marks are replaced
one after the other, and the pieces are joined again. Each substitution is
made in the text that the one before has left, so nothing in the
construction itself says that they do not meddle with each other.

What such a text means is therefore read off the text alone. Of the grammar
of expressions only terms in a row are read, as no other form is needed:
escapes, single units, the dot and excluded classes, each alone or with an
asterisk behind it, between `^` and `$`.

## Main definitions

* `TypeGlob.Token`, `TypeGlob.tokens` — the parts of a glob.
* `TypeGlob.accepts` — whether a glob matches a whole type name.
* `TypeGlob.expression` — the expression of a glob.
* `Expression.read` — the terms of an expression.
* `Expression.Matches` — the texts that some terms match.
-/

namespace DisposalAudit

namespace TypeGlob

/-- A part of a glob. -/
inductive Token where
  /-- Any run on one line. -/
  | across
  /-- Any run without a dot. -/
  | within
  /-- One unit that is not a line break. -/
  | any
  /-- One given unit. -/
  | exactly (unit : UInt16)
  deriving DecidableEq

/-- The units that end a line. -/
def isLineBreak (u : UInt16) : Bool := u == 0x0A || u == 0x0D || u == 0x2028 || u == 0x2029

/-- The parts of a glob, from left to right. -/
def tokens : List UInt16 → List Token
  | [] => []
  | [u] => [lone u]
  | u :: v :: rest =>
    if u = 0x2A ∧ v = 0x2A then .across :: tokens rest else lone u :: tokens (v :: rest)
where
  /-- The part of a unit that does not begin a pair of asterisks. -/
  lone (u : UInt16) : Token :=
    if u = 0x2A then .within else if u = 0x3F then .any else .exactly u

/-- What a part matches. -/
def Token.wildcard : Token → Wildcard UInt16
  | across => .run fun u => !isLineBreak u
  | within => .run fun u => u != 0x2E
  | any => .one fun u => !isLineBreak u
  | exactly unit => .one fun u => u == unit

/-- Whether a glob matches a whole sequence of units. -/
def matchesUnits (glob name : List UInt16) : Bool :=
  Wildcard.matchesAll ((tokens glob).map Token.wildcard) name

/-- Whether a glob matches a whole type name. -/
def accepts (glob name : String) : Bool := matchesUnits (Text.units glob) (Text.units name)

end TypeGlob

/-! ## Reading expressions -/

namespace Expression

/-- What one unit has to be. -/
inductive Atom where
  /-- Anything but the end of a line. -/
  | dot
  /-- One given unit. -/
  | exactly (unit : UInt16)
  /-- Anything but the given units. -/
  | noneOf (units : List UInt16)
  deriving DecidableEq

/-- An atom, once or any number of times. -/
structure Term where
  atom : Atom
  repeated : Bool
  deriving DecidableEq

/-- The units with a meaning of their own: ``^$\.*+?()[]{}|``. -/
def signs : List UInt16 :=
  [0x5E, 0x24, 0x5C, 0x2E, 0x2A, 0x2B, 0x3F, 0x28, 0x29, 0x5B, 0x5D, 0x7B, 0x7D, 0x7C]

/-- The class whose opening bracket has been read, and the text behind it. A
class with escapes or ranges is not read. -/
def readClass : List UInt16 → Option (Atom × List UInt16)
  | [] => none
  | u :: text =>
    let inside := text.takeWhile fun v => v != 0x5D
    if u = 0x5E ∧ 0x5D ∈ text ∧ 0x5C ∉ inside ∧ 0x2D ∉ inside then
      some (.noneOf inside, text.drop (inside.length + 1))
    else none

/-- The atom at the beginning of a text, and the text behind it. -/
def readAtom : List UInt16 → Option (Atom × List UInt16)
  | [] => none
  | u :: text =>
    if u = 0x5C then
      match text with
      | [] => none
      | v :: text => if v ∈ signs then some (.exactly v, text) else none
    else if u = 0x2E then some (.dot, text)
    else if u = 0x5B then readClass text
    else if u ∈ signs then none
    else some (.exactly u, text)

theorem readClass_length {text rest : List UInt16} {atom : Atom}
    (h : readClass text = some (atom, rest)) : rest.length < text.length := by
  cases text with
  | nil => cases h
  | cons u text =>
      simp only [readClass] at h
      split at h
      · obtain ⟨-, rfl⟩ := Prod.mk.inj (Option.some.inj h)
        rw [List.length_drop, List.length_cons]
        omega
      · cases h

theorem readAtom_length {text rest : List UInt16} {atom : Atom}
    (h : readAtom text = some (atom, rest)) : rest.length < text.length := by
  cases text with
  | nil => cases h
  | cons u text =>
      simp only [readAtom] at h
      split at h
      · cases text with
        | nil => cases h
        | cons v text =>
            simp only at h
            split at h
            · obtain ⟨-, rfl⟩ := Prod.mk.inj (Option.some.inj h)
              simp only [List.length_cons]
              omega
            · cases h
      · split at h
        · obtain ⟨-, rfl⟩ := Prod.mk.inj (Option.some.inj h)
          exact Nat.lt_succ_self _
        · split at h
          · exact Nat.lt_succ_of_lt (readClass_length h)
          · split at h
            · cases h
            · obtain ⟨-, rfl⟩ := Prod.mk.inj (Option.some.inj h)
              exact Nat.lt_succ_self _

/-- The terms up to the sign for the end. -/
def readTerms (text : List UInt16) : Option (List Term) :=
  if text = [0x24] then some []
  else
    match _found : readAtom text with
    | none => none
    | some (atom, rest) =>
      if rest.head? = some 0x2A then (readTerms rest.tail).map fun terms => ⟨atom, true⟩ :: terms
      else (readTerms rest).map fun terms => ⟨atom, false⟩ :: terms
termination_by text.length
decreasing_by
  · have := readAtom_length _found
    rw [List.length_tail]
    omega
  · exact readAtom_length _found

theorem readTerms_end : readTerms [0x24] = some [] := by
  rw [readTerms, if_pos rfl]

/-- An asterisk behind an atom belongs to its term. -/
theorem readTerms_of_readAtom {text rest : List UInt16} {atom : Atom}
    (h : readAtom text = some (atom, rest)) :
    readTerms text =
      if rest.head? = some 0x2A then (readTerms rest.tail).map fun terms => ⟨atom, true⟩ :: terms
      else (readTerms rest).map fun terms => ⟨atom, false⟩ :: terms := by
  have hend : text ≠ [0x24] := by
    rintro rfl
    cases h
  rw [readTerms, if_neg hend]
  split
  · rename_i hnone
    exact absurd (h.symm.trans hnone) (by simp)
  · rename_i other behind hsome
    obtain ⟨rfl, rfl⟩ := Prod.mk.inj (Option.some.inj (h.symm.trans hsome))
    rfl

/-- The terms of an expression for whole texts, if it is made of terms
only. -/
def read : List UInt16 → Option (List Term)
  | [] => none
  | u :: text => if u = 0x5E then readTerms text else none

/-! ## What expressions match -/

/-- The units that an atom stands for. -/
def Atom.Accepts : Atom → UInt16 → Prop
  | dot, u => u ∉ [0x0A, 0x0D, 0x2028, 0x2029]
  | exactly unit, u => u = unit
  | noneOf units, u => u ∉ units

/-- Terms match a whole text if it can be cut into what each of them
matches. -/
inductive Matches : List Term → List UInt16 → Prop
  | nil : Matches [] []
  | once {atom : Atom} {terms : List Term} {u : UInt16} {text : List UInt16}
      (accepts : atom.Accepts u) (rest : Matches terms text) :
      Matches (⟨atom, false⟩ :: terms) (u :: text)
  | repeated {atom : Atom} {terms : List Term} {run text : List UInt16}
      (accepts : ∀ u ∈ run, atom.Accepts u) (rest : Matches terms text) :
      Matches (⟨atom, true⟩ :: terms) (run ++ text)

end Expression

/-! ## Writing globs -/

namespace TypeGlob

/-- The pieces of a glob between its pairs of asterisks. -/
def pieces : List UInt16 → List (List UInt16)
  | [] => [[]]
  | [u] => [[u]]
  | u :: v :: rest =>
    if u = 0x2A ∧ v = 0x2A then [] :: pieces rest
    else
      match pieces (v :: rest) with
      | [] => [[u]]
      | first :: others => (u :: first) :: others

/-- A text with a backslash before each sign, asterisks and question marks
apart. -/
def escape (text : List UInt16) : List UInt16 :=
  text.flatMap fun u =>
    if u ∈ Expression.signs ∧ u ≠ 0x2A ∧ u ≠ 0x3F then [0x5C, u] else [u]

/-- A text with another text for each occurrence of a unit. -/
def substitute (unit : UInt16) (replacement : List UInt16) (text : List UInt16) : List UInt16 :=
  text.flatMap fun u => if u = unit then replacement else [u]

/-- The expression of a piece: `[^.]*` for asterisks, then a dot for question
marks. -/
def pieceExpression (piece : List UInt16) : List UInt16 :=
  substitute 0x3F [0x2E] (substitute 0x2A [0x5B, 0x5E, 0x2E, 0x5D, 0x2A] (escape piece))

/-- The expression of a glob: the pieces with `.*` between them. -/
def expression (glob : List UInt16) : List UInt16 :=
  0x5E :: ([0x2E, 0x2A].intercalate ((pieces glob).map pieceExpression) ++ [0x24])

end TypeGlob

end DisposalAudit
