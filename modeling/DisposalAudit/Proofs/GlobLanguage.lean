import DisposalAudit.Settings.TypeGlob

/-!
# The language of globs

Which names a glob stands for is said once without any algorithm, and then
compared with two ways to decide it: the table that is filled in for the
parts of a glob, and the regular expression that the glob is written as.
Both comparisons go through the parts of the glob and the pieces of the name
that they take.

## Main definitions

* `TypeGlob.Denotes` — the names of a glob.

## Main results

* `TypeGlob.read_expression` — the expression of a glob has one term for each
  part of the glob, whatever signs the glob holds.
* `TypeGlob.matchesUnits_decides` — table and expression agree with the
  language.
-/

namespace DisposalAudit.TypeGlob

/-! ## The language -/

/-- A glob stands for a name. Two asterisks are a pair whatever comes behind
them, so an asterisk is alone only if none comes behind it. -/
inductive Denotes : List UInt16 → List UInt16 → Prop
  | nil : Denotes [] []
  | across {run glob name : List UInt16}
      (line : ∀ u ∈ run, u ∉ [0x0A, 0x0D, 0x2028, 0x2029]) (rest : Denotes glob name) :
      Denotes (0x2A :: 0x2A :: glob) (run ++ name)
  | within {run glob name : List UInt16} (alone : glob.head? ≠ some 0x2A)
      (segment : ∀ u ∈ run, u ≠ 0x2E) (rest : Denotes glob name) :
      Denotes (0x2A :: glob) (run ++ name)
  | any {u : UInt16} {glob name : List UInt16}
      (line : u ∉ [0x0A, 0x0D, 0x2028, 0x2029]) (rest : Denotes glob name) :
      Denotes (0x3F :: glob) (u :: name)
  | exactly {u : UInt16} {glob name : List UInt16} (star : u ≠ 0x2A) (mark : u ≠ 0x3F)
      (rest : Denotes glob name) : Denotes (u :: glob) (u :: name)

/-- A part of a glob takes a piece of a name. -/
inductive Token.Takes : Token → List UInt16 → Prop
  | across {run : List UInt16} (line : ∀ u ∈ run, u ∉ [0x0A, 0x0D, 0x2028, 0x2029]) :
      Takes .across run
  | within {run : List UInt16} (segment : ∀ u ∈ run, u ≠ 0x2E) : Takes .within run
  | any {u : UInt16} (line : u ∉ [0x0A, 0x0D, 0x2028, 0x2029]) : Takes .any [u]
  | exactly {u : UInt16} : Takes (.exactly u) [u]

/-- Parts of a glob take a whole name, one piece after the other. -/
inductive Splits : List Token → List UInt16 → Prop
  | nil : Splits [] []
  | cons {token : Token} {tokens : List Token} {piece name : List UInt16}
      (takes : token.Takes piece) (rest : Splits tokens name) :
      Splits (token :: tokens) (piece ++ name)

theorem splits_nil_iff {name : List UInt16} : Splits [] name ↔ name = [] := by
  constructor
  · intro h
    cases h
    rfl
  · rintro rfl
    exact .nil

theorem splits_cons_iff {token : Token} {tokens : List Token} {name : List UInt16} :
    Splits (token :: tokens) name ↔
      ∃ piece rest, name = piece ++ rest ∧ token.Takes piece ∧ Splits tokens rest := by
  constructor
  · intro h
    cases h with
    | cons takes rest => exact ⟨_, _, rfl, takes, rest⟩
  · rintro ⟨piece, rest, rfl, takes, hrest⟩
    exact .cons takes hrest

/-! ## Parts of a glob -/

/-- A part of a glob is a sign or a unit that is none. -/
def Token.WellFormed : Token → Prop
  | exactly u => u ≠ 0x2A ∧ u ≠ 0x3F
  | _ => True

theorem wellFormed_lone (u : UInt16) : (tokens.lone u).WellFormed := by
  unfold tokens.lone
  split
  · trivial
  · split
    · trivial
    · exact ⟨‹_›, ‹_›⟩

theorem wellFormed_of_mem_tokens {glob : List UInt16} :
    ∀ token ∈ tokens glob, token.WellFormed := by
  fun_induction tokens glob with
  | case1 => simp
  | case2 u =>
      rw [List.forall_mem_singleton]
      exact wellFormed_lone u
  | case3 rest u v _ ih =>
      rw [List.forall_mem_cons]
      exact ⟨trivial, ih⟩
  | case4 u v rest _ ih =>
      rw [List.forall_mem_cons]
      exact ⟨wellFormed_lone u, ih⟩

theorem denotes_nil_iff {name : List UInt16} : Denotes [] name ↔ name = [] := by
  constructor
  · intro h
    cases h
    rfl
  · rintro rfl
    exact .nil

theorem denotes_pair_iff {glob name : List UInt16} :
    Denotes (0x2A :: 0x2A :: glob) name ↔
      ∃ piece rest, name = piece ++ rest ∧ Token.across.Takes piece ∧ Denotes glob rest := by
  constructor
  · intro h
    cases h with
    | across line rest => exact ⟨_, _, rfl, .across line, rest⟩
    | within alone _ _ => exact absurd rfl alone
    | exactly star _ _ => exact absurd rfl star
  · rintro ⟨piece, rest, rfl, ⟨line⟩, hrest⟩
    exact .across line hrest

theorem denotes_lone_iff {u : UInt16} {glob name : List UInt16}
    (hlone : ¬ (u = 0x2A ∧ glob.head? = some 0x2A)) :
    Denotes (u :: glob) name ↔
      ∃ piece rest, name = piece ++ rest ∧ (tokens.lone u).Takes piece ∧ Denotes glob rest := by
  constructor
  · intro h
    cases h with
    | across line rest => exact absurd ⟨rfl, rfl⟩ hlone
    | within _ segment rest => exact ⟨_, _, rfl, .within segment, rest⟩
    | @any u _ _ line rest => exact ⟨[u], _, rfl, .any line, rest⟩
    | exactly star mark rest =>
        refine ⟨[u], _, rfl, ?_, rest⟩
        rw [tokens.lone, if_neg star, if_neg mark]
        exact .exactly
  · rintro ⟨piece, rest, rfl, htakes, hrest⟩
    by_cases hstar : u = 0x2A
    · subst hstar
      have hwithin : Token.within.Takes piece := htakes
      cases hwithin with
      | within segment => exact .within (fun hhead => hlone ⟨rfl, hhead⟩) segment hrest
    · by_cases hmark : u = 0x3F
      · subst hmark
        have hany : Token.any.Takes piece := htakes
        cases hany with
        | any line => exact .any line hrest
      · rw [tokens.lone, if_neg hstar, if_neg hmark] at htakes
        cases htakes
        exact .exactly hstar hmark hrest

/-- The parts of a glob say what the glob stands for. -/
theorem denotes_iff_splits {glob name : List UInt16} :
    Denotes glob name ↔ Splits (tokens glob) name := by
  fun_induction tokens glob generalizing name with
  | case1 => rw [denotes_nil_iff, splits_nil_iff]
  | case2 u =>
      rw [denotes_lone_iff (by simp), splits_cons_iff]
      simp only [denotes_nil_iff, splits_nil_iff]
  | case3 u v rest hpair ih =>
      obtain ⟨rfl, rfl⟩ := hpair
      rw [denotes_pair_iff, splits_cons_iff]
      simp only [ih]
  | case4 u v rest hpair ih =>
      rw [denotes_lone_iff (by simpa using hpair), splits_cons_iff]
      simp only [ih]

/-! ## The table -/

/-- A part of a pattern takes a piece of a text. -/
def PartTakes (part : Wildcard UInt16) (piece : List UInt16) : Prop :=
  match part with
  | .one accepts => ∃ u, piece = [u] ∧ accepts u = true
  | .run accepts => piece.all accepts = true

theorem matchesAll_cons_iff {part : Wildcard UInt16} {pattern : List (Wildcard UInt16)}
    {name : List UInt16} :
    Wildcard.matchesAll (part :: pattern) name = true ↔
      ∃ piece rest, name = piece ++ rest ∧ PartTakes part piece ∧
        Wildcard.matchesAll pattern rest = true := by
  cases part with
  | one accepts =>
      rw [Wildcard.matchesAll_one]
      constructor
      · rintro ⟨u, rest, rfl, haccepts, hrest⟩
        exact ⟨[u], rest, rfl, ⟨u, rfl, haccepts⟩, hrest⟩
      · rintro ⟨_, rest, rfl, ⟨u, rfl, haccepts⟩, hrest⟩
        exact ⟨u, rest, rfl, haccepts, hrest⟩
  | run accepts => exact Wildcard.matchesAll_run accepts pattern name

theorem isLineBreak_eq_false_iff {u : UInt16} :
    isLineBreak u = false ↔ u ∉ [0x0A, 0x0D, 0x2028, 0x2029] := by
  simp [isLineBreak, and_assoc]

theorem takes_iff_partTakes {token : Token} {piece : List UInt16} :
    token.Takes piece ↔ PartTakes token.wildcard piece := by
  constructor
  · intro h
    cases h with
    | across line => simpa [PartTakes, Token.wildcard, isLineBreak_eq_false_iff] using line
    | within segment => simpa [PartTakes, Token.wildcard] using segment
    | any line => simpa [PartTakes, Token.wildcard, isLineBreak_eq_false_iff] using line
    | exactly => simp [PartTakes, Token.wildcard]
  · intro h
    cases token with
    | across =>
        exact .across (by simpa [PartTakes, Token.wildcard, isLineBreak_eq_false_iff] using h)
    | within => exact .within (by simpa [PartTakes, Token.wildcard] using h)
    | any =>
        obtain ⟨u, rfl, hline⟩ := h
        exact .any (by simpa [isLineBreak_eq_false_iff] using hline)
    | exactly u =>
        obtain ⟨v, rfl, hsame⟩ := h
        obtain rfl : v = u := by simpa using hsame
        exact .exactly

/-- The table of a glob is filled in for what its parts take. -/
theorem matchesAll_wildcard_iff_splits {tokens : List Token} {name : List UInt16} :
    Wildcard.matchesAll (tokens.map Token.wildcard) name = true ↔ Splits tokens name := by
  induction tokens generalizing name with
  | nil => rw [List.map_nil, Wildcard.matchesAll_nil, List.isEmpty_iff, splits_nil_iff]
  | cons token tokens ih =>
      rw [List.map_cons, matchesAll_cons_iff, splits_cons_iff]
      simp only [takes_iff_partTakes, ih]

/-! ## The expression -/

/-- The expression of a part of a glob. -/
def Token.text : Token → List UInt16
  | across => [0x2E, 0x2A]
  | within => [0x5B, 0x5E, 0x2E, 0x5D, 0x2A]
  | any => [0x2E]
  | exactly u => if u ∈ Expression.signs then [0x5C, u] else [u]

/-- The term that stands for a part of a glob. -/
def Token.term : Token → Expression.Term
  | across => ⟨.dot, true⟩
  | within => ⟨.noneOf [0x2E], true⟩
  | any => ⟨.dot, false⟩
  | exactly u => ⟨.exactly u, false⟩

/-- The three substitutions leave one another alone: each unit of a piece
becomes the expression of its part. -/
theorem pieceExpression_eq (piece : List UInt16) :
    pieceExpression piece = piece.flatMap fun u => (tokens.lone u).text := by
  rw [pieceExpression, substitute, substitute, escape, List.flatMap_assoc, List.flatMap_assoc]
  refine congrArg (fun f => piece.flatMap f) (funext fun u => ?_)
  by_cases hstar : u = 0x2A
  · subst hstar
    decide
  · by_cases hmark : u = 0x3F
    · subst hmark
      decide
    · by_cases hsign : u ∈ Expression.signs
      · simp [tokens.lone, Token.text, hstar, hmark, hsign]
      · simp [tokens.lone, Token.text, hstar, hmark, hsign]

theorem exists_pieces_eq (glob : List UInt16) : ∃ first others, pieces glob = first :: others := by
  fun_cases pieces glob <;> simp_all

/-- Joined again, the pieces are the expressions of the parts in a row. -/
theorem intercalate_pieces (glob : List UInt16) :
    [0x2E, 0x2A].intercalate ((pieces glob).map pieceExpression) =
      (tokens glob).flatMap Token.text := by
  fun_induction tokens glob with
  | case1 => rfl
  | case2 u => simp [pieces, pieceExpression_eq]
  | case3 u v rest hpair ih =>
      obtain ⟨first, others, hpieces⟩ := exists_pieces_eq rest
      rw [pieces, if_pos hpair, List.flatMap_cons, ← ih, hpieces]
      simp only [List.map_cons, List.intercalate_cons_cons]
      rfl
  | case4 u v rest hpair ih =>
      obtain ⟨first, others, hpieces⟩ := exists_pieces_eq (v :: rest)
      rw [pieces, if_neg hpair, List.flatMap_cons, ← ih, hpieces]
      cases others with
      | nil => simp [pieceExpression_eq]
      | cons second others =>
          simp only [List.map_cons, List.intercalate_cons_cons, pieceExpression_eq,
            List.flatMap_cons, List.append_assoc]

/-- No expression of a part begins with an asterisk, which would belong to
the term before. -/
theorem head?_flatMap_text {tokens : List Token} (hwell : ∀ token ∈ tokens, token.WellFormed) :
    (tokens.flatMap Token.text ++ [0x24]).head? ≠ some 0x2A := by
  cases tokens with
  | nil => decide
  | cons token tokens =>
      rw [List.forall_mem_cons] at hwell
      cases token with
      | exactly u =>
          by_cases hsign : u ∈ Expression.signs
          · simp [Token.text, hsign]
          · simpa [Token.text, hsign] using hwell.1.1
      | _ => simp [Token.text]

/-- The expression of a part begins with its atom, and an asterisk follows
if the part is a run. -/
theorem readAtom_text {token : Token} (hwell : token.WellFormed) (rest : List UInt16) :
    Expression.readAtom (token.text ++ rest) =
      some (token.term.atom, (if token.term.repeated then [0x2A] else []) ++ rest) := by
  cases token with
  | across => rfl
  | within => simp [Token.text, Token.term, Expression.readAtom, Expression.readClass]
  | any => rfl
  | exactly u =>
      by_cases hsign : u ∈ Expression.signs
      · simp [Token.text, Token.term, Expression.readAtom, hsign]
      · have hplain : u ≠ 0x5C ∧ u ≠ 0x2E ∧ u ≠ 0x5B := by
          refine ⟨?_, ?_, ?_⟩ <;> rintro rfl <;> exact hsign (by decide)
        obtain ⟨hescape, hdot, hclass⟩ := hplain
        simp [Token.text, Token.term, Expression.readAtom, hsign, hescape, hdot, hclass]

/-- The terms of a row of parts are theirs, one for each. -/
theorem readTerms_flatMap_text {tokens : List Token}
    (hwell : ∀ token ∈ tokens, token.WellFormed) :
    Expression.readTerms (tokens.flatMap Token.text ++ [0x24]) =
      some (tokens.map Token.term) := by
  induction tokens with
  | nil => exact Expression.readTerms_end
  | cons token tokens ih =>
      rw [List.forall_mem_cons] at hwell
      have hrest := head?_flatMap_text hwell.2
      rw [List.flatMap_cons, List.append_assoc,
        Expression.readTerms_of_readAtom (readAtom_text hwell.1 _)]
      rw [List.map_cons]
      obtain ⟨atom, repeated⟩ := token.term
      cases repeated with
      | false =>
          simp only [Bool.false_eq_true, if_false, List.nil_append, if_neg hrest, ih hwell.2]
          rfl
      | true =>
          simp only [if_true, List.cons_append, List.nil_append, List.head?_cons,
            List.tail_cons, ih hwell.2]
          rfl

/-- The expression of a glob has one term for each part of the glob. -/
theorem read_expression (glob : List UInt16) :
    Expression.read (expression glob) = some ((tokens glob).map Token.term) := by
  rw [expression, Expression.read, if_pos rfl, intercalate_pieces,
    readTerms_flatMap_text wellFormed_of_mem_tokens]

/-- A term takes a piece of a text. -/
def TermTakes (term : Expression.Term) (piece : List UInt16) : Prop :=
  if term.repeated then ∀ u ∈ piece, term.atom.Accepts u
  else ∃ u, piece = [u] ∧ term.atom.Accepts u

theorem matches_nil_iff {name : List UInt16} : Expression.Matches [] name ↔ name = [] := by
  constructor
  · intro h
    cases h
    rfl
  · rintro rfl
    exact .nil

theorem matches_cons_iff {term : Expression.Term} {terms : List Expression.Term}
    {name : List UInt16} :
    Expression.Matches (term :: terms) name ↔
      ∃ piece rest, name = piece ++ rest ∧ TermTakes term piece ∧
        Expression.Matches terms rest := by
  constructor
  · intro h
    cases h with
    | @once atom _ u _ accepts rest => exact ⟨[u], _, rfl, ⟨u, rfl, accepts⟩, rest⟩
    | repeated accepts rest => exact ⟨_, _, rfl, accepts, rest⟩
  · rintro ⟨piece, rest, rfl, htakes, hrest⟩
    obtain ⟨atom, repeated⟩ := term
    cases repeated with
    | false =>
        obtain ⟨u, rfl, haccepts⟩ := htakes
        exact .once haccepts hrest
    | true => exact .repeated htakes hrest

theorem takes_iff_termTakes {token : Token} {piece : List UInt16} :
    token.Takes piece ↔ TermTakes token.term piece := by
  constructor
  · intro h
    cases h with
    | across line => exact line
    | within segment =>
        intro u hu
        show u ∉ [0x2E]
        simpa using segment u hu
    | any line => exact ⟨_, rfl, line⟩
    | exactly => exact ⟨_, rfl, rfl⟩
  · intro h
    cases token with
    | across => exact .across h
    | within =>
        refine .within fun u hu => ?_
        have hout : u ∉ [0x2E] := h u hu
        simpa using hout
    | any =>
        obtain ⟨u, rfl, hline⟩ := h
        exact .any hline
    | exactly u =>
        obtain ⟨v, rfl, rfl⟩ := h
        exact .exactly

theorem matches_term_iff_splits {tokens : List Token} {name : List UInt16} :
    Expression.Matches (tokens.map Token.term) name ↔ Splits tokens name := by
  induction tokens generalizing name with
  | nil => rw [List.map_nil, matches_nil_iff, splits_nil_iff]
  | cons token tokens ih =>
      rw [List.map_cons, matches_cons_iff, splits_cons_iff]
      simp only [takes_iff_termTakes, ih]

/-! ## The decision -/

/--
**The language of globs.** A glob accepts exactly the names that it stands
for, unit by unit. The expression that is written for it can be read back,
and what is read matches the same names.
-/
theorem matchesUnits_decides (glob name : List UInt16) :
    (matchesUnits glob name = true ↔ Denotes glob name) ∧
      ∃ terms, Expression.read (expression glob) = some terms ∧
        (Expression.Matches terms name ↔ Denotes glob name) := by
  refine ⟨?_, (tokens glob).map Token.term, read_expression glob, ?_⟩
  · rw [denotes_iff_splits, ← matchesAll_wildcard_iff_splits, matchesUnits]
  · rw [denotes_iff_splits, matches_term_iff_splits]

/-- Three asterisks are a pair and one alone. -/
example : expression [0x2A, 0x2A, 0x2A] = Text.units "^.*[^.]*$" := by
  decide +kernel

/-- A backslash is a unit like any other, and the asterisk behind it is a
sign. -/
example : accepts "App\\*" "App\\Store" = true := by
  decide +kernel

end DisposalAudit.TypeGlob
