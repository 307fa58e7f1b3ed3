import DisposalAudit.Proofs.ScannedJson

/-!
# Reading back what is written

The tokens of a written value are read as that value: records keep their
members and lists their items. A value stands on a stack of those around it,
of which reading it needs to know nothing, so what is said of the tokens of a
value is said on any stack and in front of any other tokens.

## Main definitions

* `Json.back` — a value as it is read back.
* `Json.Parses` — tokens that are read as a value.
* `Json.AreKept` — names that come back as they are.

## Main results

* `Json.parses_valueTokens` — the tokens of a value are read as the value.
* `Json.read?_pretty` — reading back.
* `Json.member?_back` — the members of a record that is read back.
-/

namespace DisposalAudit.Json

/-! ## Reading the tokens -/

/-- Members as they are read, one by one. -/
def insertAll (members more : Members) : Members :=
  more.foldl (fun read member => Members.insert read member.1 member.2) members

mutual

/-- A value as it is read back. -/
def back : Value → Value
  | .null => .null
  | .bool b => .bool b
  | .number n => rereadNumber n
  | .text s => .text (reread s)
  | .list items => .list (backItems items)
  | .record members => .record (insertAll [] (backMembers members))

/-- Items as they are read back. -/
def backItems : List Value → List Value
  | [] => []
  | item :: rest => back item :: backItems rest

/-- Members as they are read back. -/
def backMembers : List (String × Value) → Members
  | [] => []
  | (name, value) :: rest => (reread name, back value) :: backMembers rest

end

/-- Reading some tokens from where a reader stands. -/
def parse (start : Expect) (tokens : List Token) : Option Expect := tokens.foldlM Expect.step start

theorem parse_cons (start : Expect) (token : Token) (rest : List Token) :
    parse start (token :: rest) = (start.step token).bind fun next => parse next rest := rfl

/-- Tokens that are read as a value, wherever one has to start. -/
structure Parses (tokens : List Token) (value : Value) : Prop where
  whole : ∀ (stack : List Frame) (rest : List Token),
    parse (.value stack) (tokens ++ rest) = parse (.complete value stack) rest
  /-- They do not start like the end of a list. -/
  start : ∃ token more, tokens = token :: more ∧
    ∀ stack, Expect.step (.firstItem stack) token = Expect.step (.value (.list [] :: stack)) token

theorem parses_word (value : Value) : Parses [.word value] value :=
  ⟨fun _ _ => rfl, _, _, rfl, fun _ => rfl⟩

theorem parses_text (s : String) : Parses [.text s] (.text s) :=
  ⟨fun _ _ => rfl, _, _, rfl, fun _ => rfl⟩

/-- Items behind others, up to the end of the list. -/
theorem parse_items {tokens : List (List Token)} {values : List Value}
    (h : List.Forall₂ Parses tokens values) (hne : tokens ≠ []) (stack : List Frame)
    (rest : List Token) :
    ∀ read : List Value,
      parse (.value (.list read :: stack)) ([.comma].intercalate tokens ++ .closeList :: rest) =
        parse (.complete (.list (read.reverse ++ values)) stack) rest := by
  induction h with
  | nil => exact absurd rfl hne
  | @cons first value more values' hfirst hmore ih =>
      intro read
      cases hmore with
      | nil =>
          rw [List.intercalate_singleton, hfirst.whole, parse_cons]
          show parse (.complete (.list (value :: read).reverse) stack) rest = _
          rw [List.reverse_cons]
      | cons hnext hlater =>
          rw [List.intercalate_cons_cons, List.append_assoc, List.append_assoc, hfirst.whole,
            List.singleton_append, parse_cons]
          show parse (.value (.list (value :: read) :: stack)) _ = _
          rw [ih (List.cons_ne_nil _ _), List.reverse_cons, List.append_assoc]
          rfl

/-- **A list is read as its items.** -/
theorem parses_list {tokens : List (List Token)} {values : List Value}
    (h : List.Forall₂ Parses tokens values) :
    Parses (.openList :: ([.comma].intercalate tokens ++ [.closeList])) (.list values) := by
  refine ⟨fun stack rest => ?_, _, _, rfl, fun _ => rfl⟩
  rw [List.cons_append, List.append_assoc, List.singleton_append, parse_cons]
  show parse (.firstItem stack) _ = _
  cases h with
  | nil => rfl
  | @cons first value more values' hfirst hmore =>
      -- the first item is read like one behind a comma
      have hstart : parse (.firstItem stack)
          ([.comma].intercalate (first :: more) ++ .closeList :: rest) =
            parse (.value (.list [] :: stack))
              ([.comma].intercalate (first :: more) ++ .closeList :: rest) := by
        obtain ⟨token, behind, rfl, hstep⟩ := hfirst.start
        have hcons : ∃ tail, [Token.comma].intercalate ((token :: behind) :: more) =
            token :: tail := by
          cases more with
          | nil => exact ⟨behind, List.intercalate_singleton⟩
          | cons next later => exact ⟨_, List.intercalate_cons_cons⟩
        obtain ⟨tail, htail⟩ := hcons
        rw [htail, List.cons_append, parse_cons, parse_cons, hstep]
      rw [hstart, parse_items (.cons hfirst hmore) (List.cons_ne_nil _ _)]
      rfl

/-- Tokens that are read as a member of a record. -/
def ParsesMember (tokens : List Token) (member : String × Value) : Prop :=
  ∃ more, tokens = .text member.1 :: .colon :: more ∧ Parses more member.2

/-- Members behind others, up to the end of the record. -/
theorem parse_members {tokens : List (List Token)} {members : Members}
    (h : List.Forall₂ ParsesMember tokens members) (hne : tokens ≠ []) (stack : List Frame)
    (rest : List Token) :
    ∀ read : Members,
      parse (.nextName read stack) ([.comma].intercalate tokens ++ .closeRecord :: rest) =
        parse (.complete (.record (insertAll read members)) stack) rest := by
  induction h with
  | nil => exact absurd rfl hne
  | @cons first member more members' hfirst hmore ih =>
      intro read
      obtain ⟨value, rfl, hvalue⟩ := hfirst
      -- one member is read up to what follows it
      have hmember (rest : List Token) : parse (.nextName read stack)
          ((.text member.1 :: .colon :: value) ++ rest) =
            parse (.complete member.2 (.entry read member.1 :: stack)) rest :=
        hvalue.whole (.entry read member.1 :: stack) rest
      cases hmore with
      | nil =>
          rw [List.intercalate_singleton, hmember]
          rfl
      | cons hnext hlater =>
          rw [List.intercalate_cons_cons, List.append_assoc, List.append_assoc, hmember,
            List.singleton_append, parse_cons]
          show parse (.nextName (Members.insert read member.1 member.2) stack) _ = _
          rw [ih (List.cons_ne_nil _ _)]
          rfl

/-- **A record is read as its members.** -/
theorem parses_record {tokens : List (List Token)} {members : Members}
    (h : List.Forall₂ ParsesMember tokens members) :
    Parses (.openRecord :: ([.comma].intercalate tokens ++ [.closeRecord]))
      (.record (insertAll [] members)) := by
  refine ⟨fun stack rest => ?_, _, _, rfl, fun _ => rfl⟩
  rw [List.cons_append, List.append_assoc, List.singleton_append, parse_cons]
  show parse (.firstName stack) _ = _
  cases h with
  | nil => rfl
  | @cons first member more members' hfirst hmore =>
      have hstart : parse (.firstName stack)
          ([.comma].intercalate (first :: more) ++ .closeRecord :: rest) =
            parse (.nextName [] stack)
              ([.comma].intercalate (first :: more) ++ .closeRecord :: rest) := by
        obtain ⟨value, rfl, -⟩ := hfirst
        have hcons : ∃ tail, [Token.comma].intercalate
            ((.text member.1 :: .colon :: value) :: more) = .text member.1 :: tail := by
          cases more with
          | nil => exact ⟨_, List.intercalate_singleton⟩
          | cons next later => exact ⟨_, List.intercalate_cons_cons⟩
        obtain ⟨tail, htail⟩ := hcons
        rw [htail, List.cons_append, parse_cons, parse_cons]
        rfl
      rw [hstart, parse_members (.cons hfirst hmore) (List.cons_ne_nil _ _)]

mutual

/-- **The tokens of a value are read as the value.** -/
theorem parses_valueTokens : (value : Value) → Parses (valueTokens value) (back value)
  | .null => parses_word .null
  | .bool b => parses_word (.bool b)
  | .number n => parses_word (rereadNumber n)
  | .text s => parses_text (reread s)
  | .list items => parses_list (parses_itemTokens items)
  | .record members => parses_record (parses_memberTokens members)

theorem parses_itemTokens :
    (items : List Value) → List.Forall₂ Parses (itemTokens items) (backItems items)
  | [] => .nil
  | item :: rest => .cons (parses_valueTokens item) (parses_itemTokens rest)

theorem parses_memberTokens : (members : List (String × Value)) →
    List.Forall₂ ParsesMember (memberTokens members) (backMembers members)
  | [] => .nil
  | (_, value) :: rest =>
      .cons ⟨_, rfl, parses_valueTokens value⟩ (parses_memberTokens rest)

end

/-! ## Reading back -/

/-- A scan that a blank brings to its end is at its end without the blank. -/
theorem finish_of_step_blank {stopped : Scan} {tokens : List Token}
    (h : stopped.step ' ' = some ⟨.between, tokens⟩) : stopped.finish = some tokens.reverse := by
  have hblank (before : List Token) : Scan.start before ' ' = ⟨.between, before⟩ := rfl
  obtain ⟨mode, before⟩ := stopped
  cases mode with
  | between =>
      obtain rfl : before = tokens := by simpa [Scan.step, hblank] using h
      rfl
  | word read =>
      cases hword : word? read.reverse with
      | none => simp [Scan.step, hword, isSpace] at h
      | some value =>
          obtain rfl : .word value :: before = tokens := by
            simpa [Scan.step, hword, isSpace, hblank] using h
          simp [Scan.finish, hword]
  | text read => exact absurd h (by simp [Scan.step])
  | escape read => exact absurd h (by simp [Scan.step, escaped?])
  | code read left value => exact absurd h (by simp [Scan.step, hexDigit?])

/-- What is scanned as some tokens in front of a blank has these tokens. -/
theorem tokens?_of_scans {text : String} {tokens : List Token} (h : Scans text.toList tokens) :
    tokens? text = some tokens := by
  have hblank : scan ⟨.between, []⟩ (text.toList ++ [' ']) = some ⟨.between, tokens.reverse⟩ := by
    rw [h [] ' ' [] (.inl rfl), List.append_nil]
    rfl
  rw [scan_append, Option.bind_eq_some_iff] at hblank
  obtain ⟨stopped, hscan, hstep⟩ := hblank
  rw [scan_cons] at hstep
  have hfinish : stopped.finish = some tokens.reverse.reverse := by
    refine finish_of_step_blank ?_
    cases hnext : stopped.step ' ' with
    | none => rw [hnext] at hstep; exact nomatch hstep
    | some next =>
        rw [hnext] at hstep
        exact hstep
  rw [List.reverse_reverse] at hfinish
  show (scan ⟨.between, []⟩ text.toList).bind Scan.finish = _
  rw [hscan]
  exact hfinish

/-- **A written value is read back.** -/
theorem read?_render {layout : Layout} (hlayout : layout.IsBlank) (depth : Nat) {value : Value}
    (hwritten : IsWritten value) : read? (render layout depth value) = some (back value) := by
  have hparse := (parses_valueTokens value).whole [] []
  rw [List.append_nil] at hparse
  show (tokens? (render layout depth value)).bind (fun tokens =>
    (parse (.value []) tokens).bind _) = _
  rw [tokens?_of_scans (scans_render hlayout depth value hwritten), Option.bind_some, hparse]
  rfl

theorem read?_pretty {value : Value} (hwritten : IsWritten value) :
    read? (pretty value) = some (back value) :=
  read?_render Layout.isBlank_pretty 0 hwritten

/-! ## Members and items that are read back -/

theorem areWritten_iff {items : List Value} :
    AreWritten items ↔ ∀ item ∈ items, IsWritten item := by
  induction items with
  | nil => simp [AreWritten]
  | cons item rest ih => simp [AreWritten, ih]

theorem backItems_eq_map (items : List Value) : backItems items = items.map back := by
  induction items with
  | nil => rfl
  | cons item rest ih => rw [backItems, ih, List.map_cons]

theorem insert_of_not_mem {members : Members} {name : String} (value : Value)
    (h : name ∉ members.map Prod.fst) :
    Members.insert members name value = members ++ [(name, value)] := by
  induction members with
  | nil => rfl
  | cons member rest ih =>
      obtain ⟨n, v⟩ := member
      rw [List.map_cons, List.mem_cons, not_or] at h
      rw [Members.insert, if_neg fun hsame => h.1 hsame.symm, ih h.2]
      rfl

/-- Names that are told apart come back in their order. -/
theorem insertAll_of_nodup (more : Members) :
    ∀ members : Members, ((members ++ more).map Prod.fst).Nodup →
      insertAll members more = members ++ more := by
  induction more with
  | nil => exact fun members _ => (List.append_nil members).symm
  | cons member rest ih =>
      intro members hnodup
      have hfresh : member.1 ∉ members.map Prod.fst := by
        rw [List.map_append, List.nodup_append] at hnodup
        exact fun hmem => hnodup.2.2 _ hmem member.1 (by simp) rfl
      have hsplit : members ++ member :: rest = members ++ [member] ++ rest := by simp
      rw [hsplit] at hnodup ⊢
      rw [← ih _ hnodup, insertAll, List.foldl_cons, insert_of_not_mem _ hfresh]
      rfl

/-- Names that are read back as they are, and are told apart. -/
structure AreKept (names : List String) : Prop where
  reread : names.map reread = names
  nodup : names.Nodup

/-- Members with such names are read back in their order. -/
theorem backMembers_of_areKept {members : List (String × Value)}
    (h : AreKept (members.map Prod.fst)) :
    insertAll [] (backMembers members) = members.map fun member => (member.1, back member.2) := by
  have hback : backMembers members = members.map fun member => (member.1, back member.2) := by
    have hnames := h.reread
    clear h
    induction members with
    | nil => rfl
    | cons member rest ih =>
        obtain ⟨name, value⟩ := member
        simp only [List.map_cons, List.cons.injEq] at hnames
        rw [backMembers, ih hnames.2, hnames.1, List.map_cons]
  rw [hback, insertAll_of_nodup _ []]
  · rfl
  · rw [List.nil_append, List.map_map]
    exact h.nodup

/-- **The members of a record that is read back** are its members, read
back. -/
theorem member?_back {members : List (String × Value)} (name : String)
    (h : AreKept (members.map Prod.fst)) :
    (back (.record members)).member? name = (Members.get? members name).map back := by
  rw [back, backMembers_of_areKept h, Value.member?]
  clear h
  induction members with
  | nil => rfl
  | cons member rest ih =>
      obtain ⟨n, value⟩ := member
      by_cases hname : n = name
      · simp [Members.get?, hname]
      · simpa [Members.get?, hname] using ih

end DisposalAudit.Json
