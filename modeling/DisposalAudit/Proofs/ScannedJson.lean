import DisposalAudit.Json.Printer
import DisposalAudit.Json.Reader
import Mathlib.Data.List.Forall2

/-!
# Scanning what is written

The text that is written of a value is scanned as the tokens of the value,
whatever its layout. A text comes back with the same units, where halves of a
character that stood next to each other have become the character. A number
comes back as the number that its numeral stands for.

The scan knows where a word ends only by the character behind it. So what is
said of scanning a value is said in front of what follows: brackets and quotes
end by themselves, and words need a character that ends them.

## Main definitions

* `Json.reread`, `Json.rereadNumber` — a text and a number as they are read
  back.
* `Json.Scans` — a text that is scanned as some tokens.
* `Json.valueTokens` — the tokens of a written value.
* `Json.IsWritten` — a value whose numbers have numerals.

## Main results

* `Json.scan_quote` — a quoted text is scanned as that text.
* `Json.scans_intercalate` — parts between commas.
* `Json.scans_render` — a value is scanned as its tokens.
-/

namespace DisposalAudit.Json

/-- Scanning some characters from where a scan stands. -/
def scan (start : Scan) (chars : List Char) : Option Scan := chars.foldlM Scan.step start

@[simp] theorem scan_nil (start : Scan) : scan start [] = some start := rfl

theorem scan_cons (start : Scan) (c : Char) (rest : List Char) :
    scan start (c :: rest) = (start.step c).bind fun next => scan next rest := rfl

theorem scan_append (start : Scan) (front rest : List Char) :
    scan start (front ++ rest) = (scan start front).bind fun next => scan next rest :=
  List.foldlM_append

/-- A part that is scanned to its end. -/
theorem scan_append_of_eq {start next : Scan} {front : List Char}
    (hfront : scan start front = some next) (rest : List Char) :
    scan start (front ++ rest) = scan next rest := by
  rw [scan_append, hfront, Option.bind_some]

/-! ## Texts -/

section Texts

variable (tokens : List Token)

theorem hexDigit?_digitChar {d : Nat} (h : d < 16) : hexDigit? (Nat.digitChar d) = some d := by
  have hall : ∀ d : Fin 16, hexDigit? (Nat.digitChar d) = some d.val := by decide
  exact hall ⟨d, h⟩

theorem step_code {read : List UInt16} {left value d : Nat} (h : d < 16) :
    Scan.step ⟨.code read left value, tokens⟩ (Nat.digitChar d) =
      some (if left ≤ 1 then ⟨.text ((value * 16 + d).toUInt16 :: read), tokens⟩
        else ⟨.code read (left - 1) (value * 16 + d), tokens⟩) := by
  simp only [Scan.step, hexDigit?_digitChar h, Option.map_some]

/-- An escaped unit is read as the unit. -/
theorem scan_escapeCode (read : List UInt16) (u : UInt16) :
    scan ⟨.text read, tokens⟩ (escapeCode u.toNat) = some ⟨.text (u :: read), tokens⟩ := by
  have hu : u.toNat < 65536 := u.toNat_lt
  have hvalue : (((0 * 16 + u.toNat / 4096 % 16) * 16 + u.toNat / 256 % 16) * 16 +
      u.toNat / 16 % 16) * 16 + u.toNat % 16 = u.toNat := by omega
  have hunit : u.toNat.toUInt16 = u := UInt16.ofNat_toNat
  show scan ⟨.code read 4 0, tokens⟩ _ = _
  rw [scan_cons, step_code tokens (Nat.mod_lt _ (by omega))]
  show (scan ⟨.code read 3 _, tokens⟩ _) = _
  rw [scan_cons, step_code tokens (Nat.mod_lt _ (by omega))]
  show (scan ⟨.code read 2 _, tokens⟩ _) = _
  rw [scan_cons, step_code tokens (Nat.mod_lt _ (by omega))]
  show (scan ⟨.code read 1 _, tokens⟩ _) = _
  rw [scan_cons, step_code tokens (Nat.mod_lt _ (by omega))]
  show some (Scan.mk (.text (Nat.toUInt16 _ :: read)) tokens) = _
  rw [hvalue, hunit]

theorem scan_escapeCodes (us : List UInt16) :
    ∀ read : List UInt16,
      scan ⟨.text read, tokens⟩ (us.flatMap fun u => escapeCode u.toNat) =
        some ⟨.text (us.reverse ++ read), tokens⟩ := by
  induction us with
  | nil => exact fun _ => rfl
  | cons u rest ih =>
      intro read
      rw [List.flatMap_cons, scan_append_of_eq (scan_escapeCode tokens read u), ih,
        List.reverse_cons, List.append_assoc]
      rfl

/-- A character that means nothing else is read as its units. -/
theorem step_text {read : List UInt16} {c : Char} (hquote : c ≠ '"') (hescape : c ≠ '\\')
    (hcontrol : ¬ c < ' ') :
    Scan.step ⟨.text read, tokens⟩ c =
      some ⟨.text ((Text.charUnits c).reverse ++ read), tokens⟩ := by
  simp only [Scan.step, if_neg hquote, if_neg hescape, if_neg hcontrol]

/-- The escaped form of a character is read as its units. -/
theorem scan_escape (read : List UInt16) (c : Char) :
    scan ⟨.text read, tokens⟩ (escape c) =
      some ⟨.text ((Text.charUnits c).reverse ++ read), tokens⟩ := by
  unfold escape
  split
  case h_8 _ hquote hescape _ _ _ _ _ =>
    split
    · exact scan_escapeCodes tokens (Text.charUnits c) read
    · next hplain =>
        simp only [Bool.or_eq_true, decide_eq_true_eq, not_or] at hplain
        rw [scan_cons, step_text tokens hquote hescape hplain.1]
        rfl
  all_goals rfl

theorem step_half {read : List UInt16} {c : Char} (h : Text.firstHalf ≤ c.toNat) :
    Scan.step ⟨.text read, tokens⟩ c =
      some ⟨.text ((Text.charUnits c).reverse ++ read), tokens⟩ := by
  have hne {d : Char} (hd : d.toNat < Text.firstHalf) : c ≠ d := by
    rintro rfl
    omega
  refine step_text tokens (hne (by decide)) (hne (by decide)) fun hlt => ?_
  have hblank : c.toNat < ' '.toNat := hlt
  have hsmall : ' '.toNat < Text.firstHalf := by decide
  omega

/-- Only the last characters are halves. -/
theorem firstHalf_le {c : Char} {u : UInt16} (hunits : Text.charUnits c = [u])
    (hhalf : Text.isHigh u = true ∨ Text.isLow u = true) : Text.firstHalf ≤ c.toNat := by
  refine Nat.not_lt.1 fun hsmall => ?_
  rw [Text.charUnits, if_pos hsmall, Text.codeUnits] at hunits
  split at hunits
  · next hplane =>
      have hu : u.toNat = c.toNat := by
        rw [← List.singleton_inj.1 hunits]
        exact UInt16.toNat_ofNat_of_lt hplane
      have hvalid : c.toNat < 0xD800 ∨ 0xDFFF < c.toNat ∧ c.toNat < 0x110000 := c.valid
      rw [Text.isHigh_iff, Text.isLow_iff, hu] at hhalf
      omega
  · exact absurd (congrArg List.length hunits) (by simp)

theorem firstHalf_le_of_areHalves {c d : Char} (h : Text.areHalves c d = true) :
    Text.firstHalf ≤ c.toNat ∧ Text.firstHalf ≤ d.toNat := by
  unfold Text.areHalves at h
  split at h
  · next u v hu hv =>
      rw [Bool.and_eq_true] at h
      exact ⟨firstHalf_le hu (.inl h.1), firstHalf_le hv (.inr h.2)⟩
  · exact nomatch h

/-- Escaped characters are read as their units. -/
theorem scan_escapeAll (chars : List Char) :
    ∀ read : List UInt16,
      scan ⟨.text read, tokens⟩ (escapeAll chars) =
        some ⟨.text ((chars.flatMap Text.charUnits).reverse ++ read), tokens⟩ := by
  fun_induction escapeAll chars with
  | case1 => exact fun _ => rfl
  | case2 c =>
      intro read
      rw [scan_escape, List.flatMap_singleton]
  | case3 c d rest hhalves ih =>
      intro read
      obtain ⟨hc, hd⟩ := firstHalf_le_of_areHalves hhalves
      rw [scan_cons, step_half tokens hc, Option.bind_some, scan_cons, step_half tokens hd,
        Option.bind_some, ih]
      simp only [List.flatMap_cons, List.reverse_append, List.append_assoc]
  | case4 c d rest hhalves ih =>
      intro read
      rw [scan_append_of_eq (scan_escape tokens read c), ih]
      simp only [List.flatMap_cons, List.reverse_append, List.append_assoc]

/-- A text as it is read back. -/
def reread (text : String) : String := Text.ofUnits (Text.units text)

theorem units_reread (text : String) : Text.units (reread text) = Text.units text :=
  Text.units_ofUnits _

/-- **A quoted text is scanned as that text.** -/
theorem scan_quote (text : String) :
    scan ⟨.between, tokens⟩ (quote text).toList =
      some ⟨.between, .text (reread text) :: tokens⟩ := by
  have hread := scan_escapeAll tokens text.toList []
  rw [quote, String.toList_ofList, List.cons_append, scan_cons]
  show scan ⟨.text [], tokens⟩ (escapeAll text.toList ++ ['"']) = _
  rw [scan_append_of_eq hread, List.append_nil, scan_cons]
  show some (Scan.mk .between (.text (Text.ofUnits _) :: tokens)) = _
  rw [List.reverse_reverse]
  rfl

end Texts

/-! ## Words and blanks -/

/-- A character that belongs to a word. -/
def isPlain (c : Char) : Bool := !isSpace c && c != '"' && (punctuation? c).isNone

/-- A text that is scanned as a word. -/
structure IsWord (chars : List Char) : Prop where
  ne_nil : chars ≠ []
  plain : ∀ c ∈ chars, isPlain c = true
  isSome : (word? chars).isSome = true

/-- A character that ends a word. -/
def EndsWord (c : Char) : Prop := isSpace c = true ∨ (punctuation? c).isSome = true

section Words

variable (tokens : List Token)

theorem isPlain_iff {c : Char} :
    isPlain c = true ↔ isSpace c = false ∧ c ≠ '"' ∧ punctuation? c = none := by
  simp [isPlain, and_assoc]

theorem scan_plain (chars : List Char) :
    ∀ read : List Char, (∀ c ∈ chars, isPlain c = true) →
      scan ⟨.word read, tokens⟩ chars = some ⟨.word (chars.reverse ++ read), tokens⟩ := by
  induction chars with
  | nil => exact fun _ _ => rfl
  | cons c rest ih =>
      intro read hplain
      obtain ⟨hspace, hquote, hpunctuation⟩ := isPlain_iff.1 (hplain c List.mem_cons_self)
      have hstep : Scan.step ⟨.word read, tokens⟩ c = some ⟨.word (c :: read), tokens⟩ := by
        simp [Scan.step, hspace, hquote, hpunctuation]
      rw [scan_cons, hstep, Option.bind_some,
        ih _ fun d hd => hplain d (List.mem_cons_of_mem c hd), List.reverse_cons,
        List.append_assoc]
      rfl

/-- A word is scanned as its value once it has ended. -/
theorem scan_word {chars : List Char} (hword : IsWord chars) {d : Char} (hd : EndsWord d)
    (rest : List Char) :
    scan ⟨.between, tokens⟩ (chars ++ d :: rest) =
      scan ⟨.between, .word ((word? chars).getD .null) :: tokens⟩ (d :: rest) := by
  obtain ⟨value, hvalue⟩ := Option.isSome_iff_exists.1 hword.isSome
  obtain ⟨c, more, rfl⟩ := List.exists_cons_of_ne_nil hword.ne_nil
  obtain ⟨hspace, hquote, hpunctuation⟩ := isPlain_iff.1 (hword.plain c List.mem_cons_self)
  have hfirst : Scan.step ⟨.between, tokens⟩ c = some ⟨.word [c], tokens⟩ := by
    simp [Scan.step, Scan.start, hspace, hquote, hpunctuation]
  have hmore := scan_plain tokens more [c] fun e he => hword.plain e (List.mem_cons_of_mem c he)
  have hends : isSpace d = true ∨ d = '"' ∨ (punctuation? d).isSome = true :=
    hd.elim .inl fun h => .inr (.inr h)
  have hread : (more.reverse ++ [c]).reverse = c :: more := by simp
  rw [List.cons_append, scan_cons, hfirst, Option.bind_some, scan_append_of_eq hmore, scan_cons,
    scan_cons]
  simp only [Scan.step, if_pos hends, hread, hvalue, Option.map_some, Option.getD_some]

theorem scan_blanks (blanks : List Char) (h : ∀ c ∈ blanks, isSpace c = true) :
    scan ⟨.between, tokens⟩ blanks = some ⟨.between, tokens⟩ := by
  induction blanks with
  | nil => rfl
  | cons c rest ih =>
      have hc := h c List.mem_cons_self
      have hpunctuation : punctuation? c = none := by
        simp only [isSpace, Bool.or_eq_true, beq_iff_eq] at hc
        rcases hc with ((rfl | rfl) | rfl) | rfl <;> rfl
      have hstep : Scan.step ⟨.between, tokens⟩ c = some ⟨.between, tokens⟩ := by
        simp [Scan.step, Scan.start, hc, hpunctuation]
      rw [scan_cons, hstep, Option.bind_some, ih fun d hd => h d (List.mem_cons_of_mem c hd)]

theorem scan_punctuation {c : Char} {token : Token} (h : punctuation? c = some token)
    (rest : List Char) :
    scan ⟨.between, tokens⟩ (c :: rest) = scan ⟨.between, token :: tokens⟩ rest := by
  rw [scan_cons]
  simp only [Scan.step, Scan.start, h, Option.bind_some]

end Words

/-! ## Parts -/

/-- A text in front of what ends a word is scanned as some tokens. -/
def Scans (chars : List Char) (tokens : List Token) : Prop :=
  ∀ (before : List Token) (d : Char) (rest : List Char), EndsWord d →
    scan ⟨.between, before⟩ (chars ++ d :: rest) =
      scan ⟨.between, tokens.reverse ++ before⟩ (d :: rest)

theorem scans_word {chars : List Char} (hword : IsWord chars) :
    Scans chars [.word ((word? chars).getD .null)] :=
  fun before _ rest hd => scan_word before hword hd rest

theorem scans_of_scan {chars : List Char} {tokens : List Token}
    (h : ∀ before, scan ⟨.between, before⟩ chars = some ⟨.between, tokens.reverse ++ before⟩) :
    Scans chars tokens :=
  fun before d rest _ => scan_append_of_eq (h before) (d :: rest)

/-- Parts between commas are scanned as their tokens between commas. -/
theorem scans_intercalate {blanks : List Char} (hblanks : ∀ c ∈ blanks, isSpace c = true)
    {parts : List (List Char)} {tokens : List (List Token)} (h : List.Forall₂ Scans parts tokens) :
    Scans ((',' :: blanks).intercalate parts) ([.comma].intercalate tokens) := by
  induction h with
  | nil => exact fun _ _ _ _ => rfl
  | @cons part some rest more hpart hrest ih =>
      cases hrest with
      | nil => simpa using hpart
      | cons hnext hlater =>
          rw [List.intercalate_cons_cons, List.intercalate_cons_cons]
          intro before d behind hd
          rw [List.append_assoc, List.append_assoc, List.cons_append,
            hpart before ',' _ (.inr rfl), scan_punctuation _ (by rfl),
            scan_append_of_eq (scan_blanks _ blanks hblanks), ih _ d behind hd]
          simp

/-- A layout that puts nothing but blanks between the parts of a value. -/
structure Layout.IsBlank (layout : Layout) : Prop where
  lineBreak : ∀ depth, ∀ c ∈ (layout.lineBreak depth).toList, isSpace c = true
  colon : ∃ blanks : List Char, layout.colon.toList = ':' :: blanks ∧
    ∀ c ∈ blanks, isSpace c = true

theorem Layout.isBlank_pretty : Layout.pretty.IsBlank where
  lineBreak depth c hc := by
    rw [Layout.pretty, String.toList_ofList, List.mem_cons] at hc
    rcases hc with rfl | hc
    · rfl
    · rw [List.eq_of_mem_replicate hc]
      rfl
  colon := ⟨[' '], rfl, by simp [isSpace]⟩

section Brackets

variable {layout : Layout} {opening closing : String} {first last : Char}
  {openToken closeToken : Token}

/-- Brackets end by themselves. -/
theorem scan_bracket (hlayout : layout.IsBlank) (hopen : opening.toList = [first])
    (hclose : closing.toList = [last]) (hfirst : punctuation? first = some openToken)
    (hlast : punctuation? last = some closeToken) {parts : List String}
    {tokens : List (List Token)}
    (hparts : List.Forall₂ Scans (parts.map String.toList) tokens) (depth : Nat)
    (before : List Token) :
    scan ⟨.between, before⟩ (layout.bracket depth opening closing parts).toList =
      some ⟨.between, (openToken :: ([.comma].intercalate tokens ++ [closeToken])).reverse ++
        before⟩ := by
  have hlastEnds : EndsWord last := .inr (by rw [hlast]; rfl)
  cases parts with
  | nil =>
      obtain rfl : tokens = [] := by simpa using hparts
      rw [Layout.bracket, String.toList_append, hopen, hclose]
      rw [List.singleton_append, scan_punctuation _ hfirst, scan_punctuation _ hlast]
      rfl
  | cons part rest =>
      have hinside := scans_intercalate (hlayout.lineBreak (depth + 1)) hparts
      have htext : (layout.bracket depth opening closing (part :: rest)).toList =
          first :: ((layout.lineBreak (depth + 1)).toList ++
            ((',' :: (layout.lineBreak (depth + 1)).toList).intercalate
              ((part :: rest).map String.toList) ++
              ((layout.lineBreak depth).toList ++ [last]))) := by
        simp only [Layout.bracket, String.toList_append, String.toList_intercalate, hopen, hclose,
          List.append_assoc, List.singleton_append]
        rfl
      -- what follows the parts is a blank or the closing bracket
      obtain ⟨d, behind, hbehind, hd⟩ : ∃ d behind,
          (layout.lineBreak depth).toList ++ [last] = d :: behind ∧ EndsWord d := by
        have hblank := hlayout.lineBreak depth
        cases hbreak : (layout.lineBreak depth).toList with
        | nil => exact ⟨last, [], rfl, hlastEnds⟩
        | cons d more =>
            rw [hbreak] at hblank
            exact ⟨d, more ++ [last], rfl, .inl (hblank d List.mem_cons_self)⟩
      rw [htext, scan_punctuation _ hfirst,
        scan_append_of_eq (scan_blanks _ _ (hlayout.lineBreak (depth + 1))), hbehind,
        hinside _ d behind hd, ← hbehind,
        scan_append_of_eq (scan_blanks _ _ (hlayout.lineBreak depth)),
        scan_punctuation _ hlast]
      simp

end Brackets

/-! ## Values -/

/-- What the numeral of a number is read as. -/
def rereadNumber (n : Number) : Value := (word? (number n).toList).getD .null

mutual

/-- The tokens of a written value. -/
def valueTokens : Value → List Token
  | .null => [.word .null]
  | .bool b => [.word (.bool b)]
  | .number n => [.word (rereadNumber n)]
  | .text s => [.text (reread s)]
  | .list items => .openList :: ([.comma].intercalate (itemTokens items) ++ [.closeList])
  | .record members =>
    .openRecord :: ([.comma].intercalate (memberTokens members) ++ [.closeRecord])

/-- The tokens of the items of a list. -/
def itemTokens : List Value → List (List Token)
  | [] => []
  | item :: rest => valueTokens item :: itemTokens rest

/-- The tokens of the members of a record. -/
def memberTokens : List (String × Value) → List (List Token)
  | [] => []
  | (name, value) :: rest =>
    (.text (reread name) :: .colon :: valueTokens value) :: memberTokens rest

end

mutual

/-- A value whose numbers have numerals. -/
def IsWritten : Value → Prop
  | .number n => IsWord (number n).toList
  | .list items => AreWritten items
  | .record members => MembersAreWritten members
  | _ => True

/-- Items whose numbers have numerals. -/
def AreWritten : List Value → Prop
  | [] => True
  | item :: rest => IsWritten item ∧ AreWritten rest

/-- Members whose numbers have numerals. -/
def MembersAreWritten : List (String × Value) → Prop
  | [] => True
  | (_, value) :: rest => IsWritten value ∧ MembersAreWritten rest

end

theorem scans_member {layout : Layout} (hlayout : layout.IsBlank) (name : String)
    {text : String} {tokens : List Token} (h : Scans text.toList tokens) :
    Scans (quote name ++ layout.colon ++ text).toList
      (.text (reread name) :: .colon :: tokens) := by
  obtain ⟨blanks, hcolon, hblanks⟩ := hlayout.colon
  intro before d rest hd
  rw [String.toList_append, String.toList_append, hcolon, List.append_assoc, List.append_assoc,
    scan_append_of_eq (scan_quote before name), List.cons_append,
    scan_punctuation _ (by rfl), scan_append_of_eq (scan_blanks _ blanks hblanks), h _ d rest hd]
  simp

theorem isWord_null : IsWord "null".toList := ⟨by decide, List.all_eq_true.1 rfl, rfl⟩

theorem isWord_true : IsWord "true".toList := ⟨by decide, List.all_eq_true.1 rfl, rfl⟩

theorem isWord_false : IsWord "false".toList := ⟨by decide, List.all_eq_true.1 rfl, rfl⟩

mutual

/-- **A value is scanned as its tokens.** -/
theorem scans_render {layout : Layout} (hlayout : layout.IsBlank) (depth : Nat) :
    (value : Value) → IsWritten value → Scans (render layout depth value).toList
      (valueTokens value)
  | .null, _ => scans_word isWord_null
  | .bool true, _ => scans_word isWord_true
  | .bool false, _ => scans_word isWord_false
  | .number _, h => scans_word h
  | .text s, _ => scans_of_scan fun before => scan_quote before s
  | .list items, h => scans_of_scan fun before =>
      scan_bracket hlayout rfl rfl rfl rfl (scans_items hlayout (depth + 1) items h) depth before
  | .record members, h => scans_of_scan fun before =>
      scan_bracket hlayout rfl rfl rfl rfl (scans_members hlayout (depth + 1) members h) depth
        before

theorem scans_items {layout : Layout} (hlayout : layout.IsBlank) (depth : Nat) :
    (items : List Value) → AreWritten items → List.Forall₂ Scans
      ((renderItems layout depth items).map String.toList) (itemTokens items)
  | [], _ => .nil
  | item :: rest, h =>
      .cons (scans_render hlayout depth item h.1) (scans_items hlayout depth rest h.2)

theorem scans_members {layout : Layout} (hlayout : layout.IsBlank) (depth : Nat) :
    (members : List (String × Value)) → MembersAreWritten members → List.Forall₂ Scans
      ((renderMembers layout depth members).map String.toList) (memberTokens members)
  | [], _ => .nil
  | (name, value) :: rest, h =>
      .cons (scans_member hlayout name (scans_render hlayout depth value h.1))
        (scans_members hlayout depth rest h.2)

end

end DisposalAudit.Json
