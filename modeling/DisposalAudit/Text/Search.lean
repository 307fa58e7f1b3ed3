/-!
# Searching and trimming a text

Substrings, endings and replacement, character by character, and the blanks
that are removed from the ends of a text before its content is judged.

## Main definitions

* `Text.contains`, `Text.endsWith` — whether a part occurs, or ends a text.
* `Text.replaceAll` — replaces every occurrence, from left to right.
* `Text.trim` — a text without blanks at either end.

## Main results

* `Text.contains_iff` — a part occurs where something stands before it and
  something behind it.
-/

namespace DisposalAudit.Text

/-- Whether a list of characters occurs in another without gaps. -/
def occursIn (part : List Char) : List Char → Bool
  | [] => part.isEmpty
  | c :: rest => part.isPrefixOf (c :: rest) || occursIn part rest

theorem occursIn_iff (part whole : List Char) :
    occursIn part whole = true ↔ ∃ front back, whole = front ++ part ++ back := by
  induction whole with
  | nil =>
    simp only [occursIn, List.isEmpty_iff]
    constructor
    · rintro rfl
      exact ⟨[], [], rfl⟩
    · rintro ⟨front, back, h⟩
      have := congrArg List.length h
      simp only [List.length_nil, List.length_append] at this
      exact List.length_eq_zero_iff.1 (by omega)
  | cons c rest ih =>
    simp only [occursIn, Bool.or_eq_true, List.isPrefixOf_iff_prefix, ih]
    constructor
    · rintro (⟨back, h⟩ | ⟨front, back, rfl⟩)
      · exact ⟨[], back, by simpa using h.symm⟩
      · exact ⟨c :: front, back, rfl⟩
    · rintro ⟨front, back, h⟩
      cases front with
      | nil => exact .inl ⟨back, by simpa using h.symm⟩
      | cons d front =>
        simp only [List.cons_append, List.cons.injEq] at h
        exact .inr ⟨front, back, h.2⟩

/-- Whether a part occurs in a text. -/
def contains (whole part : String) : Bool := occursIn part.toList whole.toList

theorem contains_iff (whole part : String) :
    contains whole part = true ↔ ∃ front back, whole.toList = front ++ part.toList ++ back :=
  occursIn_iff _ _

/-- Whether a text ends in a part. -/
def endsWith (whole part : String) : Bool := part.toList.isSuffixOf whole.toList

/-- Replaces every occurrence of a nonempty part. While `skip` is positive
the scan is still inside an occurrence that has been replaced. -/
def replaceFrom (part replacement : List Char) : Nat → List Char → List Char
  | _, [] => []
  | skip + 1, _ :: rest => replaceFrom part replacement skip rest
  | 0, c :: rest =>
    if !part.isEmpty && part.isPrefixOf (c :: rest) then
      replacement ++ replaceFrom part replacement (part.length - 1) rest
    else c :: replaceFrom part replacement 0 rest

/-- Replaces every occurrence of a part, from left to right. -/
def replaceAll (part replacement : List Char) (whole : List Char) : List Char :=
  replaceFrom part replacement 0 whole

/-! ## Blanks -/

/-- A character that trimming removes: tab to carriage return, the spaces of
Unicode's space separator class, the separators of lines and paragraphs, and
the byte order mark. The next-line control U+0085 and the zero-width space
U+200B are not among them. -/
def isBlank (c : Char) : Bool :=
  ('\t' ≤ c && c ≤ '\r') || ('\u2000' ≤ c && c ≤ '\u200A') ||
    [' ', '\u00A0', '\u1680', '\u2028', '\u2029', '\u202F', '\u205F', '\u3000', '\uFEFF'].contains c

/-- A text without the blanks at its ends. -/
def trim (text : String) : String :=
  String.ofList (((text.toList.dropWhile isBlank).reverse.dropWhile isBlank).reverse)

end DisposalAudit.Text
