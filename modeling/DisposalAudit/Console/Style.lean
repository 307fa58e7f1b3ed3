import DisposalAudit.Text.Search

/-!
# Styled text

A style is a pair of terminal codes, one that switches it on and one that
switches it off. Where a painted text is itself painted, a code inside it
that would switch the outer style off is followed by the code that switches
it on again, and no style stays on across a line break.

## Main definitions

* `Style` — a pair of codes; `Style.bold`, `Style.red`, ….
* `Style.paint` — a text under several styles, outermost first.
-/

namespace DisposalAudit

/-- Codes that switch a style on and off. -/
structure Style where
  on : Nat
  off : Nat
  deriving DecidableEq

namespace Style

/-- Heavy letters. -/
def bold : Style := ⟨1, 22⟩
/-- Faint letters. -/
def dim : Style := ⟨2, 22⟩
/-- Red letters. -/
def red : Style := ⟨31, 39⟩
/-- Green letters. -/
def green : Style := ⟨32, 39⟩
/-- Yellow letters. -/
def yellow : Style := ⟨33, 39⟩
/-- Blue letters. -/
def blue : Style := ⟨34, 39⟩
/-- Cyan letters. -/
def cyan : Style := ⟨36, 39⟩
/-- White letters. -/
def white : Style := ⟨37, 39⟩
/-- Gray letters. -/
def gray : Style := ⟨90, 39⟩

/-- The characters of a terminal code. -/
def code (n : Nat) : List Char := '\x1b' :: '[' :: Nat.toDigits 10 n ++ ['m']

/-- Closes the styles before each line break and opens them behind it. -/
def splitAtBreaks (opening closing : List Char) : List Char → List Char
  | [] => []
  | '\r' :: '\n' :: rest =>
    closing ++ '\r' :: '\n' :: opening ++ splitAtBreaks opening closing rest
  | '\n' :: rest => closing ++ '\n' :: opening ++ splitAtBreaks opening closing rest
  | c :: rest => c :: splitAtBreaks opening closing rest

/-- A text under several styles, outermost first. An empty text stays
empty, and nothing is painted without colour. -/
def paint (colour : Bool) (styles : List Style) (text : String) : String :=
  if !colour || text.isEmpty then text
  else
    let opening := styles.flatMap fun s => code s.on
    let closing := styles.reverse.flatMap fun s => code s.off
    let reopened := styles.foldr
      (fun s body => Text.replaceAll (code s.off) (code s.off ++ code s.on) body) text.toList
    String.ofList (opening ++ splitAtBreaks opening closing reopened ++ closing)

end Style

end DisposalAudit
