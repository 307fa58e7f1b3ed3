import DisposalAudit.Console.Style

/-!
# Console lines and the log

What a run prints is a list of lines, each for one of three streams. Log
entries are written with the scope that they come from. Debug entries are
part of every log, and are left out only where it is printed without
verbosity, so that asking for them cannot change anything else.

## Main definitions

* `ConsoleLine` — a printed line.
* `LogEntry`, `LogLevel` — a message with its scope and level.
* `LogEntry.line?` — the line of an entry, if it is printed.
* `printLog` — the lines of a log.

## Main results

* `printLog_quiet` — a quiet log is the verbose one without debug entries.
-/

namespace DisposalAudit

/-- Where a line goes: ordinary output, or warnings and errors. -/
inductive Stream where
  | output
  | warning
  | error
  deriving DecidableEq

/-- A line on a stream. -/
structure ConsoleLine where
  stream : Stream
  text : String
  deriving DecidableEq

/-- An output line. -/
def ConsoleLine.out (text : String) : ConsoleLine := ⟨.output, text⟩

/-- An error line. -/
def ConsoleLine.err (text : String) : ConsoleLine := ⟨.error, text⟩

/-- How much an entry matters. -/
inductive LogLevel where
  | debug
  | info
  | warning
  | error
  deriving DecidableEq

/-- A message, with the part of the program that it comes from. -/
structure LogEntry where
  scope : String
  level : LogLevel
  message : String
  deriving DecidableEq

namespace LogEntry

/-- The line of an entry. Debug entries are printed only when verbose. -/
def line? (colour verbose : Bool) (entry : LogEntry) : Option ConsoleLine :=
  let written (stream : Stream) (styles : List Style) : ConsoleLine :=
    let scope := Style.paint colour [.dim] ("[" ++ entry.scope ++ "]")
    ⟨stream, scope ++ " " ++ Style.paint colour styles entry.message⟩
  match entry.level with
  | .debug => if verbose then some (written .error [.gray]) else none
  | .info => some (written .output [])
  | .warning => some (written .warning [.yellow])
  | .error => some (written .error [.red])

end LogEntry

/-- The lines of a log. -/
def printLog (colour verbose : Bool) (log : List LogEntry) : List ConsoleLine :=
  log.filterMap (LogEntry.line? colour verbose)

theorem printLog_quiet (colour : Bool) (log : List LogEntry) :
    printLog colour false log =
      printLog colour true (log.filter fun entry => entry.level ≠ .debug) := by
  induction log with
  | nil => rfl
  | cons entry rest ih =>
    obtain ⟨scope, level, message⟩ := entry
    cases level <;> simp_all [printLog, LogEntry.line?]

end DisposalAudit
