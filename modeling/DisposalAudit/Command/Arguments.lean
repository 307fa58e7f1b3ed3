import DisposalAudit.Command.Run
import DisposalAudit.Command.Suggestion

/-!
# The command line

A command line names a command, its operands and its options, in any order.
An option that takes a value takes the next word, whatever it is, or what
follows an equals sign; two hyphens end the options.

## Main definitions

* `UsageError` — what can be wrong with it, and its message.
* `Request.ofArguments` — the request of a command line.
-/

namespace DisposalAudit

/-! ## Options -/

/-- An option of a command. -/
structure OptionForm where
  long : String
  short : Option Char
  /-- Name of the value, if the option takes one. -/
  value : Option String

namespace OptionForm

/-- An option without a value. -/
def flag (long : String) : OptionForm := ⟨long, none, none⟩

/-- An option with a path. -/
def path (long : String) : OptionForm := ⟨long, none, some "path"⟩

/-- The form in which an option is named in a message. -/
def text (form : OptionForm) : String :=
  form.long ++ (form.value.elim "" fun name => " <" ++ name ++ ">")

/-- Whether a word is the option. One letter may have more behind it. -/
def isWord (form : OptionForm) (word : String) : Bool :=
  word == form.long || form.short.any fun letter => word.toList.take 2 == ['-', letter]

/-- The value that a word gives to the option behind an equals sign. -/
def valueIn? (form : OptionForm) (word : String) : Option String :=
  let start := form.long.toList ++ ['=']
  if form.value.isSome ∧ word.toList.take start.length = start then
    some (String.ofList (word.toList.drop start.length))
  else none

end OptionForm

/-- What can be wrong with a command line. -/
inductive UsageError where
  | unknownCommand (name : String)
  /-- An option that is not among the known ones. -/
  | unknownOption (name : String) (known : List String)
  | missingArgument (name : String)
  | missingValue (form : OptionForm)

/-- Names of the commands. -/
def commandNames : List String := ["check", "rules", "init", "help"]

/-- Message of an error. -/
def UsageError.message : UsageError → String
  | unknownCommand name =>
    "error: unknown command '" ++ name ++ "'" ++ Suggestion.text name commandNames
  | unknownOption name known =>
    "error: unknown option '" ++ name ++ "'" ++
      if name.toList.take 2 = ['-', '-'] then Suggestion.text name known else ""
  | missingArgument name => "error: missing required argument '" ++ name ++ "'"
  | missingValue form => "error: option '" ++ form.text ++ "' argument missing"

/-- Words of a command line, sorted. -/
structure SortedWords where
  /-- Options that are known, in order, with their values. -/
  options : List (String × String)
  operands : List String
  /-- The first option that is not known, and all words behind it but the
  options that are. -/
  unknown : List String

namespace SortedWords

/-- A word behind an unknown option, or an operand. -/
def add (words : SortedWords) (unknown : Bool) (word : String) : SortedWords :=
  if unknown then { words with unknown := word :: words.unknown }
  else { words with operands := word :: words.operands }

/-- An option that is known. -/
def addOption (words : SortedWords) (form : OptionForm) (value : String) : SortedWords :=
  { words with options := (form.long, value) :: words.options }

/-- Whether a word looks like an option. -/
def isOption (word : String) : Bool :=
  match word.toList with
  | '-' :: _ :: _ => true
  | _ => false

/-- Sorts words by the options of a command, behind an unknown option or
not. -/
def read (forms : List OptionForm) (unknown : Bool) :
    List String → Except UsageError SortedWords
  | [] => .ok ⟨[], [], []⟩
  | word :: rest =>
    if word = "--" then
      .ok (if unknown then ⟨[], [], word :: rest⟩ else ⟨[], rest, []⟩)
    else
      match forms.find? (·.isWord word) with
      | some form =>
        if form.value.isNone then (read forms unknown rest).map fun ws => ws.addOption form ""
        else
          match rest with
          | [] => .error (.missingValue form)
          | value :: rest => (read forms unknown rest).map fun ws => ws.addOption form value
      | none =>
        match forms.findSome? fun form => (form.valueIn? word).map fun value => (form, value) with
        | some (form, value) =>
          (read forms unknown rest).map fun ws => ws.addOption form value
        | none =>
          let unknown := unknown || isOption word
          (read forms unknown rest).map fun ws => ws.add unknown word

/-- The last value of an option. -/
def value? (words : SortedWords) (name : String) : Option String :=
  (words.options.reverse.find? fun option => option.1 = name).map Prod.snd

/-- Whether an option is given. -/
def has (words : SortedWords) (name : String) : Bool := (words.value? name).isSome

end SortedWords

/-! ## Requests -/

namespace Request

/-- Options in front of or behind every command. -/
def commonOptions : List OptionForm := [⟨"--version", some 'V', none⟩]

/-- The option that asks for help. -/
def helpName : String := "--help"

/-- Options of a check. -/
def checkOptions : List OptionForm :=
  [.path "--project", .path "--output", .flag "--no-terminal", .flag "--fail-on-findings",
    .flag "--verbose"]

/-- Options of the creation of settings. -/
def initOptions : List OptionForm := [.path "--project"]

/-- Whether some words that are not known ask for help. -/
def asksForHelp (unknown : List String) : Bool :=
  unknown.any fun word => word = helpName ∨ word = "-h"

/-- The names of the options of a command. -/
def knownOptions (forms : List OptionForm) : List String :=
  (forms.map OptionForm.long ++ helpName :: commonOptions.map OptionForm.long).eraseDups

/-- The request of a command with its operands, given the words behind the
first unknown option. -/
def ofCommand (forms : List OptionForm) (operands unknown : List String)
    (request : SortedWords → Except UsageError Request) : Except UsageError Request := do
  let words ← SortedWords.read forms false unknown
  if asksForHelp words.unknown then return .usage true
  match words.unknown with
  | name :: _ => throw (.unknownOption name (knownOptions forms))
  | [] => request { words with operands := operands ++ words.operands }

/-- The request for a check. -/
def ofCheck (words : SortedWords) : Except UsageError Request :=
  if words.operands.isEmpty then .error (.missingArgument "dumps")
  else
    .ok (.check
      { dumps := words.operands
        project := words.value? "--project"
        output := words.value? "--output"
        terminal := !words.has "--no-terminal"
        failOnFindings := words.has "--fail-on-findings"
        verbose := words.has "--verbose" })

/-- The request of a command line. -/
def ofArguments (arguments : List String) : Except UsageError Request := do
  let words ← SortedWords.read commonOptions false arguments
  if words.has "--version" then return .version
  match words.operands with
  | "check" :: operands => ofCommand checkOptions operands words.unknown ofCheck
  | "rules" :: operands => ofCommand [] operands words.unknown fun _ => .ok .rules
  | "init" :: operands =>
    ofCommand initOptions operands words.unknown fun ws => .ok (.init (ws.value? "--project"))
  | "help" :: _ => pure (.usage true)
  | operands =>
    if asksForHelp words.unknown then return .usage true
    match operands, words.unknown with
    | name :: _, _ => throw (.unknownCommand name)
    | [], name :: _ => throw (.unknownOption name (knownOptions []))
    | [], [] => pure (.usage false)

end Request

end DisposalAudit
