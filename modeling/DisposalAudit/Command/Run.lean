import DisposalAudit.Codebase.Basic
import DisposalAudit.Codebase.Load
import DisposalAudit.Report.Terminal
import DisposalAudit.Settings.Reader

/-!
# Running commands

A command sees files and a few facts about its surroundings, and what it
does is a value: the lines that it prints, the file that it writes, and
whether it fails.

## Main definitions

* `Request` — what a command line asks for.
* `Environment` — what a command sees.
* `Outcome` — what a command does.
* `Environment.check`, `Environment.listRules`, `Environment.create` — the
  commands.
* `Environment.run` — a command line.
-/

namespace DisposalAudit

/-! ## Requests -/

/-- What a check is asked to do. -/
structure CheckRequest where
  /-- Files or patterns. -/
  dumps : List String
  /-- Directory of the project, if it is not the current one. -/
  project : Option String
  /-- File for the audit record. -/
  output : Option String
  /-- Whether the report is printed. -/
  terminal : Bool
  /-- Whether findings make the check fail. -/
  failOnFindings : Bool
  /-- Whether debug entries are printed. -/
  verbose : Bool
  deriving DecidableEq

/-- What a command line asks for. -/
inductive Request where
  | check (request : CheckRequest)
  | rules
  | init (project : Option String)
  | version
  /-- How the program is used; the flag tells whether it was asked for. -/
  | usage (asked : Bool)
  deriving DecidableEq

/-! ## What a command sees and does -/

/-- What a command sees. -/
structure Environment where
  /-- The current directory, as an absolute path. -/
  directory : String
  files : FileTree
  /-- The absolute paths of the files that a pattern matches, in any order. -/
  search : String → List String
  readers : Readers
  /-- The time that goes into audit records. -/
  timestamp : String
  /-- Whether texts are painted. -/
  colour : Bool

/-- What a command does. -/
structure Outcome where
  failed : Bool
  lines : List ConsoleLine
  /-- The file that is written, by absolute path, and its text. -/
  written : Option (String × String)

namespace Outcome

/-- A command that prints and does no more. -/
def prints (lines : List ConsoleLine) : Outcome := ⟨false, lines, none⟩

/-- A command that fails with some lines. -/
def fails (lines : List ConsoleLine) : Outcome := ⟨true, lines, none⟩

/-- The lines of the streams that pass a test, as one text. -/
def streamText (outcome : Outcome) (test : Stream → Bool) : String :=
  String.join ((outcome.lines.filter fun line => test line.stream).map fun line =>
    line.text ++ "\n")

/-- What is written to the standard output. -/
def outputText (outcome : Outcome) : String := outcome.streamText (· = .output)

/-- What is written to the standard error output: warnings and errors. -/
def errorText (outcome : Outcome) : String := outcome.streamText (· ≠ .output)

/-- The files behind a command. -/
def filesAfter (outcome : Outcome) (files : FileTree) : FileTree :=
  outcome.written.elim files fun (path, text) => files.write path text

end Outcome

namespace Environment

/-- The absolute path that a path stands for. -/
def resolve (env : Environment) (path : String) : String := Path.resolve env.directory path

/-- The line of an error. -/
def errorLine (env : Environment) (message : String) : ConsoleLine :=
  .err (Style.paint env.colour [.red] ("Error: " ++ message))

/-- The settings of the project that a request names. -/
def settings (env : Environment) (project : Option String) :
    Except SettingsFileError Settings :=
  loadSettings env.readers env.files (env.resolve (project.getD env.directory))

/-- The modules that a request names, and what is wrong with its dumps. -/
def loaded (env : Environment) (request : CheckRequest) : LoadResult :=
  loadModules env.readers env.files.read
    (request.dumps.map fun pattern => ⟨pattern, env.search pattern⟩)

/-- The audit record of modules, and the log of the run. -/
def audit (env : Environment) (settings : Settings) (modules : List Module) :
    AuditRecord × List LogEntry :=
  let c := Codebase.load modules
  let result := c.run settings.rules settings
  (.ofRun env.timestamp settings.rules c result, result.log)

/-- The path of the file that a check writes. An empty name asks for none. -/
def outputPath? (env : Environment) (request : CheckRequest) : Option String :=
  (request.output.filter fun name => !name.isEmpty).map env.resolve

/-- The lines of a check behind its log. -/
def checkReport (env : Environment) (request : CheckRequest) (record : AuditRecord) :
    List ConsoleLine :=
  if request.terminal then
    ((env.outputPath? request).toList.map fun path =>
      .out (Style.paint env.colour [.dim] ("Audit record written to " ++ path))) ++
    record.report env.colour
  else []

/-- Checks the modules that a request names. Settings are read first, and
nothing is checked unless every module can be loaded. -/
def check (env : Environment) (request : CheckRequest) : Outcome :=
  match env.settings request.project with
  | .error e => .fails [env.errorLine e.message]
  | .ok settings =>
    let loaded := env.loaded request
    if !loaded.errors.isEmpty then
      .fails (loadErrorReport env.colour (loaded.errors.map LoadError.message))
    else
      let (record, log) := env.audit settings loaded.modules
      { failed := request.failOnFindings && !record.summary.passed
        lines := printLog env.colour request.verbose log ++ env.checkReport request record
        written := (env.outputPath? request).map fun path => (path, record.fileText) }

/-- The lines of a rule. -/
def ruleLines (env : Environment) (rule : Rule) : List ConsoleLine :=
  let dim := Style.paint env.colour [.dim]
  [.out ("\n" ++ Style.paint env.colour [.bold, .cyan] rule.id),
    .out ("  " ++ dim "Problem:" ++ "  " ++ rule.problem),
    .out ("  " ++ dim "Solution:" ++ " " ++ rule.solution)]

/-- Lists the rules. -/
def listRules (env : Environment) : Outcome :=
  .prints ((registeredRules none).flatMap env.ruleLines ++ [.out ""])

/-- Creates the settings of a project. -/
def create (env : Environment) (project : Option String) : Outcome :=
  let project := env.resolve (project.getD env.directory)
  match createSettings env.files project with
  | .error e => .fails [env.errorLine e.message]
  | .ok text =>
    let path := settingsPath project
    { failed := false
      lines := [.out (Style.paint env.colour [.green] ("Created " ++ path))]
      written := some (path, text) }

/-- How the program is used. -/
def usageText : String := "Usage: " ++ toolName ++ " [options] [command]"

/-- Runs a request. -/
def perform (env : Environment) : Request → Outcome
  | .check request => env.check request
  | .rules => env.listRules
  | .init project => env.create project
  | .version => .prints [.out toolVersion]
  | .usage true => .prints [.out usageText]
  | .usage false => .fails [.err usageText]

/-- Runs a command line, from what reading it comes to. -/
def run (env : Environment) : Except String Request → Outcome
  | .error message => .fails [.err message]
  | .ok request => env.perform request

end Environment

/-- Whether a demand for colour, if there is one, asks for it: an empty one,
`true`, or a positive number. -/
def demandsColour (demand : Option String) : Bool :=
  demand.any fun text =>
    text.isEmpty || text = "true" ||
      0 < Numeral.natOfDigits 10 (text.toList.takeWhile Char.isDigit)

end DisposalAudit
