import DisposalAudit.Files.Tree
import DisposalAudit.Json.Printer
import DisposalAudit.Json.Reader
import DisposalAudit.Settings.Basic
import DisposalAudit.Text.Search

/-!
# Reading settings

Settings are read from a document value. The first thing that is wrong is
the error: the overrides come before the ignore rules, unknown names before
the names that are known, and of an ignore rule the kinds of its members
before what they say.

A project keeps its settings in a file of a fixed name in its directory. A
project without that file has no settings.

## Main definitions

* `SettingsError` — what can be wrong, and its message.
* `Settings.ofValue` — the settings of a document value.
* `settingsFileName` — the name of the file.
* `loadSettings` — the settings of a project.
* `createSettings` — the file text of the settings of a new project.
-/

namespace DisposalAudit

/-- What can be wrong with settings. -/
inductive SettingsError where
  | notRecord
  | rulesNotRecord
  | ruleNotRecord
  | unknownOption (name : String)
  | emptyName (field : String)
  | emptyFragments
  | ignoreNotList
  | entryNotRecord (index : Nat)
  | entryNotText (index : Nat) (field : String)
  | entryWithoutCriterion (index : Nat)
  | entryWithoutReason (index : Nat)
  | entryReasonTooShort (index : Nat)
  deriving DecidableEq

namespace SettingsError

/-- A message about an ignore rule. -/
def onEntry (index : Nat) (text : String) : String :=
  "ignore[" ++ toString index ++ "]: " ++ text

/-- A message about the options of the guard rule. -/
def onRule (text : String) : String := "rules[\"" ++ disposedGuardId ++ "\"]" ++ text

/-- Message of an error. -/
def message : SettingsError → String
  | notRecord => "Configuration must be an object"
  | rulesNotRecord => "\"rules\" must be an object"
  | ruleNotRecord => onRule " must be an object"
  | unknownOption name => onRule (": unknown option \"" ++ name ++ "\"")
  | emptyName field => "\"" ++ field ++ "\" must be a non-empty string"
  | emptyFragments => "\"helperNameFragments\" must be a non-empty array of strings"
  | ignoreNotList => "\"ignore\" must be an array"
  | entryNotRecord index => onEntry index "Rule must be an object"
  | entryNotText index field => onEntry index ("\"" ++ field ++ "\" must be a string")
  | entryWithoutCriterion index =>
    onEntry index "Rule must specify at least one of: type, method, rule"
  | entryWithoutReason index => onEntry index "Rule must have a \"reason\" field"
  | entryReasonTooShort index =>
    onEntry index "Reason must be at least 10 characters. Provide meaningful explanation."

end SettingsError

namespace Settings

/-- Names of the options of the guard rule. -/
def optionNames : List String :=
  ["lifecycleInterface", "guardException", "disposeMethod", "helperNameFragments"]

/-- A text with more in it than blanks. -/
def readName (field : String) : Value → Except SettingsError String
  | .text s => if (Text.trim s).isEmpty then .error (.emptyName field) else .ok s
  | _ => .error (.emptyName field)

/-- Something that may be absent. -/
def optionally {α : Type} (read : Value → Except SettingsError α) :
    Option Value → Except SettingsError (Option α)
  | .none => .ok .none
  | some value => (read value).map some

/-- A list of at least one name. -/
def readFragments : Value → Except SettingsError (List String)
  | .list (first :: rest) => (first :: rest).mapM (readName "helperNameFragments")
  | _ => .error .emptyFragments

/-- Overrides of the guard rule. -/
def readGuard : Value → Except SettingsError GuardOverrides
  | .record members => do
    match (Members.listing members).find? fun m => !optionNames.contains m.1 with
    | some (name, _) => throw (.unknownOption name)
    | .none => pure ()
    let name (field : String) := optionally (readName field) (Members.get? members field)
    let lifecycleInterface ← name "lifecycleInterface"
    let guardException ← name "guardException"
    let disposeMethod ← name "disposeMethod"
    let helperNameFragments ←
      optionally readFragments (Members.get? members "helperNameFragments")
    pure { lifecycleInterface, guardException, disposeMethod, helperNameFragments }
  | _ => .error .ruleNotRecord

/-- Overrides by rule. Rules that are not registered are passed over. -/
def readRules : Value → Except SettingsError RuleOverrides
  | .record members =>
    (optionally readGuard (Members.get? members disposedGuardId)).map RuleOverrides.mk
  | _ => .error .rulesNotRecord

/-- A criterion of an ignore rule. -/
def readCriterion (index : Nat) (field : String) : Value → Except SettingsError String
  | .text s => .ok s
  | _ => .error (.entryNotText index field)

/-- The reason of an ignore rule, at least ten units long without the blanks
at its ends. -/
def readReason (index : Nat) : Option Value → Except SettingsError String
  | some (.text reason) =>
    if reason.isEmpty then .error (.entryWithoutReason index)
    else if Text.width (Text.trim reason) < 10 then .error (.entryReasonTooShort index)
    else .ok reason
  | _ => .error (.entryWithoutReason index)

/-- An ignore rule. -/
def readEntry (index : Nat) : Value → Except SettingsError IgnoreRule
  | .record members => do
    let criterion (field : String) :=
      optionally (readCriterion index field) (Members.get? members field)
    let type ← criterion "type"
    let method ← criterion "method"
    let rule ← criterion "rule"
    if [type, method, rule].all fun c => c.all String.isEmpty then
      throw (.entryWithoutCriterion index)
    let reason ← readReason index (Members.get? members "reason")
    pure { type, method, rule, reason }
  | _ => .error (.entryNotRecord index)

/-- A list of ignore rules. -/
def readIgnore : Value → Except SettingsError (List IgnoreRule)
  | .list entries => entries.zipIdx.mapM fun (entry, index) => readEntry index entry
  | _ => .error .ignoreNotList

/-- The settings of a document value. -/
def ofValue : Value → Except SettingsError Settings
  | .record members => do
    let overrides ← optionally readRules (Members.get? members "rules")
    let ignore ← optionally readIgnore (Members.get? members "ignore")
    pure { overrides, ignore := ignore.getD [] }
  | _ => .error .notRecord

end Settings

/-! ## The file of a project -/

/-- The name of the file that holds the settings of a project. -/
def settingsFileName : String := ".disposeguardrc.json"

/-- The path of the settings file of a project. -/
def settingsPath (project : String) : String := Path.resolve project settingsFileName

/-- What can be wrong with a settings file. -/
inductive SettingsFileError where
  /-- It holds no document. -/
  | unreadable (message : String)
  /-- Its document holds no settings. -/
  | invalid (error : SettingsError)
  /-- It is there and is not to be overwritten. -/
  | exists

/-- Message of an error. -/
def SettingsFileError.message : SettingsFileError → String
  | unreadable message => "Failed to load " ++ settingsFileName ++ ": " ++ message
  | invalid error => "Failed to load " ++ settingsFileName ++ ": " ++ error.message
  | .exists => settingsFileName ++ " already exists"

/-- The settings in a text. -/
def Settings.ofText (readers : Readers) (text : String) : Except SettingsFileError Settings :=
  match Json.read? text with
  | .none => .error (.unreadable (readers.jsonFault text))
  | some value => (Settings.ofValue value).mapError .invalid

/-- The settings of a project. -/
def loadSettings (readers : Readers) (files : FileTree) (project : String) :
    Except SettingsFileError Settings :=
  match files.text? (settingsPath project) with
  | none => .ok .none
  | some text => Settings.ofText readers text

/-- The file text of the settings of a new project, unless it has some. -/
def createSettings (files : FileTree) (project : String) : Except SettingsFileError String :=
  match files.text? (settingsPath project) with
  | some _ => .error .exists
  | none => .ok (Json.pretty Settings.initial.toValue)

end DisposalAudit
