import DisposalAudit.Codebase.Basic
import DisposalAudit.Dump.Decode
import DisposalAudit.Json.Reader

/-!
# Loading module dumps

The dumps of a codebase are files that are searched for. Every file is loaded
once, in the order in which the searches reach it; of several modules with
one name the first is kept. What goes wrong with a file does not keep the
others from being loaded.

## Main definitions

* `FileError`, `Module.ofFile` — the module in a file, or what is wrong.
* `FileSearch`, `foundFiles` — what is found, and the files that are loaded.
* `LoadError` — what can be wrong with searches and files, and its message.
* `loadFiles`, `loadModules` — modules and errors.

## Main results

* `loadFiles_length` — every file gives a module or an error.
-/

namespace DisposalAudit

/-! ## One file -/

/-- The document in a text: JSON if the name of its file says so, and YAML
otherwise. -/
def Readers.document (readers : Readers) (path text : String) : Except String Value :=
  if Text.endsWith path ".json" then
    match Json.read? text with
    | some value => .ok value
    | none => .error (readers.jsonFault text)
  else readers.yaml text

/-- What can be wrong with a file. -/
inductive FileError where
  /-- It has no text, or its text holds no document. -/
  | unreadable (message : String)
  /-- Its document is no dump. -/
  | invalid (violations : List Violation)

/-- Message of an error. -/
def FileError.message : FileError → String
  | unreadable message => message
  | invalid violations => dumpErrorText violations

/-- The module in a file, from what reading the file comes to. -/
def Module.ofFile (readers : Readers) (path : String) (content : Except String String) :
    Except FileError Module :=
  match content with
  | .error message => .error (.unreadable message)
  | .ok text =>
    match readers.document path text with
    | .error message => .error (.unreadable message)
    | .ok value => (Module.ofValue path value).mapError .invalid

/-! ## Searches -/

/-- A pattern with the absolute paths of the files that were found for it, in
any order. -/
structure FileSearch where
  pattern : String
  found : List String

/-- What was found, in the order of units. -/
def FileSearch.sorted (search : FileSearch) : List String := search.found.mergeSort Text.unitsLE

/-- The files of some searches, search by search, each file where it is found
first. -/
def foundFiles (searches : List FileSearch) : List String :=
  (searches.flatMap FileSearch.sorted).eraseDups

/-! ## Many files -/

/-- What can be wrong with searches and files. -/
inductive LoadError where
  /-- A pattern matches no file. -/
  | unmatched (pattern : String)
  /-- A file holds no module. -/
  | failed (path : String) (error : FileError)
  /-- A file holds a module of a name that another file gave before. -/
  | duplicate (name path first : String)

/-- Message of an error. -/
def LoadError.message : LoadError → String
  | unmatched pattern => "No module dumps matched " ++ pattern
  | failed path error => "Failed to load module " ++ path ++ ": " ++ error.message
  | duplicate name path first =>
    "Duplicate module \"" ++ name ++ "\" found at " ++ path ++ " (first seen in " ++ first ++ ")"

/-- Modules that have been loaded, and what went wrong. -/
structure LoadResult where
  modules : List Module
  errors : List LoadError

section

variable (readers : Readers) (content : String → Except String String)

/-- Loads files in order. A module is kept unless one of its name has been
kept before. -/
def loadFiles (kept : List Module) : List String → LoadResult
  | [] => ⟨[], []⟩
  | path :: rest =>
    match Module.ofFile readers path (content path) with
    | .error error =>
      let result := loadFiles kept rest
      { result with errors := .failed path error :: result.errors }
    | .ok m =>
      match kept.find? fun other => other.name = m.name with
      | some first =>
        let result := loadFiles kept rest
        { result with errors := .duplicate m.name path first.source :: result.errors }
      | none =>
        let result := loadFiles (kept ++ [m]) rest
        { result with modules := m :: result.modules }

theorem loadFiles_length (kept : List Module) (paths : List String) :
    (loadFiles readers content kept paths).modules.length +
      (loadFiles readers content kept paths).errors.length = paths.length := by
  induction paths generalizing kept with
  | nil => rfl
  | cons path rest ih =>
    rw [loadFiles]
    split
    · have h := ih kept
      simp only [List.length_cons]
      omega
    · split
      · have h := ih kept
        simp only [List.length_cons]
        omega
      · rename_i m _ _ _
        have h := ih (kept ++ [m])
        simp only [List.length_cons]
        omega

/-- Loads the modules in the files that are found. A search that finds
nothing is an error, and these errors come first. -/
def loadModules (searches : List FileSearch) : LoadResult :=
  let unmatched := searches.filter fun search => search.found.isEmpty
  let result := loadFiles readers content [] (foundFiles searches)
  { result with
    errors := unmatched.map (fun search => .unmatched search.pattern) ++ result.errors }

end

end DisposalAudit
