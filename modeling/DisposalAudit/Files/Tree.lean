/-!
# Paths and files

A path is a sequence of names between slashes. Empty names and single dots
mean nothing, two dots take back the name before them, and a path that does
not start with a slash is read from a directory.

## Main definitions

* `Path.names`, `Path.resolve` — the names of a path, and the absolute path
  that it stands for.
* `FileTree` — the texts of files by absolute path.
* `FileTree.text?`, `FileTree.read`, `FileTree.write` — reading and writing a
  file.

## Main results

* `FileTree.text?_write` — a file reads back what was written last.
-/

namespace DisposalAudit

namespace Path

/-- The names of a path, in order. -/
def names (path : String) : List (List Char) :=
  (path.toList.splitOn '/').filter fun name => !name.isEmpty

/-- Whether a path starts at the root. -/
def isAbsolute (path : String) : Bool := path.toList.head? == some '/'

/-- Names without dots. -/
def normalize (names : List (List Char)) : List (List Char) :=
  names.foldl (fun read name =>
    if name = ['.'] then read
    else if name = ['.', '.'] then read.dropLast
    else read ++ [name]) []

/-- The absolute path of names. -/
def ofNames (names : List (List Char)) : String :=
  String.ofList ('/' :: ['/'].intercalate names)

/-- The names of the absolute path that a path stands for in a directory. -/
def resolveNames (directory path : String) : List (List Char) :=
  normalize (if isAbsolute path then names path else names directory ++ names path)

/-- The absolute path that a path stands for in a directory. -/
def resolve (directory path : String) : String := ofNames (resolveNames directory path)

end Path

/-- Files, each with its absolute path and its text. -/
abbrev FileTree := List (String × String)

namespace FileTree

/-- The text of a file. -/
def text? (files : FileTree) (path : String) : Option String := files.lookup path

/-- The text of a file, or what is said if there is none. -/
def read (files : FileTree) (path : String) : Except String String :=
  match files.text? path with
  | some text => .ok text
  | none => .error ("ENOENT: no such file or directory, open '" ++ path ++ "'")

/-- Writes a file. -/
def write (files : FileTree) (path text : String) : FileTree :=
  (path, text) :: files.filter fun file => file.1 != path

theorem text?_write (files : FileTree) (path other text : String) :
    text? (write files path text) other =
      if other = path then some text else text? files other := by
  by_cases h : other = path
  · simp [text?, write, h]
  · have differs : (other == path) = false := by simp [h]
    rw [text?, write, List.lookup_cons, differs, if_neg h]
    induction files with
    | nil => rfl
    | cons file rest ih =>
      by_cases hp : file.1 = path
      · have passed : (other == file.1) = false := by simp [hp, h]
        have dropped : (file.1 != path) = false := by simp [hp]
        rw [List.filter_cons, dropped, text?, List.lookup_cons, passed]
        exact ih
      · have kept : (file.1 != path) = true := by simp [hp]
        rw [List.filter_cons, kept, if_pos rfl, text?, List.lookup_cons, List.lookup_cons]
        cases other == file.1 with
        | true => rfl
        | false => exact ih

end FileTree

end DisposalAudit
