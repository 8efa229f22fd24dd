import TierBudget.Settings.Load
import TierBudget.Text.Split
/-!
# Files by path

`Files.read?` finds the text of a file by a path from the working directory, in which points and
slashes may be put in any way that a file system allows. `settingsFile` finds the file of settings,
whose name tells its format and may be given without that ending.
-/

namespace TierBudget.CommandLine

/-- The texts of files by path. -/
abbrev Files := List (String × String)

/-! ## Paths -/

/-- The parts of a path between slashes. -/
def pathParts (path : String) : List String := (Text.split '/' path.toList).map .ofList

namespace Files

/-- Whether names lead to a directory: the working one, or one that holds a file. -/
def isDirectory (files : Files) (names : List String) : Bool :=
  names.isEmpty || files.any fun (path, _) => names.isPrefixOf ((pathParts path).dropLast)

/-- The names that lead to where a part of a path leads from the given ones, if that is in the
working directory. Parts only lead on from a directory. -/
def follow (files : Files) (names : List String) (part : String) : Option (List String) :=
  if !files.isDirectory names then none
  else if part = "" || part = "." then some names
  else if part = ".." then if names.isEmpty then none else some names.dropLast
  else some (names ++ [part])

/-- The text of the file that a path leads to. -/
def read? (files : Files) (path : String) : Option String :=
  (files.lookup path).or <|
    if path.toList.head? = some '/' then none
    else do
      let names ← (pathParts path).foldlM files.follow []
      let file ← files.find? fun (path, _) => pathParts path == names
      return file.2

end Files

/-! ## The file of settings -/

/-- The part of a path up to its last name: no slashes follow it, nor points for the same
directory. -/
def trimPath : List String → List String
  | [] => []
  | part :: rest =>
    match trimPath rest with
    | [] => if part = "" || part = "." then [] else [part]
    | rest => part :: rest

/-- The format that a path's last name ends in, after at least one other character. -/
def formatOf? (path : String) : Option Format :=
  match ((Text.split '.' ((pathParts path).getLast?.getD "").toList).map String.ofList).reverse with
  | ending :: before :: rest =>
    if rest.isEmpty && before = "" then none else Format.ofExtension? ending
  | _ => none

/-- The paths with the endings of all formats, and the formats. A path that ends above a directory
names no file. -/
def completions (path : String) : List (String × Format) :=
  let parts := trimPath (pathParts path)
  if parts.isEmpty || parts.getLast? = some ".." then []
  else
    let stem := "/".intercalate parts
    Format.all.flatMap fun f => f.extensions.map fun e => (s!"{stem}.{e}", f)

/-- The paths at which a file of settings is looked for. -/
def configPaths (path : String) : List String := path :: (completions path).map (·.1)

/-- The file of settings at a path. The first file found counts, and its format must be known. -/
def settingsFile (files : Files) : Option String → SettingsFile
  | none => .absent
  | some path =>
    match files.read? path with
    | some text => ((formatOf? path).map (.text · text)).getD .unreadable
    | none =>
      ((completions path).findSome? fun (p, f) => (files.read? p).map (.text f ·)).getD .unreadable

end TierBudget.CommandLine
