/-!
# `Schemata.Store.Files` — files and their paths

## Contents
- **Paths.** `Path.plain`, a path without needless parts, and `Path.resolve`, which follows parts that lead
  upwards.
- **Files.** `FileEntry`, what may stand under a path; `Files`, what stands under which path, with
  `Files.find?`, `Files.write` and `Files.delete`.

Relative paths are resolved against a directory that is not named, so they stay relative; there are no links.
-/

namespace Schemata

/-! ## Paths -/

namespace Path

/-- The parts of a path between slashes. -/
def parts (path : String) : List String :=
  (path.toList.splitOn '/').map String.ofList

/-- Joins parts to a path; without parts it is the place itself. -/
def join (isAbsolute : Bool) (parts : List String) : String :=
  let joined := "/".intercalate parts
  if isAbsolute then "/" ++ joined else if parts.isEmpty then "." else joined

/-- A path without empty parts and without those that stay at the same place. -/
def plain (path : String) : String :=
  join (path.startsWith "/") ((parts path).filter fun part => part != "" && part != ".")

/-- The parts of the directory around a place, the last one first. Above the root there is nothing; the place
where relative paths begin lies in directories of which only the distance is known. -/
def outwards (isAbsolute : Bool) : List String → List String
  | [] => if isAbsolute then [] else [".."]
  | part :: done => if part = ".." then ".." :: part :: done else done

/-- Follows parts one after the other; two points lead upwards. -/
def follow (isAbsolute : Bool) : List String → List String → List String
  | done, [] => done.reverse
  | done, part :: rest =>
    if part = "" ∨ part = "." then follow isAbsolute done rest
    else if part = ".." then follow isAbsolute (outwards isAbsolute done) rest
    else follow isAbsolute (part :: done) rest

/-- The place that a path leads to. -/
def resolve (path : String) : String :=
  let isAbsolute := path.startsWith "/"
  join isAbsolute (follow isAbsolute [] (parts path))

/-- Whether a resolved path names a directory for its form alone: the root, the place where relative paths begin,
or one around it. -/
def isAround (path : String) : Bool := (parts path).all fun part => part = "" || part = "." || part = ".."

/-- The part of a name from its last point on, in small letters; a point in front or at the end starts none. -/
def suffix (path : String) : List Char :=
  let name := ((parts path).getLastD "").toList
  let ending := name.reverse.takeWhile (· != '.')
  if ending.isEmpty ∨ ending.length + 1 ≥ name.length then []
  else ('.' :: ending.reverse).map Char.toLower

end Path

/-! ## Files -/

/-- What stands under a path. -/
inductive FileEntry
  /-- A directory, or anything else that is there and is no file. -/
  | directory
  | file (bytes : List UInt8)
  /-- A file whose content cannot be read, with the reason that the system gives. -/
  | unreadable (reason : String)
  /-- The system does not even say whether there is something, as in a directory that may not be searched or
  under a name that is too long. -/
  | unreachable
deriving DecidableEq, Repr

/-- What stands under which resolved path. -/
abbrev Files := List (String × FileEntry)

namespace Files

/-- What stands under a path. No path contains the character NUL. -/
def find? (files : Files) (path : String) : Option FileEntry :=
  if path.toList.contains '\x00' then some .unreachable
  else if Path.isAround path then some .directory
  else files.lookup path

/-- Removes what stands under a path. -/
def delete (files : Files) (path : String) : Files := files.filter fun entry => entry.1 != path

/-- Puts something under a path. -/
def write (files : Files) (path : String) (entry : FileEntry) : Files :=
  (path, entry) :: files.delete path

/-- The directories that a path leads through. -/
def parents (path : String) : List String :=
  let parts := Path.parts path
  (List.range (parts.length - 1)).map fun n => "/".intercalate (parts.take (n + 1))

/-- Puts something under a path, with directories around it where there are none. -/
def writeWithin (files : Files) (path : String) (entry : FileEntry) : Files :=
  let missing := (parents path).filter fun parent => (files.find? parent).isNone
  (missing.foldl (fun files parent => files.write parent .directory) files).write path entry

end Files

end Schemata
