/-!
# Files

What is needed to know about files and folders, by paths as they are written. It may be asked of a
disk, or of a tree that is kept as a value.
-/

namespace Casework

inductive FileKind where
  | file | folder
deriving DecidableEq, Repr

structure FileSystem (m : Type → Type) where
  kind? : String → m (Option FileKind)
  /-- The names in a folder, in any order. -/
  names? : String → m (Option (List String))
  text? : String → m (Option String)

namespace FilePath

/-- The path of something in a folder. -/
def join (folder name : String) : String :=
  if folder.isEmpty || folder.endsWith "/" then folder ++ name else folder ++ "/" ++ name

/-- What stands behind the last point of a name, unless the name begins with it. -/
def extension? (name : String) : Option String :=
  let cs := name.toList
  let after := (cs.reverse.takeWhile (· != '.')).reverse
  if cs.length ≤ after.length + 1 then none else some (String.ofList after)

/-- Parts that lead nowhere are left out, except in front. -/
def trimmedParts (parts : List String) : List String :=
  let rest := (parts.reverse.dropWhile fun p => p.isEmpty || p == ".").reverse
  if rest.isEmpty then parts.take 1 else rest

/-- The folder around, which is none for a path without parts. -/
def parent? (path : String) : Option String :=
  let parts := trimmedParts (path.splitOn "/")
  match parts with
  | [] | [""] => none
  | [_] => some ""
  | parts =>
    let above := trimmedParts parts.dropLast
    some (if above == [""] then "/" else String.intercalate "/" above)

end FilePath

end Casework
