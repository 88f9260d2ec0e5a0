import Casework.Files.Basic

/-!
# Trees of files

A tree of files as a value, with one folder in which all relative paths begin. Nothing is known
about what lies outside of it.
-/

namespace Casework

/-- The parts of a path below the folder in which the tree begins. -/
abbrev Place := List String

structure FileTree where
  files : List (Place × String)
  folders : List Place

namespace FileTree

def isFolder (t : FileTree) (p : Place) : Bool :=
  p.isEmpty || t.folders.any (p.isPrefixOf ·) ||
    t.files.any fun f => p.isPrefixOf f.1 && p.length < f.1.length

def textAt? (t : FileTree) (p : Place) : Option String := t.files.lookup p

def kindAt? (t : FileTree) (p : Place) : Option FileKind :=
  if t.isFolder p then some .folder else (t.textAt? p).map fun _ => .file

/-- Follows the parts of a path from a folder on. Only from a folder a path leads on. -/
def walk (t : FileTree) (p : Place) : List String → Option Place
  | [] => some p
  | part :: parts =>
    if !t.isFolder p then none
    else if part.isEmpty || part == "." then walk t p parts
    else if part == ".." then if p.isEmpty then none else walk t p.dropLast parts
    else walk t (p ++ [part]) parts

/-- The place to which a path leads. -/
def place? (t : FileTree) (path : String) : Option Place :=
  if path.isEmpty || path.startsWith "/" then none else t.walk [] (path.splitOn "/")

def ofTexts (files : List (String × String)) (folders : List String) : FileTree :=
  let parts (path : String) := (path.splitOn "/").filter fun p => !p.isEmpty && p != "."
  ⟨files.map fun f => (parts f.1, f.2), folders.map parts⟩

/-- What lies in a folder. -/
def namesAt (t : FileTree) (p : Place) : List String :=
  let inside := (t.files.map Prod.fst ++ t.folders).filter fun q =>
    p.isPrefixOf q && p.length < q.length
  (inside.filterMap fun q => q[p.length]?).eraseDups

def fileSystem (t : FileTree) : FileSystem Id where
  kind? path := (t.place? path).bind t.kindAt?
  names? path := (t.place? path).bind fun p => if t.isFolder p then some (t.namesAt p) else none
  text? path := (t.place? path).bind t.textAt?

end FileTree

end Casework
