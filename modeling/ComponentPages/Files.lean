import ComponentPages.Entries
import ComponentPages.Path

/-!
# File trees

The files that documents are loaded from, as a value. A path is followed part by part from the
current directory, which is the root of the tree: two dots lead to the parent, and every part
but the last must lead to a directory. Paths from the root of a system lead nowhere.
-/
namespace ComponentPages

/-- A file or a directory. -/
inductive FileTree where
  | file (bytes : List UInt8)
  | directory (entries : List (String × FileTree))
  deriving Inhabited

namespace FileTree

/-- The entries of a directory; a file has none. -/
def entries? : FileTree → Option (Entries FileTree)
  | .file _ => none
  | .directory entries => some entries

/-- What the parts of a path lead to from a place, given with the directories around it from
the innermost one. -/
def walk (outer : List FileTree) (place : FileTree) : List (List Char) → Option FileTree
  | [] => some place
  | part :: rest => do
    let entries ← place.entries?
    if part.isEmpty || part == ['.'] then walk outer place rest
    else if part == ['.', '.'] then
      match outer with
      | [] => walk [] place rest
      | parent :: outer => walk outer parent rest
    else
      let next ← Entries.find? (String.ofList part) entries
      walk (place :: outer) next rest

/-- What a path leads to. -/
def find? (tree : FileTree) (path : String) : Option FileTree :=
  match path.toList with
  | [] => none
  | '/' :: _ => none
  | _ => walk [] tree (Path.parts path)

/-- The text of the file that a path leads to, if it is text in UTF-8. -/
def text? (tree : FileTree) (path : String) : Option String :=
  match tree.find? path with
  | some (.file bytes) => String.fromUTF8? ⟨bytes.toArray⟩
  | _ => none

/-- The names of the files directly inside the directory that a path leads to, in order; a file
holds none. -/
def fileNames? (tree : FileTree) (path : String) : Option (List String) :=
  (tree.find? path).map fun place =>
    (place.entries?.getD []).filterMap fun (name, entry) =>
      match entry with
      | .file _ => some name
      | .directory _ => none

/-- A tree with something at the end of plain names, in place of what is there; directories
that are missing are made. -/
def put (place : FileTree) : List String → FileTree → FileTree
  | [], entry => entry
  | name :: names, entry =>
    let entries := place.entries?.getD []
    let next := (Entries.find? name entries).getD (.directory [])
    .directory (Entries.insert name (next.put names entry) entries)

/-- A tree without what is at the end of plain names. -/
def remove (place : FileTree) : List String → FileTree
  | [] => place
  | [name] => .directory ((place.entries?.getD []).filter fun entry => entry.1 != name)
  | name :: names =>
    let entries := place.entries?.getD []
    match Entries.find? name entries with
    | some next => .directory (Entries.insert name (next.remove names) entries)
    | none => place

end FileTree

end ComponentPages
