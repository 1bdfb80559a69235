import ComponentPages.Text.Blank

/-!
# Paths of documents

The name and the extension of a document are read off its path. Empty parts of a path and parts
that are a single dot count for nothing; a path that ends in two dots names no document. A dot
at the front of a file name starts no extension.
-/
namespace ComponentPages.Path

open Text

/-- The parts of a path between its slashes. -/
def parts (path : String) : List (List Char) := splitWhere (· == '/') path.toList

/-- The name of the file that a path leads to. -/
def fileName? (path : String) : Option (List Char) :=
  match ((parts path).filter fun part => !part.isEmpty && part != ['.']).getLast? with
  | some ['.', '.'] => none
  | last => last

/-- The text before and after the last dot of a file name that is not its first character. -/
def cutExtension (name : List Char) : Option (List Char × List Char) :=
  match (name.reverse.dropWhile (· != '.')).reverse.dropLast with
  | [] => none
  | stem => some (stem, (name.reverse.takeWhile (· != '.')).reverse)

/-- The name of the document that a path leads to, without its extension. -/
def stem? (path : String) : Option String :=
  (fileName? path).map fun name =>
    match cutExtension name with
    | some (stem, _) => String.ofList stem
    | none => String.ofList name

/-- The extension of the document that a path leads to, without the dot. -/
def extension? (path : String) : Option String :=
  ((fileName? path).bind cutExtension).map fun (_, extension) => String.ofList extension

/-- The path of a file in a directory. -/
def join (directory name : String) : String :=
  match directory.toList.getLast? with
  | none => name
  | some '/' => directory ++ name
  | some _ => directory ++ "/" ++ name

end ComponentPages.Path
