import BudgetLexer.CommandLine.Path

/-!
# File trees

The directories and files from the root on, the working directory among them, and what stands at the
end of a path.

* `FileTree`: directories and files by their names from the root on, and the working directory.
* `FileTree.entry`: what stands at a place of the tree.
* `FileTree.find`: what a path leads to.
-/

namespace BudgetLexer

/-- The number of bytes of a text in UTF-8. -/
def Text.utf8Size (t : Text) : Nat := (t.flatMap String.utf8EncodeChar).length

/-- The most bytes of a name that can be looked up. -/
def nameLimit : Nat := 255

/-- The most bytes of a path that can be looked up. -/
def pathLimit : Nat := 4095

/-- **A tree of files.** A place is told by the names from the root on. Every directory on the way to a
listed place, or to the working directory, is there too. -/
structure FileTree where
  directories : List (List Text)
  files : List (List Text × ByteArray)
  workingDirectory : List Text := []

/-- What a path leads to. One that is too long is not looked up to its end. -/
inductive Found
  | missing
  | directory
  | file (bytes : ByteArray)
  | tooLong

namespace FileTree

/-- The bytes of the file at a place; the one listed last counts. -/
def file? (tree : FileTree) (place : List Text) : Option ByteArray :=
  tree.files.reverse.lookup place

/-- Whether a place is a directory: one that is listed, the working directory, or one on the way. -/
def isDirectory (tree : FileTree) (place : List Text) : Bool :=
  place.isPrefixOf tree.workingDirectory || tree.directories.any place.isPrefixOf ||
    tree.files.any fun f => place.isPrefixOf f.1 && place != f.1

/-- What stands at a place. -/
def entry (tree : FileTree) (place : List Text) : Found :=
  if tree.isDirectory place then .directory
  else
    match tree.file? place with
    | some bytes => .file bytes
    | none => .missing

/-- What the names of a path lead to from a directory. The name `..` leads up, and from the root to
the root. A name after a file leads nowhere, and so does a name after something that is not there. -/
def walk (tree : FileTree) (place : List Text) : List Text → Found
  | [] => .directory
  | name :: names =>
    if name = ['.', '.'] then walk tree place.dropLast names
    else if nameLimit < name.utf8Size then .tooLong
    else
      match tree.entry (place ++ [name]) with
      | .directory => walk tree (place ++ [name]) names
      | found => if names.isEmpty then found else .missing

/-- The directory where a path begins. -/
def start (tree : FileTree) : Anchor → List Text
  | .here => tree.workingDirectory
  | .slash | .twoSlashes => []

/-- **What a path leads to.** -/
def find (tree : FileTree) (p : Path) : Found :=
  if pathLimit < p.text.utf8Size then .tooLong else tree.walk (tree.start p.anchor) p.names

end FileTree

end BudgetLexer
