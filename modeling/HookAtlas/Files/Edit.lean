/-
# Writing to a file tree

Writing an entry makes the directories above it.  Links on the way are followed; a file that is
written through a link replaces the file that the link leads to.
-/

import HookAtlas.Files.RealPath

namespace HookAtlas.FileTree

/-- Put an entry into a directory, in its place by name. -/
def putEntry (name : Text) (node : FileNode) :
    List (Text × FileNode) → List (Text × FileNode)
  | [] => [(name, node)]
  | (other, old) :: entries =>
    if other = name then (name, node) :: entries
    else if Text.le name other then (name, node) :: (other, old) :: entries
    else (other, old) :: putEntry name node entries

/-- The entries of a directory; an entry of any other sort makes room for a directory. -/
def entriesOf : Option FileNode → List (Text × FileNode)
  | some (.directory entries) => entries
  | _ => []

/-- Put an entry at some parts below a directory, making the directories on the way. -/
def putBelow (node : FileNode) : List Text → List (Text × FileNode) → List (Text × FileNode)
  | [], entries => entries
  | [name], entries => putEntry name node entries
  | name :: names, entries =>
    putEntry name (.directory (putBelow node names (entriesOf (entryOf? name entries)))) entries

def removeBelow : List Text → List (Text × FileNode) → List (Text × FileNode)
  | [], entries => entries
  | [name], entries => entries.filter fun entry => entry.1 ≠ name
  | name :: names, entries =>
    match entryOf? name entries with
    | some (.directory inner) => putEntry name (.directory (removeBelow names inner)) entries
    | _ => entries

/-- The path of an entry with the links above it followed. -/
def resolveParent (tree : FileTree) (path : Path) : List Text :=
  match path.absolute.parts.getLast? with
  | none => []
  | some name => (tree.realPath ⟨.root, path.absolute.parts.dropLast⟩).parts ++ [name]

def writeFile (tree : FileTree) (path : Path) (bytes : List Nat) : FileTree :=
  ⟨putBelow (.file (.ofBytes bytes)) (tree.realPath path.absolute).parts tree.entries⟩

/-- Make a directory, unless there is one. -/
def makeDirectory (tree : FileTree) (path : Path) : FileTree :=
  if tree.isDirectory path.absolute then tree
  else ⟨putBelow (.directory []) (tree.resolveParent path) tree.entries⟩

/-- The target of a link.  A slash at the end, with or without a `.` behind it, says that the target
has to be a directory. -/
def linkTarget (target : Text) : Path :=
  let path := Path.ofText target
  if (target.split '/').getLast?.all Path.isKept || path.parts = [] then path
  else path.child Path.current

def makeLink (tree : FileTree) (path : Path) (target : Text) : FileTree :=
  ⟨putBelow (.link (linkTarget target)) (tree.resolveParent path) tree.entries⟩

def remove (tree : FileTree) (path : Path) : FileTree :=
  ⟨removeBelow (tree.resolveParent path) tree.entries⟩

end HookAtlas.FileTree
