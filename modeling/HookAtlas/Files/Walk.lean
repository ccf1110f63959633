/-
# The source files below a directory

The files of a directory come first, in the order of their names, then those of its subdirectories
in the same order.  A link to a directory is no file and is not entered; any other link is a file,
also one that leads nowhere.  Of the files those with a recognised ending count.
-/

import HookAtlas.Files.Tree
import HookAtlas.Text.LetterCase

namespace HookAtlas.FileTree

def hasEnding (endings : List Text) (name : Text) : Bool :=
  endings.any fun ending => ending.lower.isSuffixOf name.lower

/-- The file that an entry of a directory is, if it is one. -/
def ownFile? (tree : FileTree) (endings : List Text) (directory : Path)
    (entry : Text × FileNode) : Option Path :=
  let path := directory.child entry.1
  let isFile :=
    match entry.2 with
    | .file _ => true
    | .directory _ => false
    | .link _ => !tree.isDirectory path
  if isFile && hasEnding endings entry.1 then some path else none

mutual

/-- The source files of an entry that is a directory. -/
def filesOfNode (tree : FileTree) (endings : List Text) (path : Path) : FileNode → List Path
  | .directory entries =>
    entries.filterMap (ownFile? tree endings path) ++ filesOfEntries tree endings path entries
  | _ => []

/-- The source files of the directories among some entries. -/
def filesOfEntries (tree : FileTree) (endings : List Text) (path : Path) :
    List (Text × FileNode) → List Path
  | [] => []
  | (name, node) :: entries =>
    filesOfNode tree endings (path.child name) node ++ filesOfEntries tree endings path entries

end

/-- The source files below a directory; none where there is no directory. -/
def sourceFiles (tree : FileTree) (endings : List Text) (root : Path) : List Path :=
  match tree.find? root with
  | some (.directory entries) => filesOfNode tree endings root (.directory entries)
  | _ => []

end HookAtlas.FileTree
