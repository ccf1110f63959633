/-
# The real path of a file

The real path has no link on its way; two paths with one real path are one file.  Parts that do not
exist stay as they are.  A link that leads back to itself cannot be resolved; from there on the path
is left unresolved.

Resolving a link resolves its target first.  A link whose resolution is under way is remembered, so
the links of the tree bound how deep this goes.
-/

import HookAtlas.Files.Tree

namespace HookAtlas.FileTree

/-- The links met so far, with their real paths where they are known already. -/
abbrev SeenLinks := List (List Text × Option (List Text))

/-- What became of resolving parts: the parts reached, which hold those left unresolved, whether no link led
back to itself, and the links met. -/
structure Resolution where
  parts : List Text
  isResolved : Bool
  seen : SeenLinks

mutual

/-- The number of links below an entry. -/
def linkCount : FileNode → Nat
  | .link _ => 1
  | .file _ => 0
  | .directory entries => linkCountOfEntries entries

/-- The number of links below some entries. -/
def linkCountOfEntries : List (Text × FileNode) → Nat
  | [] => 0
  | (_, node) :: entries => linkCount node + linkCountOfEntries entries

end

/-- Resolve parts from a place that is resolved already.  The fuel bounds the links whose resolution
is under way at once. -/
def resolve (tree : FileTree) (fuel : Nat) (seen : SeenLinks) (here rest : List Text) :
    Resolution :=
  match rest with
  | [] => ⟨here, true, seen⟩
  | name :: names =>
    if name = Path.parent then resolve tree fuel seen here.dropLast names
    else if name = Path.current then resolve tree fuel seen here names
    else
      let next := here ++ [name]
      match tree.linkAt? next with
      | none => resolve tree fuel seen next names
      | some target =>
        match seen.find? fun entry => entry.1 = next with
        | some (_, some known) => resolve tree fuel seen known names
        | some (_, none) => ⟨next ++ names, false, seen⟩
        | none =>
          match fuel with
          | 0 => ⟨next ++ names, false, seen⟩
          | fuel + 1 =>
            let inner := resolve tree fuel ((next, none) :: seen) (linkStart here target) target.parts
            if inner.isResolved then
              resolve tree (fuel + 1) ((next, some inner.parts) :: inner.seen) inner.parts names
            else ⟨inner.parts ++ names, false, inner.seen⟩
termination_by (fuel, rest.length)

/-- The real path of a path. -/
def realPath (tree : FileTree) (path : Path) : Path :=
  let resolution := tree.resolve (linkCount tree.rootNode) [] [] path.parts
  ⟨.root, Path.resolveParts (resolution.parts.filter Path.isKept)⟩

end HookAtlas.FileTree
