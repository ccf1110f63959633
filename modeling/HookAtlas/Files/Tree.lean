/-
# File trees

A file tree is a directory with files, directories and symbolic links below it.  The entries of a
directory are kept in the order of their names, code point by code point.  Names that are not UTF-8
hold surrogates in the place of the bytes that cannot be decoded.

Following a path follows the links on the way, as often as the system allows.  No file is longer than the
greatest offset of the system.
-/

import HookAtlas.Path.Basic

namespace HookAtlas

structure FileContent where
  bytes : List Nat
  length_le : bytes.length ≤ 9223372036854775807

/-- The bytes that a file takes of some; those beyond the greatest offset are not written. -/
def FileContent.ofBytes (bytes : List Nat) : FileContent :=
  ⟨bytes.take 9223372036854775807, List.length_take_le _ _⟩

/-- An entry of a directory: a file, a directory with its entries in the order of their names, or a symbolic
link.  The last part of a target is `.` where it has to be a directory. -/
inductive FileNode
  | file (content : FileContent)
  | directory (entries : List (Text × FileNode))
  | link (target : Path)

/-- The entries of the root directory in the order of their names. -/
structure FileTree where
  entries : List (Text × FileNode)

namespace FileTree

def empty : FileTree :=
  ⟨[]⟩

def rootNode (tree : FileTree) : FileNode :=
  .directory tree.entries

def entryOf? (name : Text) (entries : List (Text × FileNode)) : Option FileNode :=
  (entries.find? fun entry => entry.1 = name).map Prod.snd

/-- The entry below another one at some parts, without following links. -/
def nodeBelow? : FileNode → List Text → Option FileNode
  | node, [] => some node
  | .directory entries, name :: names =>
    match entryOf? name entries with
    | some node => nodeBelow? node names
    | none => none
  | _, _ :: _ => none

/-- The entry at some parts below the root, without following links. -/
def nodeAt? (tree : FileTree) (parts : List Text) : Option FileNode :=
  nodeBelow? tree.rootNode parts

/-- How many links are followed on the way along one path. -/
def maxLinks : Nat :=
  40

/-- The parts to follow for the target of a link, and the directory from which to follow them. -/
def linkStart (here : List Text) (target : Path) : List Text :=
  if target.anchor = .relative then here else []

/-- Follow parts from a directory, given how many links may still be followed.  Answers the parts of
the entry reached, along which there is no link. -/
def follow? (tree : FileTree) (links : Nat) (here : List Text) (rest : List Text) :
    Option (List Text) :=
  match rest with
  | [] => some here
  | name :: names =>
    match tree.nodeAt? here with
    | some (.directory entries) =>
      if name = Path.parent then follow? tree links here.dropLast names
      else if name = Path.current then follow? tree links here names
      else
        match entryOf? name entries with
        | none => none
        | some (.link target) =>
          match links with
          | 0 => none
          | links + 1 => follow? tree links (linkStart here target) (target.parts ++ names)
        | some _ => follow? tree links (here ++ [name]) names
    | _ => none
termination_by (links, rest.length)

/-- The entry that a path leads to, links followed. -/
def find? (tree : FileTree) (path : Path) : Option FileNode :=
  (tree.follow? maxLinks [] path.parts).bind tree.nodeAt?

def isDirectory (tree : FileTree) (path : Path) : Bool :=
  match tree.find? path with
  | some (.directory _) => true
  | _ => false

def readFile? (tree : FileTree) (path : Path) : Option (List Nat) :=
  match tree.find? path with
  | some (.file content) => some content.bytes
  | _ => none

/-- The target of the link at some parts, if a link is there. -/
def linkAt? (tree : FileTree) (parts : List Text) : Option Path :=
  match tree.nodeAt? parts with
  | some (.link target) => some target
  | _ => none

end FileTree

end HookAtlas
