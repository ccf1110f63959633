/-
# Paths

A path is a list of parts below an anchor.  Exactly two leading slashes are an anchor of their own,
different from one; three or more are one.  Reading a path drops empty parts and `.`, and keeps
`..`.  `Path.absolute` places a relative path below the root directory and resolves `..`: a relative path
is that of a program whose working directory is the root.  For a program that runs elsewhere the working
directory is joined in front of it first.

Two absolute paths are compared by their anchors and parts, never by their text, so `/a` is no
parent of `/ab`.
-/

import HookAtlas.Text.CodePoint

namespace HookAtlas

/-- Where a path starts. -/
inductive Anchor
  | relative
  | root
  | doubleRoot
deriving DecidableEq, Repr

/-- A path: its anchor, and its names from the anchor down. -/
structure Path where
  anchor : Anchor
  parts : List Text
deriving DecidableEq, Repr

namespace Anchor

def text : Anchor → Text
  | .relative => []
  | .root => Text.ofChars ['/']
  | .doubleRoot => Text.ofChars ['/', '/']

def ofText (t : Text) : Anchor :=
  match Text.runLength (fun c => c = '/') t with
  | 0 => .relative
  | 2 => .doubleRoot
  | _ => .root

end Anchor

namespace Path

def root : Path :=
  ⟨.root, []⟩

/-- The part that names the directory itself. -/
def current : Text :=
  Text.ofChars ['.']

/-- The part that names the directory above. -/
def parent : Text :=
  Text.ofChars ['.', '.']

/-- Whether a part is kept when a path is read. -/
def isKept (part : Text) : Bool :=
  part ≠ [] && part ≠ current

def ofText (t : Text) : Path :=
  ⟨Anchor.ofText t, (t.split '/').filter isKept⟩

/-- Write a path; a relative path without parts is `.`. -/
def text (p : Path) : Text :=
  if p.anchor = .relative ∧ p.parts = [] then current
  else p.anchor.text ++ Text.join (Text.ofChars ['/']) p.parts

/-- Follow a path from another one: an anchored path replaces the other one. -/
def join (base next : Path) : Path :=
  if next.anchor = .relative then ⟨base.anchor, base.parts ++ next.parts⟩ else next

def child (directory : Path) (name : Text) : Path :=
  ⟨directory.anchor, directory.parts ++ [name]⟩

/-- Go down one part, or up where the part says so.  The parts so far are given innermost first; at
the top there is no way up. -/
def descend (above : List Text) (part : Text) : List Text :=
  if part = parent then above.drop 1 else part :: above

/-- The parts without any `..`. -/
def resolveParts (parts : List Text) : List Text :=
  (parts.foldl descend []).reverse

/-- The absolute path that a path names for a program that runs in the root directory. -/
def absolute (p : Path) : Path :=
  ⟨if p.anchor = .relative then .root else p.anchor, resolveParts p.parts⟩

def absoluteOfText (t : Text) : Path :=
  (ofText t).absolute

/-- How many parts a path has, its anchor counted as one. -/
def partCount (p : Path) : Nat :=
  if p.anchor = .relative then p.parts.length else p.parts.length + 1

/-- The parts of a path below another one; none where it does not lie below. -/
def below? (base p : Path) : Option (List Text) :=
  if p.anchor = base.anchor ∧ base.parts <+: p.parts then
    some (p.parts.drop base.parts.length)
  else none

/-- The path of a file relative to a base directory, and its absolute path where the file lies
outside. -/
def relativeTo (file base : Path) : Path :=
  match below? base.absolute file.absolute with
  | some parts => ⟨.relative, parts⟩
  | none => file.absolute

end Path

end HookAtlas
