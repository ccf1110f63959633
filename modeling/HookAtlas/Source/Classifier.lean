/-
# Attributing files to source roots

A file belongs to the root with the most path parts that contains it, and of several such roots to
the one listed first.  Sorting the roots once by their number of parts, longest first and otherwise
in the given order, makes that root the first match.
-/

import HookAtlas.Source.Root
import HookAtlas.Text.Quoted

namespace HookAtlas

/-- Source roots in the order in which they are tried, those with the most parts first. -/
structure SourceClassifier (κ : Type) where
  roots : List (SourceRoot κ)

structure Attribution where
  sourceType : SourceType
  sourceName : Text
deriving DecidableEq, Repr

namespace SourceClassifier

variable {κ : Type}

/-- Whether the first root is tried no later than the second one. -/
def triedBefore (first second : SourceRoot κ) : Bool :=
  second.path.absolute.partCount ≤ first.path.absolute.partCount

def ofRoots (roots : List (SourceRoot κ)) : SourceClassifier κ :=
  ⟨roots.mergeSort triedBefore⟩

/-- The first root in a list that contains a file, with the parts of the file below it. -/
def firstContaining? (file : Path) : List (SourceRoot κ) → Option (SourceRoot κ × List Text)
  | [] => none
  | root :: roots =>
    match Path.below? root.path.absolute file.absolute with
    | some parts => some (root, parts)
    | none => firstContaining? file roots

def rootOf? (classifier : SourceClassifier κ) (file : Path) :
    Option (SourceRoot κ × List Text) :=
  firstContaining? file classifier.roots

/-- The attribution of a file; outside every root nothing is known. -/
def classify (classifier : SourceClassifier SourceType) (file : Path) : Attribution :=
  match classifier.rootOf? file with
  | some (root, parts) => ⟨root.category, root.nameBelow parts⟩
  | none => ⟨.unknown, []⟩

/-- A declared category that is none of the source types. -/
structure UnknownCategory where
  category : Text

def UnknownCategory.message (error : UnknownCategory) : Text :=
  error.category.quoted ++ Text.ofString " is not a valid SourceType"

/-- The attribution of a file by roots whose categories are free text.  Only the category of the
root that the file belongs to has to be valid. -/
def classifyDeclared (classifier : SourceClassifier Text) (file : Path) :
    Except UnknownCategory Attribution :=
  match classifier.rootOf? file with
  | some (root, parts) =>
    match SourceType.ofName? root.category with
    | some sourceType => .ok ⟨sourceType, root.nameBelow parts⟩
    | none => .error ⟨root.category⟩
  | none => .ok ⟨.unknown, []⟩

end SourceClassifier

end HookAtlas
