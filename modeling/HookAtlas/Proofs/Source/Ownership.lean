/-
# The root that owns a file

The classifier tries its roots in the order of a sort.  What it answers can be said of the roots as they were
given: the root that owns a file contains it, none that contains it has more path parts, and none that stands
before it has as many.  A file is contained, and owned, by its absolute path, so every spelling of it gives the
same attribution.
-/

import HookAtlas.Proofs.Path.Absolute
import HookAtlas.Proofs.Sorting
import HookAtlas.Source.Classifier

namespace HookAtlas

variable {κ : Type}

namespace SourceRoot

/-- The parts of a file below a root; none where the root does not contain the file. -/
def partsOf? (root : SourceRoot κ) (file : Path) : Option (List Text) :=
  Path.below? root.path.absolute file.absolute

/-- The number of path parts of a root. -/
def depth (root : SourceRoot κ) : Nat :=
  root.path.absolute.partCount

/-- A root owns a file among some roots: of those that contain the file it is the first with the most path
parts. -/
structure Owns (root : SourceRoot κ) (roots : List (SourceRoot κ)) (file : Path) (parts : List Text) :
    Prop where
  partsOf?_eq : root.partsOf? file = some parts
  depth_le : ∀ other ∈ roots, (other.partsOf? file).isSome = true → other.depth ≤ root.depth
  isFirst : ∃ before after, roots = before ++ root :: after ∧
    ∀ other ∈ before, (other.partsOf? file).isSome = true → other.depth < root.depth

theorem Owns.mem {root : SourceRoot κ} {roots : List (SourceRoot κ)} {file : Path} {parts : List Text}
    (howns : root.Owns roots file parts) : root ∈ roots := by
  obtain ⟨before, after, rfl, -⟩ := howns.isFirst
  exact List.mem_append_right before List.mem_cons_self

end SourceRoot

namespace SourceClassifier

variable {roots : List (SourceRoot κ)} {root : SourceRoot κ} {file : Path} {parts : List Text}

/-- The first root that contains a file comes behind roots that do not. -/
theorem firstContaining?_eq_some (hfirst : firstContaining? file roots = some (root, parts)) :
    root.partsOf? file = some parts ∧ ∃ before after, roots = before ++ root :: after ∧
      ∀ other ∈ before, other.partsOf? file = none := by
  induction roots with
  | nil => cases hfirst
  | cons head roots ih =>
      rw [firstContaining?] at hfirst
      split at hfirst
      · next hhead =>
          cases hfirst
          exact ⟨hhead, [], roots, rfl, fun _ hmem => absurd hmem List.not_mem_nil⟩
      · next hhead =>
          obtain ⟨hparts, before, after, rfl, hbefore⟩ := ih hfirst
          refine ⟨hparts, head :: before, after, rfl, fun other hmem => ?_⟩
          rcases List.mem_cons.mp hmem with rfl | hmem
          · exact hhead
          · exact hbefore other hmem

theorem firstContaining?_eq_none_iff :
    firstContaining? file roots = none ↔ ∀ root ∈ roots, root.partsOf? file = none := by
  induction roots with
  | nil => simp [firstContaining?]
  | cons head roots ih =>
      rw [firstContaining?, List.forall_mem_cons, ← ih, ← SourceRoot.partsOf?]
      cases head.partsOf? file with
      | none => simp
      | some parts => simp

theorem triedBefore_trans (first second third : SourceRoot κ) (hfirst : triedBefore first second = true)
    (hsecond : triedBefore second third = true) : triedBefore first third = true := by
  simp only [triedBefore, decide_eq_true_eq] at hfirst hsecond ⊢
  exact Nat.le_trans hsecond hfirst

theorem triedBefore_total (first second : SourceRoot κ) :
    (triedBefore first second || triedBefore second first) = true := by
  simp only [triedBefore, Bool.or_eq_true, decide_eq_true_eq]
  exact Nat.le_total _ _

/-- The classifier answers the root that owns the file among the roots as they were given. -/
theorem owns_of_rootOf? (hroot : (ofRoots roots).rootOf? file = some (root, parts)) :
    root.Owns roots file parts := by
  obtain ⟨hparts, before, after, hsorted, hbefore⟩ := firstContaining?_eq_some hroot
  change roots.mergeSort triedBefore = before ++ root :: after at hsorted
  have hcontains : (root.partsOf? file).isSome = true := by rw [hparts]; rfl
  have hdepth : ∀ other ∈ roots, (other.partsOf? file).isSome = true → other.depth ≤ root.depth := by
    intro other hmem hother
    have hpairs := List.pairwise_mergeSort triedBefore_trans triedBefore_total roots
    have hmem' : other ∈ before ++ root :: after := by
      rw [← hsorted]
      exact List.mem_mergeSort.mpr hmem
    rw [hsorted, List.pairwise_append, List.pairwise_cons] at hpairs
    rcases List.mem_append.mp hmem' with hmem' | hmem'
    · rw [hbefore other hmem'] at hother
      cases hother
    · rcases List.mem_cons.mp hmem' with rfl | hmem'
      · exact Nat.le_refl _
      · exact of_decide_eq_true (hpairs.2.1.1 other hmem')
  refine ⟨hparts, hdepth, ?_⟩
  -- Sorting keeps the order of the roots of one depth, and of those `root` is the first that contains the file.
  let rivals : SourceRoot κ → Bool := fun other =>
    (other.partsOf? file).isSome && other.depth = root.depth
  have hrelated : ∀ first second, rivals first = true → rivals second = true →
      triedBefore first second = true := by
    intro first second hfirst hsecond
    simp only [rivals, Bool.and_eq_true, decide_eq_true_eq] at hfirst hsecond
    exact decide_eq_true (Nat.le_of_eq (hsecond.2.trans hfirst.2.symm))
  have hrivals : roots.filter rivals = root :: after.filter rivals := by
    have hnone : before.filter rivals = [] := by
      rw [List.filter_eq_nil_iff]
      intro other hmem
      simp [rivals, hbefore other hmem]
    have hroot : rivals root = true := by simp [rivals, hcontains]
    rw [← filter_mergeSort_of_related triedBefore_trans triedBefore_total hrelated, hsorted,
      List.filter_append, hnone, List.nil_append, List.filter_cons_of_pos hroot]
  obtain ⟨ahead, behind, rfl, hahead, -, -⟩ := List.filter_eq_cons_iff.mp hrivals
  refine ⟨ahead, behind, rfl, fun other hmem hother => ?_⟩
  have hle := hdepth other (List.mem_append_left _ hmem) hother
  have hne : other.depth ≠ root.depth := fun heq => hahead other hmem (by simp [rivals, hother, heq])
  exact Nat.lt_of_le_of_ne hle hne

/-- A file that a root contains is owned by some root. -/
theorem exists_rootOf? (hmem : root ∈ roots) (hcontains : root.partsOf? file = some parts) :
    ∃ owner below, (ofRoots roots).rootOf? file = some (owner, below) := by
  cases hroot : (ofRoots roots).rootOf? file with
  | some found => exact ⟨found.1, found.2, rfl⟩
  | none =>
      have hnone := firstContaining?_eq_none_iff.mp hroot root (List.mem_mergeSort.mpr hmem)
      rw [hcontains] at hnone
      cases hnone

/-- The classifier does not tell the spellings of a file apart. -/
theorem rootOf?_absolute (classifier : SourceClassifier κ) (file : Path) :
    classifier.rootOf? file.absolute = classifier.rootOf? file := by
  rw [rootOf?, rootOf?]
  induction classifier.roots with
  | nil => rfl
  | cons root roots ih => rw [firstContaining?, firstContaining?, Path.absolute_absolute, ih]

theorem classify_absolute (classifier : SourceClassifier SourceType) (file : Path) :
    classifier.classify file.absolute = classifier.classify file := by
  rw [classify, classify, rootOf?_absolute]

end SourceClassifier

end HookAtlas
