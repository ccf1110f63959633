/-
# The most specific root wins

Paths are compared by their components: the anchor and the parts from it down, so `/a` does not contain `/ab`,
and `//a` does not contain `/a`.  A file is attributed by the root with the most components among those whose
components begin the components of the file, and by the first of these if there are several; outside all roots
nothing is known of it.

A relative path here is one of a program that runs in the root directory.  For another working directory the
statements are about the roots and the files behind that directory, as `Path.namedIn` gives them.

Two roots that contain a file and have the same number of components are at the same place.  So if no two roots
are at one place, the order in which they are given does not matter.
-/

import HookAtlas.Proofs.Source.Ownership
import Mathlib.Data.List.Permutation

namespace HookAtlas

namespace Path

/-- The anchor of a path, if it has one, and its parts from there down. -/
def components (p : Path) : List Text :=
  if p.anchor = .relative then p.parts else p.anchor.text :: p.parts

variable {base p : Path} {rest : List Text}

theorem length_components (p : Path) : p.components.length = p.partCount := by
  rw [components, partCount]
  split
  · rfl
  · rfl

theorem IsAbsolute.components_eq (habsolute : p.IsAbsolute) :
    p.components = p.anchor.text :: p.parts :=
  if_neg habsolute.anchor_ne

/-- The two anchors of absolute paths are written differently. -/
theorem IsAbsolute.anchor_text_inj (hbase : base.IsAbsolute) (hp : p.IsAbsolute) :
    p.anchor.text = base.anchor.text ↔ p.anchor = base.anchor := by
  have hbaseAnchor := hbase.anchor_ne
  have hpAnchor := hp.anchor_ne
  cases hleft : p.anchor <;> cases hright : base.anchor <;> simp_all [Anchor.text, Text.ofChars]

/-- An absolute path lies below another one if its components begin with those of the other one. -/
theorem below?_eq_some_iff_components (hbase : base.IsAbsolute) (hp : p.IsAbsolute) :
    below? base p = some rest ↔ p.components = base.components ++ rest := by
  rw [below?_eq_some_iff, hbase.components_eq, hp.components_eq, List.cons_append, List.cons.injEq,
    hbase.anchor_text_inj hp]

/-- Absolute paths with the same components are the same. -/
theorem IsAbsolute.eq_of_components_eq (hbase : base.IsAbsolute) (hp : p.IsAbsolute)
    (hcomponents : p.components = base.components) : p = base := by
  have hbelow : below? base p = some [] := by
    rw [below?_eq_some_iff_components hbase hp, hcomponents, List.append_nil]
  exact (below?_eq_some_nil_iff.mp hbelow).symm

end Path

variable {κ : Type}

namespace SourceRoot

/-- The components of the place where a root is. -/
def components (root : SourceRoot κ) : List Text :=
  root.path.absolute.components

variable {root other : SourceRoot κ} {roots : List (SourceRoot κ)} {file : Path} {parts : List Text}

theorem partsOf?_eq_some_iff :
    root.partsOf? file = some parts ↔ file.absolute.components = root.components ++ parts :=
  Path.below?_eq_some_iff_components root.path.isAbsolute_absolute file.isAbsolute_absolute

theorem isSome_partsOf?_iff :
    (root.partsOf? file).isSome = true ↔ root.components <+: file.absolute.components := by
  rw [Option.isSome_iff_exists]
  apply exists_congr
  intro parts
  rw [partsOf?_eq_some_iff, eq_comm]

theorem depth_eq (root : SourceRoot κ) : root.depth = root.components.length :=
  (Path.length_components _).symm

/-- Of the roots whose components begin those of a file, the first with the most components.  The parts are
what is left of the file below it. -/
structure IsMostSpecific (root : SourceRoot κ) (roots : List (SourceRoot κ)) (file : Path)
    (parts : List Text) : Prop where
  contains : file.absolute.components = root.components ++ parts
  longest : ∀ other ∈ roots, other.components <+: file.absolute.components →
    other.components.length ≤ root.components.length
  earliest : ∃ before after, roots = before ++ root :: after ∧
    ∀ other ∈ before, other.components <+: file.absolute.components →
      other.components.length < root.components.length

theorem Owns.isMostSpecific (howns : root.Owns roots file parts) :
    root.IsMostSpecific roots file parts where
  contains := partsOf?_eq_some_iff.mp howns.partsOf?_eq
  longest := by
    intro other hmem hcontains
    simpa only [depth_eq] using howns.depth_le other hmem (isSome_partsOf?_iff.mpr hcontains)
  earliest := by
    obtain ⟨before, after, hroots, hbefore⟩ := howns.isFirst
    refine ⟨before, after, hroots, ?_⟩
    intro other hmem hcontains
    simpa only [depth_eq] using hbefore other hmem (isSome_partsOf?_iff.mpr hcontains)

/-- Two roots that are most specific among the same roots are at the same place, whatever their order. -/
theorem IsMostSpecific.absolute_eq {others : List (SourceRoot κ)} {rest : List Text}
    (hroot : root.IsMostSpecific roots file parts) (hother : other.IsMostSpecific others file rest)
    (hmem : other ∈ roots) (hmem' : root ∈ others) : other.path.absolute = root.path.absolute := by
  have hle := hroot.longest other hmem ⟨rest, hother.contains.symm⟩
  have hge := hother.longest root hmem' ⟨parts, hroot.contains.symm⟩
  have hsame : other.components ++ rest = root.components ++ parts := by
    rw [← hother.contains, hroot.contains]
  have hcomponents := (List.append_inj hsame (Nat.le_antisymm hle hge)).1
  exact root.path.isAbsolute_absolute.eq_of_components_eq other.path.isAbsolute_absolute hcomponents

end SourceRoot

namespace SourceClassifier

variable {roots others : List (SourceRoot κ)} {root : SourceRoot κ} {file : Path} {parts : List Text}

theorem rootOf?_eq_none_iff :
    (ofRoots roots).rootOf? file = none ↔
      ∀ root ∈ roots, ¬ root.components <+: file.absolute.components := by
  rw [rootOf?, firstContaining?_eq_none_iff]
  simp only [ofRoots, List.mem_mergeSort, ← SourceRoot.isSome_partsOf?_iff, Option.not_isSome_iff_eq_none]

/-- If the roots are at different places, the same one owns a file in every order of them. -/
theorem rootOf?_perm (hplaces : (roots.map fun root => root.path.absolute).Nodup)
    (hperm : others.Perm roots) (file : Path) :
    (ofRoots others).rootOf? file = (ofRoots roots).rootOf? file := by
  cases hroot : (ofRoots roots).rootOf? file with
  | none =>
      rw [rootOf?_eq_none_iff] at hroot ⊢
      intro root hmem
      exact hroot root (hperm.subset hmem)
  | some found =>
      obtain ⟨root, parts⟩ := found
      have howns := owns_of_rootOf? hroot
      obtain ⟨other, rest, hother⟩ := exists_rootOf? (hperm.symm.subset howns.mem) howns.partsOf?_eq
      have howns' := owns_of_rootOf? hother
      have hmem : other ∈ roots := hperm.subset howns'.mem
      have hplace := howns.isMostSpecific.absolute_eq howns'.isMostSpecific hmem
        (hperm.symm.subset howns.mem)
      obtain rfl : other = root := List.inj_on_of_nodup_map hplaces hmem howns.mem hplace
      have hparts := howns'.partsOf?_eq
      rw [howns.partsOf?_eq] at hparts
      cases hparts
      exact hother

/-- A file has the category of its most specific root, and the fixed name of that root or else its own first
part below it; outside all roots nothing is known of it.  If no two roots are at one place, the order of the
roots does not matter.  Relative paths start at the root directory. -/
theorem classify_mostSpecific (roots : List (SourceRoot SourceType)) (file : Path) :
    ((∃ (root : SourceRoot SourceType) (parts : List Text), root.IsMostSpecific roots file parts ∧
        (ofRoots roots).classify file =
          ⟨root.category, if root.sourceName ≠ [] then root.sourceName else parts.head?.getD []⟩) ∨
      ((∀ root ∈ roots, ¬ root.components <+: file.absolute.components) ∧
        (ofRoots roots).classify file = ⟨.unknown, []⟩)) ∧
    ((roots.map fun root => root.path.absolute).Nodup → ∀ others, others.Perm roots →
      (ofRoots others).classify file = (ofRoots roots).classify file) := by
  constructor
  · cases hroot : (ofRoots roots).rootOf? file with
    | none =>
        right
        exact ⟨rootOf?_eq_none_iff.mp hroot, by rw [classify, hroot]⟩
    | some found =>
        left
        refine ⟨found.1, found.2, (owns_of_rootOf? hroot).isMostSpecific, ?_⟩
        rw [classify, hroot]
        rfl
  · intro hplaces others hperm
    rw [classify, classify, rootOf?_perm hplaces hperm]

/-- A core with the plugins in it, given by a detour, and a directory of the same parts below two slashes. -/
def nestedRoots : List (SourceRoot SourceType) :=
  [⟨Path.ofText "/site/content", .core, SourceRoot.coreName⟩,
    ⟨Path.ofText "//site/content/plugins", .theme, []⟩,
    ⟨Path.ofText "site/./themes/../content/plugins", .plugin, []⟩]

/-- A file of a plugin is that of the plugins in every order of these roots. -/
theorem classify_mostSpecific_nestedRoots :
    (nestedRoots.map fun root => root.path.absolute).Nodup ∧
      ∀ others, others.Perm nestedRoots →
        (ofRoots others).classify (Path.ofText "/site/content/plugins/shop/cart.php") =
          ⟨.plugin, "shop"⟩ := by
  have hplaces : (nestedRoots.map fun root => root.path.absolute).Nodup := by decide
  refine ⟨hplaces, ?_⟩
  intro others hperm
  rw [(classify_mostSpecific nestedRoots _).2 hplaces others hperm]
  cbv

end SourceClassifier

end HookAtlas
