/-
# Absolute paths

Resolving `..` leaves none, so what is absolute stays as it is when it is made absolute again.  All that is
said of a file by its absolute path is therefore the same for every spelling of the path.  The path of a file
relative to a base directory is such a thing.

`IsAbsolute` is the shape of a resolved path.  `LiesBelow` says that a file is reached from a directory by going
down only, which keeps the path in that shape.
-/

import HookAtlas.Path.Basic
import Mathlib.Data.List.Infix

namespace HookAtlas.Path

/-- A path from an anchor down without any `..`. -/
structure IsAbsolute (p : Path) : Prop where
  anchor_ne : p.anchor ≠ .relative
  part_ne : ∀ part ∈ p.parts, part ≠ parent

/-- A part that names an entry of a directory: not the directory itself, nor the one above. -/
def IsName (part : Text) : Prop :=
  isKept part = true ∧ part ≠ parent

instance (part : Text) : Decidable (IsName part) :=
  inferInstanceAs (Decidable (_ ∧ _))

/-- A file is reached from a directory by following the names of entries. -/
def LiesBelow (directory file : Path) : Prop :=
  ∃ names, names ≠ [] ∧ (∀ name ∈ names, IsName name) ∧
    file = ⟨directory.anchor, directory.parts ++ names⟩

/-! ## Resolving parts -/

/-- The way down from some parts, given innermost first, holds no part but theirs and those gone down, and no
`..` unless they do. -/
theorem mem_foldl_descend {parts above : List Text} {part : Text}
    (hmem : part ∈ parts.foldl descend above) : part ∈ above ∨ part ∈ parts ∧ part ≠ parent := by
  induction parts generalizing above with
  | nil => exact .inl hmem
  | cons first parts ih =>
      rw [List.foldl_cons] at hmem
      rcases ih hmem with habove | ⟨hpart, hne⟩
      · rw [descend] at habove
        split at habove
        · exact .inl (List.mem_of_mem_drop habove)
        · next hfirst =>
            rcases List.mem_cons.mp habove with rfl | hold
            · exact .inr ⟨List.mem_cons_self, hfirst⟩
            · exact .inl hold
      · exact .inr ⟨List.mem_cons_of_mem first hpart, hne⟩

theorem mem_resolveParts {parts : List Text} {part : Text} (hmem : part ∈ resolveParts parts) :
    part ∈ parts ∧ part ≠ parent := by
  rw [resolveParts, List.mem_reverse] at hmem
  rcases mem_foldl_descend hmem with habove | hpart
  · cases habove
  · exact hpart

/-- Without `..` the way only goes down. -/
theorem foldl_descend_eq {parts : List Text} (hparts : ∀ part ∈ parts, part ≠ parent) (above : List Text) :
    parts.foldl descend above = parts.reverse ++ above := by
  induction parts generalizing above with
  | nil => rfl
  | cons first parts ih =>
      have hrest := ih fun part hmem => hparts part (List.mem_cons_of_mem first hmem)
      rw [List.foldl_cons, descend, if_neg (hparts first List.mem_cons_self), hrest, List.reverse_cons,
        List.append_assoc, List.singleton_append]

theorem resolveParts_eq {parts : List Text} (hparts : ∀ part ∈ parts, part ≠ parent) :
    resolveParts parts = parts := by
  rw [resolveParts, foldl_descend_eq hparts, List.append_nil, List.reverse_reverse]

/-! ## Absolute paths -/

theorem isAbsolute_absolute (p : Path) : p.absolute.IsAbsolute where
  anchor_ne := by
    rw [absolute]
    dsimp only
    split
    · exact Anchor.noConfusion
    · next hanchor => exact hanchor
  part_ne := fun _ hmem => (mem_resolveParts hmem).2

theorem IsAbsolute.absolute_eq {p : Path} (habsolute : p.IsAbsolute) : p.absolute = p := by
  rw [absolute, if_neg habsolute.anchor_ne, resolveParts_eq habsolute.part_ne]

@[simp]
theorem absolute_absolute (p : Path) : p.absolute.absolute = p.absolute :=
  p.isAbsolute_absolute.absolute_eq

/-! ## Lying below -/

theorem below?_eq_some_iff {base p : Path} {parts : List Text} :
    below? base p = some parts ↔ p.anchor = base.anchor ∧ p.parts = base.parts ++ parts := by
  rw [below?]
  constructor
  · intro hbelow
    split at hbelow
    · next hprefix =>
        obtain ⟨hanchor, rest, hparts⟩ := hprefix
        rw [← hparts, List.drop_left, Option.some.injEq] at hbelow
        exact ⟨hanchor, by rw [← hparts, hbelow]⟩
    · cases hbelow
  · rintro ⟨hanchor, hparts⟩
    rw [if_pos ⟨hanchor, parts, hparts.symm⟩, hparts, List.drop_left]

/-- Nothing is left of a path below itself, and below no other one. -/
theorem below?_eq_some_nil_iff {base p : Path} : below? base p = some [] ↔ base = p := by
  rw [below?_eq_some_iff, List.append_nil]
  cases base
  cases p
  rw [mk.injEq, eq_comm, @eq_comm _ _ (parts _)]

theorem IsName.ne_nil {part : Text} (hname : IsName part) : part ≠ [] := by
  rintro rfl
  cases hname.1

/-- The entry of a directory lies below it. -/
theorem IsName.liesBelow_child {name : Text} (hname : IsName name) (directory : Path) :
    directory.LiesBelow (directory.child name) :=
  ⟨[name], List.cons_ne_nil _ _, by simpa using hname, rfl⟩

/-- What lies below an entry of a directory lies below the directory. -/
theorem LiesBelow.of_child {directory file : Path} {name : Text} (hname : IsName name)
    (hbelow : (directory.child name).LiesBelow file) : directory.LiesBelow file := by
  obtain ⟨names, -, hnames, rfl⟩ := hbelow
  refine ⟨name :: names, List.cons_ne_nil _ _, ?_, ?_⟩
  · intro part hmem
    rcases List.mem_cons.mp hmem with rfl | hmem
    · exact hname
    · exact hnames part hmem
  · simp [child]

/-- Below an absolute directory all is absolute. -/
theorem LiesBelow.isAbsolute {directory file : Path} (hbelow : directory.LiesBelow file)
    (hdirectory : directory.IsAbsolute) : file.IsAbsolute := by
  obtain ⟨names, -, hnames, rfl⟩ := hbelow
  refine ⟨hdirectory.anchor_ne, fun part hmem => ?_⟩
  rcases List.mem_append.mp hmem with hmem | hmem
  · exact hdirectory.part_ne part hmem
  · exact (hnames part hmem).2

/-- The path of a file relative to a base directory is that of every spelling of the file. -/
theorem relativeTo_absolute (file base : Path) : file.absolute.relativeTo base = file.relativeTo base := by
  rw [relativeTo, relativeTo, absolute_absolute]

end HookAtlas.Path
