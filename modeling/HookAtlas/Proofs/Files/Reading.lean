/-
# The places that a scan reads

A file is read at the place that its path leads to, within the number of links that are followed.  Then this place
is its real path.  So of the files that a scan visits no two are read at one place.

A file that cannot be read has a real path as well.  If it is the one of a file that can be read, the scan may visit
the former and leave out the latter.  `ReadsAlike` says that this does not happen: of the covered files with one
real path either all can be read or none.  Then a scan reads each place at which a covered file can be read once.
-/

import HookAtlas.Proofs.Files.Covered
import HookAtlas.Proofs.Files.Leads

namespace HookAtlas.FileTree

/-- The place at which a path is read; none where it cannot be read. -/
def readPlace? (tree : FileTree) (path : Path) : Option (List Text) :=
  (tree.follow? maxLinks [] path.parts).filter fun place => (tree.fileAt? place).isSome

/-- A covered file is read at a place. -/
def IsReadAt (tree : FileTree) (endings : List Text) (roots : List Path) (place : List Text) : Prop :=
  ∃ file, tree.CoversBelow endings roots file ∧ tree.readPlace? file = some place

/-- Of the covered files with one real path either all can be read or none. -/
def ReadsAlike (tree : FileTree) (endings : List Text) (roots : List Path) : Prop :=
  ∀ {file other}, tree.CoversBelow endings roots file → tree.CoversBelow endings roots other →
    tree.realPath file = tree.realPath other → (tree.readFile? file).isSome → (tree.readFile? other).isSome

variable {tree : FileTree} {endings : List Text} {path : Path} {place : List Text}
  {roots : List Path}

theorem readPlace?_eq_some_iff :
    tree.readPlace? path = some place ↔
      tree.follow? maxLinks [] path.parts = some place ∧ ∃ content, tree.fileAt? place = some content := by
  rw [readPlace?, Option.filter_eq_some_iff, Option.isSome_iff_exists]

/-- Reading a path reads the file at its place. -/
theorem readFile?_eq (tree : FileTree) (path : Path) :
    tree.readFile? path = ((tree.readPlace? path).bind tree.fileAt?).map FileContent.bytes := by
  rw [readFile?, find?, readPlace?]
  cases tree.follow? maxLinks [] path.parts with
  | none => rfl
  | some place =>
      rw [Option.filter_some, Option.bind_some]
      cases hnode : tree.nodeAt? place with
      | none => simp [fileAt?, hnode]
      | some node =>
          cases node with
          | file content => simp [fileAt?, hnode]
          | directory entries => simp [fileAt?, hnode]
          | link target => simp [fileAt?, hnode]

theorem isSome_readFile?_iff : (tree.readFile? path).isSome ↔ ∃ place, tree.readPlace? path = some place := by
  rw [readFile?_eq]
  constructor
  · intro hread
    rw [Option.isSome_map] at hread
    obtain ⟨content, hcontent⟩ := Option.isSome_iff_exists.mp hread
    obtain ⟨place, hplace, -⟩ := Option.bind_eq_some_iff.mp hcontent
    exact ⟨place, hplace⟩
  · rintro ⟨place, hplace⟩
    obtain ⟨-, content, hcontent⟩ := readPlace?_eq_some_iff.mp hplace
    rw [hplace, Option.bind_some, hcontent]
    rfl

/-- A file is read at its real path. -/
theorem realPath_of_readPlace? (htree : tree.IsNamed) (hplace : tree.readPlace? path = some place) :
    tree.realPath path = ⟨.root, place⟩ := by
  obtain ⟨cost, -, hleads⟩ := leads_of_follow? (readPlace?_eq_some_iff.mp hplace).1
  exact realPath_of_leads htree hleads

/-- No two visited files are read at one place. -/
theorem nodup_readPlaces (htree : tree.IsNamed) (endings : List Text) (roots : List Path) :
    ((tree.visitedFiles endings roots).filterMap tree.readPlace?).Nodup := by
  have hreal := List.pairwise_map.mp (nodup_map_visitedFiles tree endings roots)
  refine List.pairwise_filterMap.mpr (hreal.imp ?_)
  rintro file other hne place hplace _ hother rfl
  exact hne ((realPath_of_readPlace? htree hplace).trans (realPath_of_readPlace? htree hother).symm)

/-- Where covered files are read alike, a scan reads all places at which covered files are read. -/
theorem mem_readPlaces_iff (htree : tree.IsNamed) (hdistinct : tree.HasDistinctNames)
    (halike : tree.ReadsAlike endings roots) :
    place ∈ (tree.visitedFiles endings roots).filterMap tree.readPlace? ↔
      tree.IsReadAt endings roots place := by
  rw [List.mem_filterMap]
  constructor
  · rintro ⟨file, hmem, hplace⟩
    exact ⟨file, coversBelow_of_mem_visitedFiles hdistinct hmem, hplace⟩
  · rintro ⟨file, hcovers, hplace⟩
    have hmem := (mem_map_visitedFiles_iff hdistinct).mpr ⟨file, hcovers, rfl⟩
    obtain ⟨visited, hvisited, hreal⟩ := List.mem_map.mp hmem
    have hread : (tree.readFile? visited).isSome :=
      halike hcovers (coversBelow_of_mem_visitedFiles hdistinct hvisited) hreal.symm
        (isSome_readFile?_iff.mpr ⟨place, hplace⟩)
    obtain ⟨other, hother⟩ := isSome_readFile?_iff.mp hread
    rw [realPath_of_readPlace? htree hother, realPath_of_readPlace? htree hplace, Path.mk.injEq] at hreal
    exact ⟨visited, hvisited, hreal.2 ▸ hother⟩

end HookAtlas.FileTree
