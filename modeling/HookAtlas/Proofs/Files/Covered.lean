/-
# Which files a scan covers

`Covers` says which entries lie below a root: those that are reached from the directory that the root leads to by
going down through directories, never through a link, and that are no directories themselves.  A link counts as
a directory where it leads to one.  Of these entries the walk of a root lists the ones with a recognised ending.

A scan goes through these lists and visits of all files with one real path the first.  So the files that it visits
have different real paths, and they have the real paths of all files that its roots cover.
-/

import HookAtlas.Proofs.Files.Places

namespace HookAtlas

/-- An entry is a file for a walk that reaches it by a path: it is no directory, and no link to one. -/
def FileNode.IsFileAt (tree : FileTree) (path : Path) : FileNode → Prop
  | .file _ => True
  | .directory _ => False
  | .link _ => tree.isDirectory path = false

namespace FileTree

/-- A root covers a file with a recognised ending: from the directory that the root leads to one goes down to it
through directories. -/
def Covers (tree : FileTree) (endings : List Text) (root file : Path) : Prop :=
  ∃ place names name node, tree.follow? maxLinks [] root.parts = some place ∧
    tree.nodeAt? (place ++ (names ++ [name])) = some node ∧ node.IsFileAt tree file ∧
    hasEnding endings name = true ∧ file = ⟨root.anchor, root.parts ++ (names ++ [name])⟩

/-- One of some roots covers a file. -/
def CoversBelow (tree : FileTree) (endings : List Text) (roots : List Path) (file : Path) : Prop :=
  ∃ root ∈ roots, tree.Covers endings root file

variable {tree : FileTree} {endings : List Text} {directory file root : Path} {node found : FileNode}
  {entries : List (Text × FileNode)} {place : List Text} {roots others seen files : List Path}

/-! ## The walk -/

theorem ownFile?_eq_some_iff {entry : Text × FileNode} :
    ownFile? tree endings directory entry = some file ↔
      entry.2.IsFileAt tree file ∧ hasEnding endings entry.1 = true ∧ file = directory.child entry.1 := by
  obtain ⟨name, node⟩ := entry
  cases node with
  | file content =>
      simp only [ownFile?, FileNode.IsFileAt, Bool.true_and, Option.ite_none_right_eq_some, Option.some.injEq,
        true_and]
      exact and_congr_right fun _ => eq_comm
  | directory entries => simp [ownFile?, FileNode.IsFileAt]
  | link target =>
      simp only [ownFile?, FileNode.IsFileAt, Bool.and_eq_true, Bool.not_eq_true',
        Option.ite_none_right_eq_some, Option.some.injEq]
      constructor
      · rintro ⟨⟨hlink, hending⟩, rfl⟩
        exact ⟨hlink, hending, rfl⟩
      · rintro ⟨hlink, hending, rfl⟩
        exact ⟨⟨hlink, hending⟩, rfl⟩

/-- The walk of a directory lists the files that are reached from it through directories. -/
theorem mem_filesOfNode_iff (hnode : node.HasDistinctNames) :
    file ∈ filesOfNode tree endings directory node ↔
      ∃ names name found, nodeBelow? node (names ++ [name]) = some found ∧ found.IsFileAt tree file ∧
        hasEnding endings name = true ∧ file = ⟨directory.anchor, directory.parts ++ (names ++ [name])⟩ := by
  induction hnode generalizing directory with
  | file content =>
      simp only [filesOfNode, List.not_mem_nil, false_iff]
      rintro ⟨_ | ⟨first, names⟩, name, found, hfound, -⟩
      · cases hfound
      · cases hfound
  | link target =>
      simp only [filesOfNode, List.not_mem_nil, false_iff]
      rintro ⟨_ | ⟨first, names⟩, name, found, hfound, -⟩
      · cases hfound
      · cases hfound
  | @directory entries hnames hnodes ih =>
      rw [filesOfNode, List.mem_append, List.mem_filterMap, mem_filesOfEntries]
      constructor
      · rintro (⟨⟨name, node⟩, hmem, hown⟩ | ⟨⟨first, node⟩, hmem, hbelow⟩)
        · obtain ⟨hfile, hending, rfl⟩ := ownFile?_eq_some_iff.mp hown
          have hentry := (entryOf?_eq_some_iff hnames).mpr hmem
          refine ⟨[], name, node, ?_, hfile, hending, rfl⟩
          rw [List.nil_append, nodeBelow?, hentry]
          rfl
        · obtain ⟨names, name, found, hfound, hfile, hending, rfl⟩ := (ih _ hmem).mp hbelow
          have hentry := (entryOf?_eq_some_iff hnames).mpr hmem
          refine ⟨first :: names, name, found, ?_, hfile, hending, by simp [Path.child]⟩
          rw [List.cons_append, nodeBelow?, hentry]
          exact hfound
      · rintro ⟨names, name, found, hfound, hfile, hending, rfl⟩
        cases names with
        | nil =>
            left
            rw [List.nil_append, nodeBelow?] at hfound
            split at hfound
            · next node hentry =>
                cases hfound
                exact ⟨(name, found), (entryOf?_eq_some_iff hnames).mp hentry,
                  ownFile?_eq_some_iff.mpr ⟨hfile, hending, rfl⟩⟩
            · cases hfound
        | cons first names =>
            right
            rw [List.cons_append, nodeBelow?] at hfound
            split at hfound
            · next node hentry =>
                have hmem := (entryOf?_eq_some_iff hnames).mp hentry
                exact ⟨(first, node), hmem,
                  (ih _ hmem).mpr ⟨names, name, found, hfound, hfile, hending, by simp [Path.child]⟩⟩
            · cases hfound

theorem hasDistinctNames_of_nodeBelow? {names : List Text} (hnode : node.HasDistinctNames)
    (hfound : nodeBelow? node names = some found) : found.HasDistinctNames := by
  induction names generalizing node with
  | nil =>
      rw [nodeBelow?, Option.some.injEq] at hfound
      exact hfound ▸ hnode
  | cons name names ih =>
      cases hnode with
      | file content => cases hfound
      | link target => cases hfound
      | directory hnames hnodes =>
          rw [nodeBelow?] at hfound
          split at hfound
          · next node hentry => exact ih (hnodes _ ((entryOf?_eq_some_iff hnames).mp hentry)) hfound
          · cases hfound

/-- The walk of a root lists the files that it covers. -/
theorem mem_sourceFiles_iff (htree : tree.HasDistinctNames) :
    file ∈ tree.sourceFiles endings root ↔ tree.Covers endings root file := by
  rw [sourceFiles, find?]
  constructor
  · intro hmem
    split at hmem
    · next entries hfound =>
        obtain ⟨place, hfollow, hat⟩ := Option.bind_eq_some_iff.mp hfound
        have hnode := hasDistinctNames_of_nodeBelow? htree hat
        obtain ⟨names, name, found, hbelow, hfile, hending, hpath⟩ := (mem_filesOfNode_iff hnode).mp hmem
        refine ⟨place, names, name, found, hfollow, ?_, hfile, hending, hpath⟩
        rw [nodeAt?_append, hat]
        exact hbelow
    · cases hmem
  · rintro ⟨place, names, name, found, hfollow, hat, hfile, hending, hpath⟩
    obtain ⟨entries, hentries⟩ := hasDirectory_of_nodeAt?_append (by simp) hat
    rw [nodeAt?_append, hentries, Option.bind_some] at hat
    have hnode := hasDistinctNames_of_nodeBelow? htree hentries
    rw [hfollow, Option.bind_some, hentries]
    exact (mem_filesOfNode_iff hnode).mpr ⟨names, name, found, hat, hfile, hending, hpath⟩

theorem mem_flatMap_sourceFiles_iff (htree : tree.HasDistinctNames) :
    file ∈ roots.flatMap (tree.sourceFiles endings) ↔ tree.CoversBelow endings roots file := by
  simp only [List.mem_flatMap, mem_sourceFiles_iff htree, CoversBelow]

/-! ## The first of each real path -/

theorem mem_map_firstByRealPath {real : Path} :
    real ∈ (tree.firstByRealPath seen files).map tree.realPath ↔
      real ∉ seen ∧ real ∈ files.map tree.realPath := by
  induction files generalizing seen with
  | nil => simp [firstByRealPath]
  | cons file files ih =>
      rw [firstByRealPath]
      split
      · next hseen =>
          rw [ih, List.map_cons, List.mem_cons]
          constructor
          · rintro ⟨hreal, hmem⟩
            exact ⟨hreal, .inr hmem⟩
          · rintro ⟨hreal, rfl | hmem⟩
            · exact absurd hseen hreal
            · exact ⟨hreal, hmem⟩
      · next hseen =>
          rw [List.map_cons, List.mem_cons, ih, List.map_cons, List.mem_cons, List.mem_cons]
          by_cases hreal : real = tree.realPath file
          · simp [hreal, hseen]
          · simp [hreal]

theorem nodup_map_firstByRealPath (tree : FileTree) (seen files : List Path) :
    ((tree.firstByRealPath seen files).map tree.realPath).Nodup := by
  induction files generalizing seen with
  | nil => exact List.nodup_nil
  | cons file files ih =>
      rw [firstByRealPath]
      split
      · exact ih seen
      · rw [List.map_cons, List.nodup_cons]
        refine ⟨fun hmem => ?_, ih _⟩
        exact (mem_map_firstByRealPath.mp hmem).1 List.mem_cons_self

/-- The files that a scan visits have different real paths. -/
theorem nodup_map_visitedFiles (tree : FileTree) (endings : List Text) (roots : List Path) :
    ((tree.visitedFiles endings roots).map tree.realPath).Nodup :=
  nodup_map_firstByRealPath tree [] _

/-- They have the real paths of the files that the roots cover. -/
theorem mem_map_visitedFiles_iff (htree : tree.HasDistinctNames) {real : Path} :
    real ∈ (tree.visitedFiles endings roots).map tree.realPath ↔
      ∃ file, tree.CoversBelow endings roots file ∧ tree.realPath file = real := by
  rw [visitedFiles, mem_map_firstByRealPath, List.mem_map]
  simp only [List.not_mem_nil, not_false_eq_true, true_and, mem_flatMap_sourceFiles_iff htree]

theorem coversBelow_of_mem_visitedFiles (htree : tree.HasDistinctNames)
    (hmem : file ∈ tree.visitedFiles endings roots) : tree.CoversBelow endings roots file :=
  (mem_flatMap_sourceFiles_iff htree).mp (mem_of_mem_firstByRealPath hmem)

end FileTree

end HookAtlas
