/-
# Where the walk finds its files

All that a walk finds below a directory is reached from the directory by the names of entries, also where the
path of the directory itself leads through links.  What a file tree has to provide for this is that its entries
have names: none of them is empty, `.` or `..`.
-/

import HookAtlas.Proofs.Path.Absolute
import HookAtlas.Scan.Visit

namespace HookAtlas

/-- The entries of an entry, and those below them, have names. -/
inductive FileNode.IsNamed : FileNode → Prop
  | file (content : FileContent) : IsNamed (.file content)
  | link (target : Path) : IsNamed (.link target)
  | directory {entries : List (Text × FileNode)} (hnames : ∀ entry ∈ entries, Path.IsName entry.1)
      (hnodes : ∀ entry ∈ entries, IsNamed entry.2) : IsNamed (.directory entries)

/-- A directory with one entry. -/
theorem FileNode.IsNamed.singleton {name : Text} {node : FileNode} (hname : Path.IsName name)
    (hnode : node.IsNamed) : (FileNode.directory [(name, node)]).IsNamed := by
  apply FileNode.IsNamed.directory
  · simpa using hname
  · simpa using hnode

namespace FileTree

/-- All entries of a tree have names. -/
def IsNamed (tree : FileTree) : Prop :=
  tree.rootNode.IsNamed

variable {tree : FileTree} {endings : List Text} {directory file : Path} {node found : FileNode}
  {entries : List (Text × FileNode)}

/-! ## Looking entries up -/

theorem mem_of_entryOf? {name : Text} (hentry : entryOf? name entries = some node) :
    ∃ entry ∈ entries, entry.2 = node := by
  obtain ⟨entry, hfind, rfl⟩ := Option.map_eq_some_iff.mp hentry
  exact ⟨entry, List.mem_of_find?_eq_some hfind, rfl⟩

theorem isNamed_of_nodeBelow? {parts : List Text} (hnode : node.IsNamed)
    (hfound : nodeBelow? node parts = some found) : found.IsNamed := by
  induction parts generalizing node with
  | nil =>
      rw [nodeBelow?, Option.some.injEq] at hfound
      exact hfound ▸ hnode
  | cons name names ih =>
      cases hnode with
      | file content => cases hfound
      | link target => cases hfound
      | directory hnames hnodes =>
          rw [nodeBelow?] at hfound
          split at hfound
          · next node hentry =>
              obtain ⟨entry, hmem, rfl⟩ := mem_of_entryOf? hentry
              exact ih (hnodes entry hmem) hfound
          · cases hfound

theorem isNamed_of_find? (htree : tree.IsNamed) (hfound : tree.find? directory = some found) :
    found.IsNamed := by
  obtain ⟨parts, -, hat⟩ := Option.bind_eq_some_iff.mp hfound
  exact isNamed_of_nodeBelow? htree hat

/-! ## The walk -/

theorem mem_filesOfEntries :
    file ∈ filesOfEntries tree endings directory entries ↔
      ∃ entry ∈ entries, file ∈ filesOfNode tree endings (directory.child entry.1) entry.2 := by
  induction entries with
  | nil => simp [filesOfEntries]
  | cons entry entries ih => rw [filesOfEntries, List.mem_append, ih, List.exists_mem_cons_iff]

theorem eq_child_of_ownFile? {entry : Text × FileNode}
    (hfile : ownFile? tree endings directory entry = some file) : file = directory.child entry.1 := by
  obtain ⟨-, hpath⟩ := Option.ite_none_right_eq_some.mp hfile
  exact (Option.some.inj hpath).symm

/-- The walk goes down by the names of entries. -/
theorem liesBelow_of_mem_filesOfNode (hnode : node.IsNamed)
    (hmem : file ∈ filesOfNode tree endings directory node) : directory.LiesBelow file := by
  induction hnode generalizing directory with
  | file content => cases hmem
  | link target => cases hmem
  | directory hnames hnodes ih =>
      rw [filesOfNode, List.mem_append] at hmem
      rcases hmem with hown | hbelow
      · obtain ⟨entry, hentry, hfile⟩ := List.mem_filterMap.mp hown
        rw [eq_child_of_ownFile? hfile]
        exact (hnames entry hentry).liesBelow_child directory
      · obtain ⟨entry, hentry, hfile⟩ := mem_filesOfEntries.mp hbelow
        exact .of_child (hnames entry hentry) (ih entry hentry hfile)

theorem liesBelow_of_mem_sourceFiles (htree : tree.IsNamed)
    (hmem : file ∈ tree.sourceFiles endings directory) : directory.LiesBelow file := by
  rw [sourceFiles] at hmem
  split at hmem
  · next hfound => exact liesBelow_of_mem_filesOfNode (isNamed_of_find? htree hfound) hmem
  · cases hmem

theorem mem_of_mem_firstByRealPath {seen files : List Path}
    (hmem : file ∈ tree.firstByRealPath seen files) : file ∈ files := by
  induction files generalizing seen with
  | nil => cases hmem
  | cons first files ih =>
      rw [firstByRealPath] at hmem
      split at hmem
      · exact List.mem_cons_of_mem first (ih hmem)
      · rcases List.mem_cons.mp hmem with rfl | hmem
        · exact List.mem_cons_self
        · exact List.mem_cons_of_mem first (ih hmem)

/-- Every file that a scan visits lies below one of its roots. -/
theorem liesBelow_of_mem_visitedFiles {roots : List Path} (htree : tree.IsNamed)
    (hmem : file ∈ tree.visitedFiles endings roots) : ∃ root ∈ roots, root.LiesBelow file := by
  obtain ⟨root, hroot, hfile⟩ := List.mem_flatMap.mp (mem_of_mem_firstByRealPath hmem)
  exact ⟨root, hroot, liesBelow_of_mem_sourceFiles htree hfile⟩

end FileTree

end HookAtlas
