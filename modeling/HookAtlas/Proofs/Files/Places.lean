/-
# Places in a file tree

A place is given by the names of the entries on the way to it from the root.  What is there is a directory, a
file, a link, or nothing.  Where the entries of a directory have different names, looking entries up by their
names finds each of them.

There are no more places of links than links, which bounds how many links can be under way at once.
-/

import HookAtlas.Files.RealPath
import HookAtlas.Proofs.Files.Walk
import Mathlib.Data.List.Perm.Subperm
import Mathlib.Tactic.Tauto

namespace HookAtlas

/-- The entries of a directory have different names, here and below. -/
inductive FileNode.HasDistinctNames : FileNode → Prop
  | file (content : FileContent) : HasDistinctNames (.file content)
  | link (target : Path) : HasDistinctNames (.link target)
  | directory {entries : List (Text × FileNode)} (hnames : (entries.map Prod.fst).Nodup)
      (hnodes : ∀ entry ∈ entries, HasDistinctNames entry.2) : HasDistinctNames (.directory entries)

namespace FileTree

/-- The entries of every directory of a tree have different names. -/
def HasDistinctNames (tree : FileTree) : Prop :=
  tree.rootNode.HasDistinctNames

/-- A tree as a file system has it: its entries have names, and those of one directory have different names. -/
structure IsProper (tree : FileTree) : Prop where
  isNamed : tree.IsNamed
  hasDistinctNames : tree.HasDistinctNames

mutual

/-- Whether an entry and those below it have names, different ones in each directory. -/
def isProperNode : FileNode → Bool
  | .file _ => true
  | .link _ => true
  | .directory entries => areProperEntries entries

/-- Whether entries and those below them have names, different ones in each directory. -/
def areProperEntries : List (Text × FileNode) → Bool
  | [] => true
  | (name, node) :: entries =>
    decide (Path.IsName name) && !(entries.map Prod.fst).contains name && isProperNode node &&
      areProperEntries entries

end

mutual

theorem isProperNode_iff :
    (node : FileNode) → (isProperNode node = true ↔ node.IsNamed ∧ node.HasDistinctNames)
  | .file content => iff_of_true rfl ⟨.file content, .file content⟩
  | .link target => iff_of_true rfl ⟨.link target, .link target⟩
  | .directory entries => by
      rw [isProperNode, areProperEntries_iff entries]
      constructor
      · rintro ⟨hnames, hdistinct, hnodes⟩
        exact ⟨.directory hnames fun entry hmem => (hnodes entry hmem).1,
          .directory hdistinct fun entry hmem => (hnodes entry hmem).2⟩
      · rintro ⟨⟨⟩, ⟨⟩⟩
        next hnames hnamed hdistinct hnodes =>
          exact ⟨hnames, hdistinct, fun entry hmem => ⟨hnamed entry hmem, hnodes entry hmem⟩⟩

theorem areProperEntries_iff : (entries : List (Text × FileNode)) →
    (areProperEntries entries = true ↔ (∀ entry ∈ entries, Path.IsName entry.1) ∧
      (entries.map Prod.fst).Nodup ∧ ∀ entry ∈ entries, entry.2.IsNamed ∧ entry.2.HasDistinctNames)
  | [] => by simp [areProperEntries]
  | (name, node) :: entries => by
      have hfresh : (!(entries.map Prod.fst).contains name) = true ↔ name ∉ entries.map Prod.fst := by
        rw [Bool.not_eq_true', List.contains_eq_mem, decide_eq_false_iff_not]
      rw [areProperEntries, Bool.and_eq_true, Bool.and_eq_true, Bool.and_eq_true, decide_eq_true_iff, hfresh,
        isProperNode_iff node, areProperEntries_iff entries, List.map_cons, List.nodup_cons,
        List.forall_mem_cons, List.forall_mem_cons]
      tauto

end

instance (tree : FileTree) : Decidable tree.IsProper :=
  decidable_of_iff (isProperNode tree.rootNode = true)
    ((isProperNode_iff tree.rootNode).trans ⟨fun h => ⟨h.1, h.2⟩, fun h => ⟨h.1, h.2⟩⟩)

/-- There is a directory at a place. -/
def HasDirectory (tree : FileTree) (place : List Text) : Prop :=
  ∃ entries, tree.nodeAt? place = some (.directory entries)

/-- The content of the file at a place, if a file is there. -/
def fileAt? (tree : FileTree) (place : List Text) : Option FileContent :=
  match tree.nodeAt? place with
  | some (.file content) => some content
  | _ => none

variable {tree : FileTree} {entries : List (Text × FileNode)} {node found : FileNode}
  {place here rest names : List Text} {name : Text}

/-! ## Looking entries up -/

theorem entryOf?_cons (name other : Text) (node : FileNode) (entries : List (Text × FileNode)) :
    entryOf? name ((other, node) :: entries) = if other = name then some node else entryOf? name entries := by
  by_cases hname : other = name
  · simp [entryOf?, hname]
  · simp [entryOf?, hname]

theorem entryOf?_eq_some_iff (hnames : (entries.map Prod.fst).Nodup) :
    entryOf? name entries = some node ↔ (name, node) ∈ entries := by
  induction entries with
  | nil => simp [entryOf?]
  | cons entry entries ih =>
      obtain ⟨other, first⟩ := entry
      rw [List.map_cons, List.nodup_cons] at hnames
      by_cases hname : other = name
      · subst hname
        have hothers : (other, node) ∉ entries := fun hmem => hnames.1 (List.mem_map.mpr ⟨_, hmem, rfl⟩)
        simp [entryOf?_cons, hothers, eq_comm]
      · rw [entryOf?_cons, if_neg hname, ih hnames.2]
        simp [Ne.symm hname]

theorem nodeBelow?_nil (node : FileNode) : nodeBelow? node [] = some node := by
  cases node <;> rfl

theorem nodeBelow?_cons (entries : List (Text × FileNode)) (name : Text) (names : List Text) :
    nodeBelow? (.directory entries) (name :: names) = (entryOf? name entries).bind (nodeBelow? · names) := by
  rw [nodeBelow?]
  cases entryOf? name entries <;> rfl

theorem nodeBelow?_append (node : FileNode) (first second : List Text) :
    nodeBelow? node (first ++ second) = (nodeBelow? node first).bind (nodeBelow? · second) := by
  induction first generalizing node with
  | nil => rw [List.nil_append, nodeBelow?_nil, Option.bind_some]
  | cons name first ih =>
      cases node with
      | file content => rfl
      | link target => rfl
      | directory entries =>
          rw [List.cons_append, nodeBelow?_cons, nodeBelow?_cons]
          cases entryOf? name entries with
          | none => rfl
          | some node => exact ih node

theorem nodeAt?_append (tree : FileTree) (first second : List Text) :
    tree.nodeAt? (first ++ second) = (tree.nodeAt? first).bind (nodeBelow? · second) :=
  nodeBelow?_append tree.rootNode first second

/-- Below something that is no directory there is nothing. -/
theorem hasDirectory_of_nodeAt?_append (hrest : rest ≠ [])
    (hfound : tree.nodeAt? (place ++ rest) = some found) : tree.HasDirectory place := by
  rw [nodeAt?_append] at hfound
  obtain ⟨node, hnode, hbelow⟩ := Option.bind_eq_some_iff.mp hfound
  obtain ⟨name, names, rfl⟩ := List.exists_cons_of_ne_nil hrest
  cases node with
  | file content => cases hbelow
  | link target => cases hbelow
  | directory entries => exact ⟨entries, hnode⟩

theorem nodeAt?_concat (hentries : tree.nodeAt? place = some (.directory entries)) (name : Text) :
    tree.nodeAt? (place ++ [name]) = entryOf? name entries := by
  rw [nodeAt?_append, hentries, Option.bind_some, nodeBelow?_cons]
  cases entryOf? name entries with
  | none => rfl
  | some node => exact nodeBelow?_nil node

/-- A file is no directory. -/
theorem not_hasDirectory_of_fileAt? {content : FileContent} (hfile : tree.fileAt? place = some content) :
    ¬ tree.HasDirectory place := by
  rintro ⟨entries, hentries⟩
  rw [fileAt?, hentries] at hfile
  cases hfile

theorem nodeAt?_of_fileAt? {content : FileContent} (hfile : tree.fileAt? place = some content) :
    tree.nodeAt? place = some (.file content) := by
  rw [fileAt?] at hfile
  split at hfile
  · next hnode =>
      cases hfile
      exact hnode
  · cases hfile

theorem nodeAt?_of_linkAt? {target : Path} (hlink : tree.linkAt? place = some target) :
    tree.nodeAt? place = some (.link target) := by
  rw [linkAt?] at hlink
  split at hlink
  · next hnode =>
      cases hlink
      exact hnode
  · cases hlink

/-- The names on the way to an entry of a tree are names. -/
theorem isName_of_nodeBelow? (hnode : node.IsNamed) (hfound : nodeBelow? node place = some found) :
    ∀ name ∈ place, Path.IsName name := by
  induction place generalizing node with
  | nil => exact fun name hmem => absurd hmem List.not_mem_nil
  | cons first place ih =>
      cases hnode with
      | file content => cases hfound
      | link target => cases hfound
      | directory hnames hnodes =>
          rw [nodeBelow?] at hfound
          split at hfound
          · next node hentry =>
              obtain ⟨entry, hfind, rfl⟩ := Option.map_eq_some_iff.mp hentry
              have hmem := List.mem_of_find?_eq_some hfind
              have hname : entry.1 = first := by simpa using List.find?_some hfind
              rw [List.forall_mem_cons]
              refine ⟨?_, ih (hnodes entry hmem) hfound⟩
              rw [← hname]
              exact hnames entry hmem
          · cases hfound

theorem isName_of_nodeAt? (htree : tree.IsNamed) (hfound : tree.nodeAt? place = some found) :
    ∀ name ∈ place, Path.IsName name :=
  isName_of_nodeBelow? htree hfound

/-! ## Places of links -/

mutual

/-- The places of the links below an entry. -/
def linkPlaces : FileNode → List (List Text)
  | .link _ => [[]]
  | .file _ => []
  | .directory entries => linkPlacesOfEntries entries

/-- The places of the links below some entries. -/
def linkPlacesOfEntries : List (Text × FileNode) → List (List Text)
  | [] => []
  | (name, node) :: entries =>
    (linkPlaces node).map (List.cons name) ++ linkPlacesOfEntries entries

end

mutual

theorem length_linkPlaces : (node : FileNode) → (linkPlaces node).length = linkCount node
  | .link _ => rfl
  | .file _ => rfl
  | .directory entries => length_linkPlacesOfEntries entries

theorem length_linkPlacesOfEntries :
    (entries : List (Text × FileNode)) → (linkPlacesOfEntries entries).length = linkCountOfEntries entries
  | [] => rfl
  | (_, node) :: entries => by
      rw [linkPlacesOfEntries, linkCountOfEntries, List.length_append, List.length_map,
        length_linkPlaces node, length_linkPlacesOfEntries entries]

end

theorem mem_linkPlacesOfEntries (hentry : entryOf? name entries = some node)
    (hplace : place ∈ linkPlaces node) : name :: place ∈ linkPlacesOfEntries entries := by
  induction entries with
  | nil => cases hentry
  | cons entry entries ih =>
      obtain ⟨other, first⟩ := entry
      rw [linkPlacesOfEntries, List.mem_append]
      rw [entryOf?_cons] at hentry
      split at hentry
      · next hname =>
          left
          cases hentry
          rw [hname]
          exact List.mem_map_of_mem hplace
      · exact .inr (ih hentry)

theorem mem_linkPlaces {target : Path} (hlink : nodeBelow? node place = some (.link target)) :
    place ∈ linkPlaces node := by
  induction place generalizing node with
  | nil =>
      rw [nodeBelow?, Option.some.injEq] at hlink
      rw [hlink, linkPlaces]
      exact List.mem_cons_self
  | cons name place ih =>
      cases node with
      | file content => cases hlink
      | link target => cases hlink
      | directory entries =>
          rw [nodeBelow?] at hlink
          split at hlink
          · next node hentry => exact mem_linkPlacesOfEntries hentry (ih hlink)
          · cases hlink

/-- Different places of links are at most as many as there are links. -/
theorem length_le_linkCount {places : List (List Text)} (hnodup : places.Nodup)
    (hlinks : ∀ place ∈ places, ∃ target, tree.linkAt? place = some target) :
    places.length ≤ linkCount tree.rootNode := by
  have hsubset : places ⊆ linkPlaces tree.rootNode := by
    intro place hmem
    obtain ⟨target, hlink⟩ := hlinks place hmem
    exact mem_linkPlaces (nodeAt?_of_linkAt? hlink)
  rw [← length_linkPlaces]
  exact (List.subperm_of_subset hnodup hsubset).length_le

end FileTree

end HookAtlas
