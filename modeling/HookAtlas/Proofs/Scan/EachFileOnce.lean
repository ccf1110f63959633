/-
# A scan reads each file once

A scan visits files with different real paths, and they have the real paths of all files that its roots cover.  It
reads each place once at which a covered file can be read, unless it has visited in its stead a file that cannot be
read and has the same real path.  So the order of the roots has no part in what is found, nor has a root that is
given again, nor a link to a file that is covered.

Relative roots start at the root directory, the working directory of the scan.

A broken link is such a file.  Its target may lead through a directory that does not exist and up again; the real path
leaves out both parts, while following the link fails.  If such a link is met before the file that its real path
names, the file is not read at all.
-/

import HookAtlas.Proofs.Files.AddedLink
import HookAtlas.Proofs.Scan.Records
import HookAtlas.Proofs.Site.Attended
import Mathlib.Data.List.Permutation

namespace HookAtlas

/-- What counts of a record for a comparison of scans: the name, the kind and the line of the hook. -/
def HookRecord.finding (record : HookRecord) : ScalarText × HookType × Option Nat :=
  (record.hookName, record.hookType, record.line)

/-- Scans at one time of two trees find the same hooks, each as often, in any order. -/
def FindsAlike (settings : Settings) (tree other : FileTree) (roots others : List Path) : Prop :=
  ∀ now, ∃ records otherRecords,
    (recordsBelow settings tree (.ok now) roots).1 = .ok records ∧
    (recordsBelow settings other (.ok now) others).1 = .ok otherRecords ∧
    (otherRecords.map HookRecord.finding).Perm (records.map HookRecord.finding)

variable {settings : Settings} {tree other : FileTree} {roots others : List Path}

/-- The call sites in the file at a place. -/
def callSitesAt (settings : Settings) (tree : FileTree) (place : List Text) : List Php.CallSite :=
  match tree.fileAt? place with
  | none => []
  | some content => Php.callSites settings.callees (Php.tokenize (SourceText.ofBytes content.bytes))

/-- The call sites in a file are those at the place at which it is read. -/
theorem callSitesOfFile_eq (settings : Settings) (tree : FileTree) (file : Path) :
    callSitesOfFile settings tree file =
      ((tree.readPlace? file).map (callSitesAt settings tree)).getD [] := by
  rw [callSitesOfFile, FileTree.readFile?_eq]
  cases tree.readPlace? file with
  | none => rfl
  | some place =>
      rw [Option.bind_some, Option.map_some, Option.getD_some, callSitesAt]
      cases tree.fileAt? place with
      | none => rfl
      | some content => rfl

/-- The call sites below some roots are those at the places at which the visited files are read. -/
theorem map_snd_callSitesBelow (settings : Settings) (tree : FileTree) (roots : List Path) :
    (callSitesBelow settings tree roots).map Prod.snd =
      ((tree.visitedFiles settings.sourceExtensions roots).filterMap tree.readPlace?).flatMap
        (callSitesAt settings tree) := by
  rw [callSitesBelow, callSitesOfFiles, List.map_flatMap]
  induction tree.visitedFiles settings.sourceExtensions roots with
  | nil => rfl
  | cons file files ih =>
      rw [List.flatMap_cons, ih, List.map_map, callSitesOfFile_eq]
      cases hplace : tree.readPlace? file with
      | none => simp [hplace]
      | some place => simp [hplace]

/-- What is found below some roots. -/
theorem exists_records (settings : Settings) (tree : FileTree) (roots : List Path) (now : Timestamp) :
    ∃ records, (recordsBelow settings tree (.ok now) roots).1 = .ok records ∧
      records.map HookRecord.finding = ((callSitesBelow settings tree roots).map Prod.snd).map
        fun site => (ScalarText.ofText site.hookName, site.hookType, some site.line.toNat) := by
  refine ⟨_, recordsBelow_of_clock settings tree now roots, ?_⟩
  rw [List.map_map, List.map_map]
  rfl

/-- Scans that read the same files, each at its place, find alike. -/
theorem findsAlike_of_isReadAt (htree : tree.IsProper) (hother : other.IsProper)
    (halike : tree.ReadsAlike settings.sourceExtensions roots)
    (hotherAlike : other.ReadsAlike settings.sourceExtensions others)
    (hplaces : ∀ place, other.IsReadAt settings.sourceExtensions others place ↔
      tree.IsReadAt settings.sourceExtensions roots place)
    (hfiles : ∀ place, tree.IsReadAt settings.sourceExtensions roots place →
      other.fileAt? place = tree.fileAt? place) :
    FindsAlike settings tree other roots others := by
  intro now
  obtain ⟨records, hrecords, hfindings⟩ := exists_records settings tree roots now
  obtain ⟨otherRecords, hotherRecords, hotherFindings⟩ := exists_records settings other others now
  refine ⟨records, otherRecords, hrecords, hotherRecords, ?_⟩
  rw [hfindings, hotherFindings, map_snd_callSitesBelow, map_snd_callSitesBelow]
  refine List.Perm.map _ ?_
  have hsame : ((other.visitedFiles settings.sourceExtensions others).filterMap other.readPlace?).Perm
      ((tree.visitedFiles settings.sourceExtensions roots).filterMap tree.readPlace?) := by
    refine (List.perm_ext_iff_of_nodup (FileTree.nodup_readPlaces hother.isNamed _ others)
      (FileTree.nodup_readPlaces htree.isNamed _ roots)).mpr fun place => ?_
    rw [FileTree.mem_readPlaces_iff hother.isNamed hother.hasDistinctNames hotherAlike,
      FileTree.mem_readPlaces_iff htree.isNamed htree.hasDistinctNames halike]
    exact hplaces place
  have hsites : ∀ place ∈ (tree.visitedFiles settings.sourceExtensions roots).filterMap tree.readPlace?,
      callSitesAt settings other place = callSitesAt settings tree place := by
    intro place hmem
    rw [FileTree.mem_readPlaces_iff htree.isNamed htree.hasDistinctNames halike] at hmem
    rw [callSitesAt, callSitesAt, hfiles place hmem]
  refine (hsame.flatMap_right _).trans ?_
  rw [List.flatMap_congr hsites]

/-- The files that a scan visits have different real paths, which are those of all files that its roots cover.  As
long as covered files with one real path can be read alike, what is found stays the same when the roots are given
in another order or more than once, and when a link to a file is added that is covered. -/
theorem scan_reads_each_once (settings : Settings) (tree : FileTree) (roots : List Path)
    (htree : tree.IsProper) :
    let endings := settings.sourceExtensions
    ((tree.visitedFiles endings roots).map tree.realPath).Nodup ∧
      (∀ real, real ∈ (tree.visitedFiles endings roots).map tree.realPath ↔
        ∃ file, tree.CoversBelow endings roots file ∧ tree.realPath file = real) ∧
      (tree.ReadsAlike endings roots →
        (∀ others : List Path, (∀ root, root ∈ others ↔ root ∈ roots) →
          FindsAlike settings tree tree roots others) ∧
        ∀ (after : FileTree) (place : List Text), after.IsProper → after.ReadsAlike endings roots →
          tree.AddsLinkTo after place → tree.IsReadAt endings roots place →
          FindsAlike settings tree after roots roots) := by
  intro endings
  refine ⟨FileTree.nodup_map_visitedFiles tree endings roots,
    fun real => FileTree.mem_map_visitedFiles_iff htree.hasDistinctNames, fun halike => ⟨?_, ?_⟩⟩
  · intro others hothers
    have hcovers : ∀ file, tree.CoversBelow endings others file ↔ tree.CoversBelow endings roots file := by
      intro file
      simp only [FileTree.CoversBelow, hothers]
    refine findsAlike_of_isReadAt htree htree halike ?_ ?_ fun _ _ => rfl
    · intro file other hfile hother
      exact halike ((hcovers file).mp hfile) ((hcovers other).mp hother)
    · intro place
      simp only [FileTree.IsReadAt, endings, hcovers]
  · intro after place hafter hafterAlike hadds hplace
    exact findsAlike_of_isReadAt htree hafter halike hafterAlike
      (fun other => hadds.isReadAt_iff hafter.isNamed hplace) fun other hother => hadds.fileAt?_eq hother

/-! ## A link to a file -/

/-- A file that dispatches one action. -/
def openSource : FileContent :=
  ⟨"<?php do_action(\"open\");".toList.map Char.toNat, by decide⟩

/-- A tree with two directories: one has a link to the file of the other. -/
def linkedFiles : FileTree :=
  ⟨[("site", .directory [
    ("a", .directory [("y.php", .link (Path.ofText "../b/z.php"))]),
    ("b", .directory [("z.php", .file openSource)])])]⟩

/-- The tree with another link to the file. -/
def linkedTwiceFiles : FileTree :=
  ⟨[("site", .directory [
    ("a", .directory [("x.php", .link (Path.ofText "/site/b/z.php")),
      ("y.php", .link (Path.ofText "../b/z.php"))]),
    ("b", .directory [("z.php", .file openSource)])])]⟩

/-- The two directories. -/
def linkedRoots : List Path :=
  [Path.ofText "/site/a", Path.ofText "/site/b"]

/-- The place of the file. -/
def filePlace : List Text :=
  ["site", "b", "z.php"]

/-- The place of the other link. -/
def linkPlace : List Text :=
  ["site", "a", "x.php"]

/-- Where all covered files can be read they are read alike. -/
theorem FileTree.ReadsAlike.of_isSome {endings : List Text} (htree : tree.HasDistinctNames)
    (hread : ∀ file ∈ roots.flatMap (tree.sourceFiles endings), (tree.readFile? file).isSome) :
    tree.ReadsAlike endings roots :=
  fun _ hother _ _ => hread _ ((FileTree.mem_flatMap_sourceFiles_iff htree).mpr hother)

theorem isProper_linkedFiles : linkedFiles.IsProper := by
  decide

theorem isProper_linkedTwiceFiles : linkedTwiceFiles.IsProper := by
  decide

theorem flatMap_sourceFiles_linkedFiles : linkedRoots.flatMap (linkedFiles.sourceFiles [".php"]) =
    [Path.ofText "/site/a/y.php", Path.ofText "/site/b/z.php"] := by
  cbv

theorem readsAlike_linkedFiles : linkedFiles.ReadsAlike [".php"] linkedRoots := by
  refine FileTree.ReadsAlike.of_isSome isProper_linkedFiles.hasDistinctNames ?_
  rw [flatMap_sourceFiles_linkedFiles]
  simp only [List.forall_mem_cons, List.not_mem_nil, false_implies, implies_true, and_true]
  exact ⟨by cbv, by cbv⟩

theorem readsAlike_linkedTwiceFiles : linkedTwiceFiles.ReadsAlike [".php"] linkedRoots := by
  refine FileTree.ReadsAlike.of_isSome isProper_linkedTwiceFiles.hasDistinctNames ?_
  have hfiles : linkedRoots.flatMap (linkedTwiceFiles.sourceFiles [".php"]) =
      [Path.ofText "/site/a/x.php", Path.ofText "/site/a/y.php", Path.ofText "/site/b/z.php"] := by cbv
  rw [hfiles]
  simp only [List.forall_mem_cons, List.not_mem_nil, false_implies, implies_true, and_true]
  exact ⟨by cbv, by cbv, by cbv⟩

/-- The file is covered by its own path. -/
theorem isReadAt_linkedFiles :
    linkedFiles.IsReadAt [".php"] linkedRoots filePlace := by
  have hmem : Path.ofText "/site/b/z.php" ∈ linkedRoots.flatMap (linkedFiles.sourceFiles [".php"]) := by
    rw [flatMap_sourceFiles_linkedFiles]
    exact List.mem_cons_of_mem _ List.mem_cons_self
  have hcovers := (FileTree.mem_flatMap_sourceFiles_iff isProper_linkedFiles.hasDistinctNames).mp hmem
  exact ⟨_, hcovers, by cbv⟩

theorem addsLinkTo_linkedTwiceFiles :
    linkedFiles.AddsLinkTo linkedTwiceFiles filePlace where
  exists_addsLink := by
    have hspot : linkedFiles.resolveParent (Path.ofText "/site/a/x.php") = linkPlace := by cbv
    have hmade : linkedFiles.makeLink (Path.ofText "/site/a/x.php") "/site/b/z.php" = linkedTwiceFiles := by
      cbv
    refine ⟨linkPlace, FileTree.linkTarget "/site/b/z.php", ?_, by cbv⟩
    rw [← hmade, ← hspot]
    apply FileTree.addsLink_makeLink
    · rw [hspot]
      rfl
    · rw [hspot]
      exact ⟨_, rfl⟩
  exists_file := ⟨openSource, rfl⟩

/-- The roots in another order and given twice, and the other link to the file. -/
theorem scan_reads_each_once_linkedFiles :
    linkedFiles.IsProper ∧ linkedFiles.ReadsAlike [".php"] linkedRoots ∧
      FindsAlike Site.singleRecordSettings linkedFiles linkedFiles linkedRoots
        (linkedRoots.reverse ++ linkedRoots) ∧
      linkedTwiceFiles.IsProper ∧ linkedTwiceFiles.ReadsAlike [".php"] linkedRoots ∧
      linkedFiles.AddsLinkTo linkedTwiceFiles filePlace ∧
      linkedFiles.IsReadAt [".php"] linkedRoots filePlace ∧
      FindsAlike Site.singleRecordSettings linkedFiles linkedTwiceFiles linkedRoots linkedRoots := by
  obtain ⟨-, -, hfinds⟩ :=
    scan_reads_each_once Site.singleRecordSettings linkedFiles linkedRoots isProper_linkedFiles
  obtain ⟨horder, hlink⟩ := hfinds readsAlike_linkedFiles
  refine ⟨isProper_linkedFiles, readsAlike_linkedFiles, horder _ fun root => ?_, isProper_linkedTwiceFiles,
    readsAlike_linkedTwiceFiles, addsLinkTo_linkedTwiceFiles, isReadAt_linkedFiles, ?_⟩
  · simp
  · exact hlink _ _ isProper_linkedTwiceFiles readsAlike_linkedTwiceFiles addsLinkTo_linkedTwiceFiles isReadAt_linkedFiles

/-! ## A broken link with the real path of a file -/

/-- A tree in which the target of a link leads through a directory that does not exist. -/
def shadowedFiles : FileTree :=
  ⟨[("site", .directory [
    ("a", .directory [("y.php", .link (Path.ofText "../missing/../b/z.php"))]),
    ("b", .directory [("z.php", .file openSource)])])]⟩

/-- The file is read where its own directory comes first, and left out where the directory of the link does. -/
theorem exists_order_without_file :
    shadowedFiles.IsProper ∧ linkedRoots.Perm linkedRoots.reverse ∧
      ¬ FindsAlike Site.singleRecordSettings shadowedFiles shadowedFiles linkedRoots.reverse linkedRoots := by
  refine ⟨by decide, (List.reverse_perm linkedRoots).symm, fun hfinds => ?_⟩
  obtain ⟨records, otherRecords, hrecords, hotherRecords, hperm⟩ := hfinds .epoch
  have hnone : (recordsBelow Site.singleRecordSettings shadowedFiles (.ok .epoch) linkedRoots).1 = .ok [] := by
    cbv
  have hone : ((recordsBelow Site.singleRecordSettings shadowedFiles (.ok .epoch)
      linkedRoots.reverse).1.toOption.map List.length) = some 1 := by
    cbv
  rw [hnone] at hotherRecords
  rw [hrecords] at hone
  cases hotherRecords
  have hlength := hperm.length_eq
  rw [List.length_map, List.length_map, Option.some.inj hone] at hlength
  cases hlength

end HookAtlas
