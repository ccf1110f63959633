/-
# Adding a link to a file

Where a link to a file is added to a tree, all paths that led somewhere lead there still.  A path that did not, and
does now, leads to that file: at a file no path goes on.  So a link to a file at which a covered file is read
adds no place at which covered files are read, be it covered itself or not.
-/

import HookAtlas.Files.Edit
import HookAtlas.Proofs.Files.Reading

namespace HookAtlas.FileTree

/-- A link is added to a tree at a place where nothing was. -/
structure AddsLink (before after : FileTree) (spot : List Text) (target : Path) : Prop where
  free : before.nodeAt? spot = none
  link : after.linkAt? spot = some target
  same : ∀ place, place ≠ spot → after.linkAt? place = before.linkAt? place ∧
    after.fileAt? place = before.fileAt? place ∧ (after.HasDirectory place ↔ before.HasDirectory place)

/-- A link to the file at a place is added to a tree. -/
structure AddsLinkTo (before after : FileTree) (place : List Text) : Prop where
  exists_addsLink : ∃ spot target, before.AddsLink after spot target ∧
    before.follow? maxLinks (linkStart spot.dropLast target) target.parts = some place
  exists_file : ∃ content, before.fileAt? place = some content

variable {before after tree : FileTree} {spot place aim here rest : List Text} {target : Path} {cost : Nat}
  {endings : List Text} {roots : List Path} {root file : Path} {node : FileNode}

/-! ## What is at a place -/

theorem fileAt?_eq_some_iff {content : FileContent} :
    tree.fileAt? place = some content ↔ tree.nodeAt? place = some (.file content) :=
  ⟨nodeAt?_of_fileAt?, fun hnode => by rw [fileAt?, hnode]⟩

theorem linkAt?_eq_some_iff : tree.linkAt? place = some target ↔ tree.nodeAt? place = some (.link target) :=
  ⟨nodeAt?_of_linkAt?, fun hnode => by rw [linkAt?, hnode]⟩

theorem isDirectory_iff {path : Path} : tree.isDirectory path = true ↔
    ∃ place, tree.follow? maxLinks [] path.parts = some place ∧ tree.HasDirectory place := by
  rw [isDirectory, find?]
  constructor
  · intro hdirectory
    split at hdirectory
    · next entries hfound =>
        obtain ⟨place, hfollow, hentries⟩ := Option.bind_eq_some_iff.mp hfound
        exact ⟨place, hfollow, entries, hentries⟩
    · cases hdirectory
  · rintro ⟨place, hfollow, entries, hentries⟩
    rw [hfollow, Option.bind_some, hentries]

/-- What is no link is a directory or a file. -/
theorem exists_node_iff :
    (∃ node, tree.nodeAt? place = some node ∧ tree.linkAt? place = none) ↔
      tree.HasDirectory place ∨ ∃ content, tree.fileAt? place = some content := by
  constructor
  · rintro ⟨node, hnode, hnone⟩
    cases node with
    | file content => exact .inr ⟨content, by rw [fileAt?, hnode]⟩
    | directory entries => exact .inl ⟨entries, hnode⟩
    | link target =>
        rw [linkAt?, hnode] at hnone
        cases hnone
  · rintro (⟨entries, hentries⟩ | ⟨content, hcontent⟩)
    · exact ⟨_, hentries, by rw [linkAt?, hentries]⟩
    · have hnode := nodeAt?_of_fileAt? hcontent
      exact ⟨_, hnode, by rw [linkAt?, hnode]⟩

/-- Where there is no directory no path goes on. -/
theorem Leads.eq_of_not_hasDirectory (hleads : Leads tree here rest cost place)
    (hstop : ¬ tree.HasDirectory here) : place = here := by
  cases hleads with
  | nil => rfl
  | up hdirectory => exact absurd hdirectory hstop
  | stay hdirectory => exact absurd hdirectory hstop
  | down _ _ hnode =>
      exact absurd (hasDirectory_of_nodeAt?_append (List.cons_ne_nil _ _) hnode) hstop
  | link _ _ hlink =>
      exact absurd (hasDirectory_of_nodeAt?_append (List.cons_ne_nil _ _) (nodeAt?_of_linkAt? hlink)) hstop

namespace AddsLink

variable (hadds : before.AddsLink after spot target)

include hadds

theorem ne_of_nodeAt? (hnode : before.nodeAt? place = some node) : place ≠ spot := by
  rintro rfl
  rw [hadds.free] at hnode
  cases hnode

theorem ne_of_linkAt? (hnone : after.linkAt? place = none) : place ≠ spot := by
  rintro rfl
  rw [hadds.link] at hnone
  cases hnone

theorem ne_of_hasDirectory (hdirectory : after.HasDirectory place) : place ≠ spot := by
  rintro rfl
  obtain ⟨entries, hentries⟩ := hdirectory
  have hnode := nodeAt?_of_linkAt? hadds.link
  rw [hentries] at hnode
  cases hnode

theorem ne_of_fileAt? {content : FileContent} (hfile : after.fileAt? place = some content) : place ≠ spot := by
  rintro rfl
  have hnode := nodeAt?_of_linkAt? hadds.link
  rw [nodeAt?_of_fileAt? hfile] at hnode
  cases hnode

/-- Elsewhere files and links are the same. -/
theorem nodeAt?_iff_of_isFileAt {path : Path} (hne : place ≠ spot) (hfile : node.IsFileAt tree path) :
    after.nodeAt? place = some node ↔ before.nodeAt? place = some node := by
  obtain ⟨hlink, hcontent, -⟩ := hadds.same place hne
  cases node with
  | file content => rw [← fileAt?_eq_some_iff, ← fileAt?_eq_some_iff, hcontent]
  | directory entries => exact hfile.elim
  | link target => rw [← linkAt?_eq_some_iff, ← linkAt?_eq_some_iff, hlink]

/-- What was at a place is there still, as far as paths are concerned. -/
theorem exists_node (hnode : before.nodeAt? place = some node) (hnone : before.linkAt? place = none) :
    ∃ node, after.nodeAt? place = some node ∧ after.linkAt? place = none := by
  obtain ⟨-, hfile, hdirectory⟩ := hadds.same place (hadds.ne_of_nodeAt? hnode)
  rw [exists_node_iff, hfile, hdirectory, ← exists_node_iff]
  exact ⟨node, hnode, hnone⟩

/-- What is no link was there before. -/
theorem exists_node_before (hnode : after.nodeAt? place = some node) (hnone : after.linkAt? place = none) :
    ∃ node, before.nodeAt? place = some node ∧ before.linkAt? place = none := by
  obtain ⟨-, hfile, hdirectory⟩ := hadds.same place (hadds.ne_of_linkAt? hnone)
  rw [exists_node_iff, ← hfile, ← hdirectory, ← exists_node_iff]
  exact ⟨node, hnode, hnone⟩

/-! ## Where paths lead -/

/-- All parts that led somewhere lead there still. -/
theorem leads (hleads : Leads before here rest cost place) : Leads after here rest cost place := by
  induction hleads with
  | nil here => exact .nil here
  | up hdirectory _ ih =>
      obtain ⟨entries, hentries⟩ := hdirectory
      exact .up ((hadds.same _ (hadds.ne_of_nodeAt? hentries)).2.2.mpr ⟨entries, hentries⟩) ih
  | stay hdirectory _ ih =>
      obtain ⟨entries, hentries⟩ := hdirectory
      exact .stay ((hadds.same _ (hadds.ne_of_nodeAt? hentries)).2.2.mpr ⟨entries, hentries⟩) ih
  | down hup hstay hnode hnone _ ih =>
      obtain ⟨node, hnode, hnone⟩ := hadds.exists_node hnode hnone
      exact .down hup hstay hnode hnone ih
  | link hup hstay hlink _ _ ihTarget ihNames =>
      have hsame := (hadds.same _ (hadds.ne_of_nodeAt? (nodeAt?_of_linkAt? hlink))).1
      exact .link hup hstay (hsame.trans hlink) ihTarget ihNames

/-- If the link leads to a file, what leads somewhere now has led there before or leads to that file. -/
theorem leads_before {links : Nat} {content : FileContent}
    (haim : Leads before (linkStart spot.dropLast target) target.parts links aim)
    (hfile : before.fileAt? aim = some content) (hleads : Leads after here rest cost place) :
    Leads before here rest cost place ∨ place = aim := by
  have hstop : ¬ after.HasDirectory aim := by
    have hnode := nodeAt?_of_fileAt? hfile
    rw [(hadds.same aim (hadds.ne_of_nodeAt? hnode)).2.2]
    exact not_hasDirectory_of_fileAt? hfile
  induction hleads with
  | nil here => exact .inl (.nil here)
  | up hdirectory _ ih =>
      exact ih.imp_left fun hrest =>
        .up ((hadds.same _ (hadds.ne_of_hasDirectory hdirectory)).2.2.mp hdirectory) hrest
  | stay hdirectory _ ih =>
      exact ih.imp_left fun hrest =>
        .stay ((hadds.same _ (hadds.ne_of_hasDirectory hdirectory)).2.2.mp hdirectory) hrest
  | down hup hstay hnode hnone _ ih =>
      obtain ⟨node, hnode, hnone⟩ := hadds.exists_node_before hnode hnone
      exact ih.imp_left fun hrest => .down hup hstay hnode hnone hrest
  | @link here mid names place name _ _ _ hup hstay hlink htarget hnames ihTarget ihNames =>
      by_cases hspot : here ++ [name] = spot
      · -- The new link leads to the file.
        have hnew := hadds.link
        rw [← hspot, hlink, Option.some.injEq] at hnew
        subst hnew
        rw [← hspot, List.dropLast_concat] at haim
        obtain ⟨-, rfl⟩ := htarget.deterministic (hadds.leads haim)
        exact .inr (hnames.eq_of_not_hasDirectory hstop)
      · rcases ihTarget with htarget | rfl
        · have hsame := (hadds.same _ hspot).1
          exact ihNames.imp_left fun hnames => .link hup hstay (hsame.symm.trans hlink) htarget hnames
        · exact .inr (hnames.eq_of_not_hasDirectory hstop)

end AddsLink

/-! ## What is covered and where it is read -/

namespace AddsLinkTo

variable (hadds : before.AddsLinkTo after aim)

include hadds

/-- What led to a directory or to a file leads there still; what leads to one now has led there before or leads to
the file of the link. -/
theorem follow? {links : Nat} (hfollow : before.follow? links here rest = some place) :
    after.follow? links here rest = some place := by
  obtain ⟨spot, target, hlink, -⟩ := hadds.exists_addsLink
  obtain ⟨cost, hcost, hleads⟩ := follow?_eq_some_iff.mp hfollow
  exact follow?_eq_some_iff.mpr ⟨cost, hcost, hlink.leads hleads⟩

theorem follow?_before {links : Nat} (hfollow : after.follow? links here rest = some place) :
    before.follow? links here rest = some place ∨ place = aim := by
  obtain ⟨spot, target, hlink, haim⟩ := hadds.exists_addsLink
  obtain ⟨content, hfile⟩ := hadds.exists_file
  obtain ⟨cost, hcost, hleads⟩ := follow?_eq_some_iff.mp hfollow
  obtain ⟨links, -, haim⟩ := follow?_eq_some_iff.mp haim
  refine (hlink.leads_before haim hfile hleads).imp_left fun hleads => ?_
  exact follow?_eq_some_iff.mpr ⟨cost, hcost, hleads⟩

/-- There is no directory at the place of the file. -/
theorem not_hasDirectory : ¬ after.HasDirectory aim := by
  obtain ⟨spot, target, hlink, -⟩ := hadds.exists_addsLink
  obtain ⟨content, hfile⟩ := hadds.exists_file
  rw [(hlink.same aim (hlink.ne_of_nodeAt? (nodeAt?_of_fileAt? hfile))).2.2]
  exact not_hasDirectory_of_fileAt? hfile

/-- A path leads to a directory if and only if it did before. -/
theorem isDirectory_eq (path : Path) : after.isDirectory path = before.isDirectory path := by
  obtain ⟨spot, target, hlink, -⟩ := hadds.exists_addsLink
  rw [Bool.eq_iff_iff, isDirectory_iff, isDirectory_iff]
  constructor
  · rintro ⟨place, hfollow, hdirectory⟩
    rcases hadds.follow?_before hfollow with hbefore | rfl
    · exact ⟨place, hbefore, (hlink.same _ (hlink.ne_of_hasDirectory hdirectory)).2.2.mp hdirectory⟩
    · exact absurd hdirectory hadds.not_hasDirectory
  · rintro ⟨place, hfollow, entries, hentries⟩
    exact ⟨place, hadds.follow? hfollow,
      (hlink.same _ (hlink.ne_of_nodeAt? hentries)).2.2.mpr ⟨entries, hentries⟩⟩

theorem isFileAt_iff (path : Path) (node : FileNode) :
    node.IsFileAt after path ↔ node.IsFileAt before path := by
  cases node with
  | file content => rfl
  | directory entries => rfl
  | link target => rw [FileNode.IsFileAt, FileNode.IsFileAt, hadds.isDirectory_eq]

/-- What was covered is covered still. -/
theorem covers (hcovers : before.Covers endings root file) : after.Covers endings root file := by
  obtain ⟨spot, target, hlink, -⟩ := hadds.exists_addsLink
  obtain ⟨place, names, name, node, hroot, hnode, hfile, hending, hpath⟩ := hcovers
  refine ⟨place, names, name, node, hadds.follow? hroot, ?_, (hadds.isFileAt_iff file node).mpr hfile, hending,
    hpath⟩
  exact (hlink.nodeAt?_iff_of_isFileAt (hlink.ne_of_nodeAt? hnode) hfile).mpr hnode

/-- What is covered now and led to a place before was covered before. -/
theorem covers_before (hafter : after.IsNamed) (hcovers : after.Covers endings root file)
    (hfollow : before.follow? maxLinks [] file.parts = some here) : before.Covers endings root file := by
  obtain ⟨spot, target, hlink, -⟩ := hadds.exists_addsLink
  obtain ⟨place, names, name, node, hroot, hnode, hfile, hending, hpath⟩ := hcovers
  have hdirectory : after.HasDirectory place := hasDirectory_of_nodeAt?_append (by simp) hnode
  have hrootBefore : before.follow? maxLinks [] root.parts = some place := by
    rcases hadds.follow?_before hroot with hbefore | rfl
    · exact hbefore
    · exact absurd hdirectory hadds.not_hasDirectory
  have hentry : place ++ (names ++ [name]) ≠ spot := by
    -- Nothing was at the place of the link, so no path led there.
    rintro rfl
    have hnames := isName_of_nodeAt? hafter hnode
    rw [← List.append_assoc] at hnode
    have hbelow := hasDirectory_of_nodeAt?_append (List.cons_ne_nil name []) hnode
    have hbelowBefore := (hlink.same _ (hlink.ne_of_hasDirectory hbelow)).2.2.mp hbelow
    obtain ⟨_, -, hroot⟩ := follow?_eq_some_iff.mp hrootBefore
    have hdown := hroot.append (.of_names (fun part hmem => hnames part (by simp [hmem])) hbelowBefore)
    obtain ⟨_, -, hleads⟩ := follow?_eq_some_iff.mp hfollow
    rw [hpath, ← List.append_assoc] at hleads
    obtain ⟨_, _, mid, hfirst, hlast, -⟩ := hleads.split
    obtain ⟨-, rfl⟩ := hdown.deterministic hfirst
    obtain ⟨found, hfound⟩ := hlast.exists_nodeAt? (hnames name (by simp))
    have hfree := hlink.free
    rw [← List.append_assoc, hfound] at hfree
    cases hfree
  exact ⟨place, names, name, node, hrootBefore, (hlink.nodeAt?_iff_of_isFileAt hentry hfile).mp hnode,
    (hadds.isFileAt_iff file node).mp hfile, hending, hpath⟩

/-- No file that is covered is read at another place than before. -/
theorem isReadAt_iff (hafter : after.IsNamed) (haim : before.IsReadAt endings roots aim) :
    after.IsReadAt endings roots place ↔ before.IsReadAt endings roots place := by
  obtain ⟨spot, target, hlink, -⟩ := hadds.exists_addsLink
  constructor
  · rintro ⟨file, ⟨root, hroot, hcovers⟩, hplace⟩
    obtain ⟨hfollow, content, hcontent⟩ := readPlace?_eq_some_iff.mp hplace
    rcases hadds.follow?_before hfollow with hbefore | rfl
    · refine ⟨file, ⟨root, hroot, hadds.covers_before hafter hcovers hbefore⟩, ?_⟩
      have hfile := (hlink.same place (hlink.ne_of_fileAt? hcontent)).2.1
      exact readPlace?_eq_some_iff.mpr ⟨hbefore, content, hfile.symm.trans hcontent⟩
    · exact haim
  · rintro ⟨file, ⟨root, hroot, hcovers⟩, hplace⟩
    obtain ⟨hfollow, content, hcontent⟩ := readPlace?_eq_some_iff.mp hplace
    refine ⟨file, ⟨root, hroot, hadds.covers hcovers⟩, ?_⟩
    have hfile := (hlink.same place (hlink.ne_of_nodeAt? (nodeAt?_of_fileAt? hcontent))).2.1
    exact readPlace?_eq_some_iff.mpr ⟨hadds.follow? hfollow, content, hfile.trans hcontent⟩

/-- At a place at which a file is read it is the same as before. -/
theorem fileAt?_eq (hplace : before.IsReadAt endings roots place) :
    after.fileAt? place = before.fileAt? place := by
  obtain ⟨spot, target, hlink, -⟩ := hadds.exists_addsLink
  obtain ⟨file, -, hread⟩ := hplace
  obtain ⟨-, content, hcontent⟩ := readPlace?_eq_some_iff.mp hread
  exact (hlink.same place (hlink.ne_of_nodeAt? (nodeAt?_of_fileAt? hcontent))).2.1

end AddsLinkTo

/-! ## Making a link -/

/-- Two lookups answer the same, or both find a directory. -/
def FindAlike (found other : Option FileNode) : Prop :=
  found = other ∨ ∃ entries others, found = some (.directory entries) ∧ other = some (.directory others)

theorem FindAlike.directories (entries others : List (Text × FileNode)) :
    FindAlike (some (.directory entries)) (some (.directory others)) :=
  .inr ⟨entries, others, rfl, rfl⟩

theorem exists_directory_of_nodeBelow? {names : List Text} {inner : List (Text × FileNode)}
    (hfound : nodeBelow? node names = some (.directory inner)) : ∃ entries, node = .directory entries := by
  cases names with
  | nil =>
      rw [nodeBelow?_nil, Option.some.injEq] at hfound
      exact ⟨inner, hfound⟩
  | cons name names =>
      cases node with
      | file content => cases hfound
      | link target => cases hfound
      | directory entries => exact ⟨entries, rfl⟩

theorem entryOf?_putEntry (name other : Text) (node : FileNode) (entries : List (Text × FileNode)) :
    entryOf? other (putEntry name node entries) = if name = other then some node else entryOf? other entries := by
  induction entries with
  | nil => rw [putEntry, entryOf?_cons]
  | cons entry entries ih =>
      obtain ⟨first, old⟩ := entry
      rw [putEntry]
      split
      · next hfirst =>
          rw [entryOf?_cons, entryOf?_cons, hfirst]
          split
          · rfl
          · rfl
      · next hfirst =>
          split
          · rw [entryOf?_cons]
          · rw [entryOf?_cons, entryOf?_cons, ih]
            split
            · next hother => rw [if_neg fun hname => hfirst (hother.trans hname.symm)]
            · rfl

/-- A link that is put at a free place in a directory is found there, and elsewhere all is as before. -/
theorem nodeBelow?_putBelow (target : Path) {spot : List Text} {entries inner : List (Text × FileNode)}
    (hspot : spot ≠ []) (hfree : nodeBelow? (.directory entries) spot = none)
    (hparent : nodeBelow? (.directory entries) spot.dropLast = some (.directory inner)) :
    nodeBelow? (.directory (putBelow (.link target) spot entries)) spot = some (.link target) ∧
      ∀ place, place ≠ spot →
        FindAlike (nodeBelow? (.directory (putBelow (.link target) spot entries)) place)
          (nodeBelow? (.directory entries) place) := by
  induction spot generalizing entries with
  | nil => exact absurd rfl hspot
  | cons name spot ih =>
      -- Below other names nothing changes.
      have hothers : ∀ (node : FileNode) other names, name ≠ other →
          FindAlike (nodeBelow? (.directory (putEntry name node entries)) (other :: names))
            (nodeBelow? (.directory entries) (other :: names)) := by
        intro node other names hother
        rw [nodeBelow?_cons, nodeBelow?_cons, entryOf?_putEntry, if_neg hother]
        exact .inl rfl
      cases spot with
      | nil =>
          rw [nodeBelow?_cons] at hfree
          have hput : putBelow (.link target) [name] entries = putEntry name (.link target) entries := rfl
          rw [hput]
          constructor
          · rw [nodeBelow?_cons, entryOf?_putEntry, if_pos rfl]
            rfl
          · rintro (_ | ⟨other, names⟩) hplace
            · exact .directories _ _
            · by_cases hother : name = other
              · subst hother
                obtain ⟨next, names, rfl⟩ := List.exists_cons_of_ne_nil fun hnames : names = [] =>
                  hplace (by rw [hnames])
                have hnone : entryOf? name entries = none := by
                  cases hentry : entryOf? name entries with
                  | none => rfl
                  | some node =>
                      rw [hentry, Option.bind_some, nodeBelow?_nil] at hfree
                      cases hfree
                rw [nodeBelow?_cons, nodeBelow?_cons, entryOf?_putEntry, if_pos rfl, hnone]
                exact .inl rfl
              · exact hothers _ other names hother
      | cons next names =>
          have hlast : (name :: next :: names).dropLast = name :: (next :: names).dropLast := rfl
          rw [hlast, nodeBelow?_cons] at hparent
          obtain ⟨node, hentry, hbelow⟩ := Option.bind_eq_some_iff.mp hparent
          obtain ⟨others, rfl⟩ := exists_directory_of_nodeBelow? hbelow
          rw [nodeBelow?_cons, hentry, Option.bind_some] at hfree
          obtain ⟨hspot, hplaces⟩ := ih (List.cons_ne_nil next names) hfree hbelow
          have hput : putBelow (.link target) (name :: next :: names) entries =
              putEntry name (.directory (putBelow (.link target) (next :: names) others)) entries := by
            rw [putBelow, hentry]
            · rfl
            · exact List.cons_ne_nil next names
          rw [hput]
          constructor
          · rw [nodeBelow?_cons, entryOf?_putEntry, if_pos rfl]
            exact hspot
          · rintro (_ | ⟨other, rest⟩) hplace
            · exact .directories _ _
            · by_cases hother : name = other
              · subst hother
                rw [nodeBelow?_cons, nodeBelow?_cons, entryOf?_putEntry, if_pos rfl, hentry]
                exact hplaces rest fun hrest => hplace (by rw [hrest])
              · exact hothers _ other rest hother

/-- Making a link at a free place in a directory adds it to the tree. -/
theorem addsLink_makeLink {path : Path} {text : Text} (hfree : tree.nodeAt? (tree.resolveParent path) = none)
    (hparent : tree.HasDirectory (tree.resolveParent path).dropLast) :
    tree.AddsLink (tree.makeLink path text) (tree.resolveParent path) (linkTarget text) := by
  have hspot : tree.resolveParent path ≠ [] := by
    intro hspot
    rw [hspot, nodeAt?, nodeBelow?_nil] at hfree
    cases hfree
  obtain ⟨inner, hparent⟩ := hparent
  obtain ⟨hlink, hplaces⟩ := nodeBelow?_putBelow (linkTarget text) hspot hfree hparent
  refine ⟨hfree, linkAt?_eq_some_iff.mpr hlink, fun place hplace => ?_⟩
  have halike : FindAlike ((tree.makeLink path text).nodeAt? place) (tree.nodeAt? place) := hplaces place hplace
  rw [linkAt?, linkAt?, fileAt?, fileAt?, HasDirectory, HasDirectory]
  rcases halike with hsame | ⟨entries, others, hnew, hold⟩
  · rw [hsame]
    exact ⟨rfl, rfl, Iff.rfl⟩
  · rw [hnew, hold]
    exact ⟨rfl, rfl, ⟨fun _ => ⟨others, rfl⟩, fun _ => ⟨entries, rfl⟩⟩⟩

end HookAtlas.FileTree
