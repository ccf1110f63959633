/-
# What the document of a catalogue covers

The rows of the document are sorted as those of a listing are, so the rows of one name stand together.  The
table of contents and the sections look for a new name in different ways: the one compares each name with the
next, the others with the name of the section that is open.  On sorted rows both find the groups of the list,
so there is one link and one section for each name, and a section holds the rows of its name.
-/

import HookAtlas.Catalogue.Markdown
import HookAtlas.Proofs.Catalogue.Pagination
import HookAtlas.Proofs.Grouping

namespace HookAtlas

/-- The rows of a name. -/
def rowsNamed (name : Text) (rows : List CacheRow) : List CacheRow :=
  rows.filter fun row => row.record.hookName.text = name

theorem mem_rowsNamed {name : Text} {rows : List CacheRow} {row : CacheRow} :
    row ∈ rowsNamed name rows ↔ row ∈ rows ∧ row.record.hookName.text = name := by
  rw [rowsNamed, List.mem_filter, decide_eq_true_eq]

/-- Rows stand in the order of their names. -/
def AreSortedByName (rows : List CacheRow) : Prop :=
  (rows.map fun row => row.record.hookName.text).Pairwise fun first second =>
    first.map CodePoint.val ≤ second.map CodePoint.val

namespace Markdown

/-! ## Sections -/

/-- The section of a name with the entries of its rows. -/
def namedSection (name : Text) (rows : List CacheRow) : List Text :=
  sectionHeading name ++ rows.flatMap fun row => entryLines row.record

variable {name : Text} {group rest : List CacheRow}

/-- Rows of the section that is open are entered there. -/
theorem sections_append_of_open (hnamed : ∀ row ∈ group, row.record.hookName.text = name) :
    sections (some name) (group ++ rest) =
      (group.flatMap fun row => entryLines row.record) ++ sections (some name) rest := by
  induction group with
  | nil => rfl
  | cons row group ih =>
      rw [List.forall_mem_cons] at hnamed
      rw [List.cons_append, sections, hnamed.1, if_pos rfl, ih hnamed.2, List.flatMap_cons,
        List.nil_append, List.append_assoc]

/-- Rows of another name open a section. -/
theorem sections_append_of_other {current : Option Text} (hother : current ≠ some name)
    (hsome : group ≠ []) (hnamed : ∀ row ∈ group, row.record.hookName.text = name) :
    sections current (group ++ rest) = namedSection name group ++ sections (some name) rest := by
  obtain ⟨row, group, rfl⟩ := List.exists_cons_of_ne_nil hsome
  rw [List.forall_mem_cons] at hnamed
  rw [List.cons_append, sections, hnamed.1, if_neg hother, sections_append_of_open hnamed.2,
    namedSection, List.flatMap_cons, List.append_assoc, List.append_assoc, List.append_assoc]

/-- Groups of different names have a section each. -/
theorem sections_flatMap {current : Option Text} {names : List Text} {groupOf : Text → List CacheRow}
    (hdistinct : names.Nodup) (hcurrent : ∀ name ∈ names, current ≠ some name)
    (hsome : ∀ name ∈ names, groupOf name ≠ [])
    (hnamed : ∀ name ∈ names, ∀ row ∈ groupOf name, row.record.hookName.text = name) :
    sections current (names.flatMap groupOf) =
      names.flatMap fun name => namedSection name (groupOf name) := by
  induction names generalizing current with
  | nil => rfl
  | cons name names ih =>
      rw [List.nodup_cons] at hdistinct
      rw [List.forall_mem_cons] at hcurrent hsome hnamed
      have hopen : ∀ other ∈ names, some name ≠ some other := by
        intro other hmem heq
        rw [Option.some.inj heq] at hdistinct
        exact hdistinct.1 hmem
      rw [List.flatMap_cons, List.flatMap_cons,
        sections_append_of_other hcurrent.1 hsome.1 hnamed.1,
        ih hdistinct.2 hopen hsome.2 hnamed.2]

/-! ## Entries -/

/-- The entry of a row: its type, and what is known of the type and the name of its source. -/
def entryLine (record : HookRecord) : Text :=
  Text.ofString "- " ++ record.hookType.name ++
    match record.sourceType.name, record.sourceName.text with
    | [], [] => []
    | [], sourceName => Text.ofString " - " ++ sourceName
    | sourceType, [] => Text.ofString " - " ++ sourceType
    | sourceType, sourceName => Text.ofString " - " ++ sourceType ++ Text.mark ' ' ++ sourceName

/-- The place of a row, which is a file and maybe a line. -/
def locationLine (path : Text) (line : Option Nat) : Text :=
  Text.ofString "  - \x60" ++ (path ++ line.elim [] fun line => Text.mark ':' ++ Number.natText line) ++
    Text.ofString "\x60"

theorem entryLines_eq (record : HookRecord) :
    entryLines record = entryLine record :: (locationText? record).toList.map fun location =>
      Text.ofString "  - \x60" ++ location ++ Text.ofString "\x60" := by
  rw [entryLines, entryLine, sourceText]
  cases record.sourceType.name with
  | nil =>
      cases record.sourceName.text with
      | nil => rfl
      | cons => rfl
  | cons =>
      cases record.sourceName.text with
      | nil => rfl
      | cons => rfl

/-- A row has one entry, and its place behind it if its file has a name. -/
theorem entryLines_cases (record : HookRecord) :
    (∃ path, record.filePath = some path ∧ path.text ≠ [] ∧
      entryLines record = [entryLine record, locationLine path.text record.line]) ∨
      (∀ path, record.filePath = some path → path.text = []) ∧ entryLines record = [entryLine record] := by
  cases hfile : record.filePath with
  | none =>
      refine .inr ⟨nofun, ?_⟩
      rw [entryLines_eq, locationText?, hfile]
      rfl
  | some path =>
      by_cases hempty : path.text = []
      · refine .inr ⟨fun other hother => by rw [← Option.some.inj hother, hempty], ?_⟩
        rw [entryLines_eq, locationText?, hfile]
        dsimp only
        rw [if_pos hempty]
        rfl
      · refine .inl ⟨path, rfl, hempty, ?_⟩
        rw [entryLines_eq, locationText?, hfile]
        dsimp only
        rw [if_neg hempty]
        rfl

end Markdown

/-! ## Listed rows -/

/-- Rows of one name are listed by their numbers alone. -/
theorem CacheRow.listingKey_le_iff {row other : CacheRow}
    (hname : row.record.hookName.text = other.record.hookName.text) :
    row.listingKey ≤ other.listingKey ↔ row.id ≤ other.id := by
  rw [listingKey, listingKey, hname, Prod.Lex.toLex_le_toLex, and_iff_right rfl,
    or_iff_right (lt_irrefl _)]

namespace Markdown

/-- Rows that are sorted by name are the groups of their names in a row. -/
theorem flatMap_rowsNamed {listed : List CacheRow} (hsorted : AreSortedByName listed) :
    ((names listed).flatMap fun name => rowsNamed name listed) = listed :=
  flatMap_filter_eraseReps antisymm_names _ hsorted

/-- The sections of sorted rows are those of their names. -/
theorem sections_of_sorted {listed : List CacheRow} (hsorted : AreSortedByName listed) :
    sections none listed =
      (names listed).flatMap fun name => namedSection name (rowsNamed name listed) := by
  have hnames := pairwise_eraseReps antisymm_names hsorted
  conv_lhs => rw [← flatMap_rowsNamed hsorted]
  apply sections_flatMap
  · exact hnames.imp And.right
  · exact fun name _ => nofun
  · intro name hmem hnone
    obtain ⟨row, hrow, hname⟩ := List.mem_map.mp (mem_eraseReps.mp hmem)
    have hgroup : row ∈ rowsNamed name listed := mem_rowsNamed.mpr ⟨hrow, hname⟩
    rw [hnone] at hgroup
    cases hgroup
  · exact fun name _ row hrow => (mem_rowsNamed.mp hrow).2

end Markdown

namespace Store

open PageRequest (pageSize pageNumber maxPage)

variable {store : Store} {rows : List CacheRow}

theorem areSortedByName_mergeSort (rows : List CacheRow) :
    AreSortedByName (rows.mergeSort CacheRow.listedBefore) := by
  rw [AreSortedByName, List.pairwise_map]
  apply (mergeSort_listedBefore_pairwise rows).imp
  intro row other hle
  exact Prod.Lex.monotone_fst _ _ hle

theorem pairwise_rowsNamed {before : CacheRow → CacheRow → Prop} {listed : List CacheRow}
    (hlisted : listed.Pairwise before) (name : Text) :
    (rowsNamed name listed).Pairwise fun row other =>
      row.record.hookName.text = other.record.hookName.text ∧ before row other := by
  have hgroup : (rowsNamed name listed).Pairwise before := hlisted.sublist List.filter_sublist
  apply hgroup.imp_of_mem
  intro row other hrow hother hbefore
  exact ⟨(mem_rowsNamed.mp hrow).2.trans (mem_rowsNamed.mp hother).2.symm, hbefore⟩

theorem rowsNamed_mergeSort_pairwise (name : Text) (rows : List CacheRow) :
    (rowsNamed name (rows.mergeSort CacheRow.listedBefore)).Pairwise fun row other => row.id ≤ other.id := by
  apply (pairwise_rowsNamed (mergeSort_listedBefore_pairwise rows) name).imp
  rintro row other ⟨hname, hle⟩
  exact (CacheRow.listingKey_le_iff hname).mp hle

theorem standingRows_of_allRows (hrows : store.allRows = .ok rows) : store.standingRows = rows := by
  rw [allRows] at hrows
  split at hrows
  · cases hrows
  · next hcache =>
      cases hrows
      rw [standingRows, hcache]
      rfl

/-- In a store that was written to from the start no two rows of a name have one number. -/
theorem rowsNamed_mergeSort_strict (hreachable : store.IsReachable) (hrows : store.allRows = .ok rows)
    (name : Text) :
    (rowsNamed name (rows.mergeSort CacheRow.listedBefore)).Pairwise fun row other => row.id < other.id := by
  have hids := hreachable.wellNumbered.ids_increase
  rw [standingRows_of_allRows hrows] at hids
  apply (pairwise_rowsNamed (mergeSort_listedBefore_strict hids) name).imp
  rintro row other ⟨hname, hlt⟩
  rw [← not_le, ← CacheRow.listingKey_le_iff hname.symm]
  exact not_le_of_gt hlt

theorem rowsAdmitted_nil (rows : List CacheRow) : rowsAdmitted [] rows = rows :=
  List.filter_eq_self.mpr fun _ _ => rfl

/-- The document has one link and one section for each name, both in ascending order.  The section of a name
opens with the name and has one entry for each row of that name, in the order of their numbers, with its place
behind it if its file has a name.  The rows of the sections in a row are all rows, and they are the rows of a
listing of everything, page after page. -/
theorem markdown_covers_rows (hrows : store.allRows = .ok rows) (now : Timestamp) :
    ∃ (listed : List CacheRow) (names : List Text),
      (store.markdown now = .ok (Text.join (Text.mark '\n') (Markdown.documentLines now listed)) ∧
        Markdown.documentLines now listed =
          [Text.ofString "# Site Hooks", [],
              Text.ofString "_Generated: " ++ Markdown.momentText now ++ Text.ofString " UTC_", [],
              Text.ofString "## Table of Contents", []] ++
            (names.map fun name =>
              Text.ofString "- [" ++ name ++ Text.ofString "](#" ++ slugify name ++ Text.ofString ")") ++
            [[]] ++
            (names.flatMap fun name =>
              [Text.ofString "---", [], Text.ofString "### " ++ name, []] ++
                (rowsNamed name listed).flatMap fun row => Markdown.entryLines row.record) ++
            if rows = [] then [] else [[]]) ∧
      (names.Pairwise fun first second => first.map CodePoint.val < second.map CodePoint.val) ∧
      (∀ name, name ∈ names ↔ ∃ row ∈ rows, row.record.hookName.text = name) ∧
      (∀ name, (rowsNamed name listed).Perm (rowsNamed name rows) ∧
        ((rowsNamed name listed).Pairwise fun row other => row.id ≤ other.id) ∧
        (store.IsReachable →
          (rowsNamed name listed).Pairwise fun row other => row.id < other.id)) ∧
      (∀ record,
        (∃ path, record.filePath = some path ∧ path.text ≠ [] ∧
          Markdown.entryLines record =
            [Markdown.entryLine record, Markdown.locationLine path.text record.line]) ∨
        (∀ path, record.filePath = some path → path.text = []) ∧
          Markdown.entryLines record = [Markdown.entryLine record]) ∧
      (names.flatMap fun name => rowsNamed name listed) = listed ∧
      listed.Perm rows ∧
      ∀ perPage, ∃ items : Int → List HookEntry,
        (∀ page, store.listHooks [] ⟨page, perPage⟩ =
          .ok ⟨rows.length, pageNumber page, pageSize perPage, items page⟩) ∧
        ∀ count : Nat, (count : Int) ≤ maxPage →
          (((List.range count).flatMap fun n : Nat => items (n + 1)).map fun entry : HookEntry =>
              (entry.id, entry.toHookRecord)) =
            (listed.take (count * pageSize perPage)).map fun row => (Int.ofNat row.id, row.record) := by
  have hlisted : store.listedRows = .ok (rows.mergeSort CacheRow.listedBefore) := by
    rw [listedRows, hrows]
    rfl
  have hperm : (rows.mergeSort CacheRow.listedBefore).Perm rows := List.mergeSort_perm _ _
  have hsorted := areSortedByName_mergeSort rows
  have hempty : rows.mergeSort CacheRow.listedBefore = [] ↔ rows = [] := by
    rw [← List.length_eq_zero_iff, List.length_mergeSort, List.length_eq_zero_iff]
  refine ⟨rows.mergeSort CacheRow.listedBefore, Markdown.names (rows.mergeSort CacheRow.listedBefore),
    ⟨?_, ?_⟩, ?_, ?_, ?_, Markdown.entryLines_cases, Markdown.flatMap_rowsNamed hsorted, hperm, ?_⟩
  · rw [markdown, hlisted]
    rfl
  · rw [Markdown.documentLines, Markdown.sections_of_sorted hsorted]
    simp only [hempty]
    rfl
  · apply (pairwise_eraseReps antisymm_names hsorted).imp
    rintro first second ⟨hle, hne⟩
    exact lt_of_le_of_ne hle fun heq => hne (antisymm_names first second heq.le heq.ge)
  · intro name
    rw [Markdown.names, mem_eraseReps, List.mem_map]
    exact exists_congr fun row => and_congr_left fun _ => hperm.mem_iff
  · intro name
    exact ⟨hperm.filter _, rowsNamed_mergeSort_pairwise name rows, fun hreachable =>
      rowsNamed_mergeSort_strict hreachable hrows name⟩
  · intro perPage
    refine ⟨fun page => entriesOnPage (rows.mergeSort CacheRow.listedBefore) page perPage, ?_, ?_⟩
    · intro page
      rw [listHooks_eq hrows, rowsAdmitted_nil]
    · intro count hmax
      rw [flatMap_entriesOnPage_take _ perPage hmax, List.map_map]
      rfl

/-- The document of four rows, of which two have the same name, has sections for three names. -/
theorem markdown_covers_rows_fourRows :
    ∃ rows, fourRows.allRows = .ok rows ∧ fourRows.IsReachable ∧
      ∃ (listed : List CacheRow) (names : List Text),
        fourRows.markdown .epoch =
          .ok (Text.join (Text.mark '\n') (Markdown.documentLines .epoch listed)) ∧
        (Text.mark 'p' ∈ names ∧ Text.mark 's' ∉ names) ∧
        ((rowsNamed (Text.mark 'p') listed).length = 2 ∧
          (rowsNamed (Text.mark 'p') listed).Pairwise fun row other => row.id < other.id) ∧
        (names.flatMap fun name => rowsNamed name listed) = listed ∧
        ∃ first second : List HookEntry,
          fourRows.listHooks [] ⟨1, 2⟩ = .ok ⟨4, 1, 2, first⟩ ∧
          fourRows.listHooks [] ⟨2, 2⟩ = .ok ⟨4, 2, 2, second⟩ ∧
          ((first ++ second).map fun entry : HookEntry => (entry.id, entry.toHookRecord)) =
            listed.map fun row => (Int.ofNat row.id, row.record) := by
  have hreachable : fourRows.IsReachable :=
    .writes (.createMissingTables .blank) (.insertAll _ none _)
  obtain ⟨listed, names, hdocument, -, hnames, hgroups, -, hrows, hperm, hpages⟩ :=
    @markdown_covers_rows fourRows _ rfl .epoch
  obtain ⟨hsame, -, hstrict⟩ := hgroups (Text.mark 'p')
  obtain ⟨items, hanswers, htaken⟩ := hpages 2
  refine ⟨_, rfl, hreachable, listed, names, hdocument.1, ⟨?_, ?_⟩,
    ⟨hsame.length_eq, hstrict hreachable⟩, hrows, items 1, items 2, hanswers 1, hanswers 2, ?_⟩
  · exact (hnames _).mpr (by decide)
  · exact fun hmem => absurd ((hnames _).mp hmem) (by decide)
  · have htwo : ((items 1 ++ (items 2 ++ [])).map fun entry : HookEntry => (entry.id, entry.toHookRecord)) =
        (listed.take 4).map fun row => (Int.ofNat row.id, row.record) :=
      htaken 2 (by decide)
    have hlength : listed.length = 4 := hperm.length_eq
    rw [← List.append_nil (items 2), htwo, List.take_of_length_le (Nat.le_of_eq hlength)]

end Store

end HookAtlas
