/-
# What the records of a file say of it

A scan and a sampler attribute a file by the same classifier, the one from the path on which it came upon the
file, the other from the absolute path of a stack frame.  The place that they record is the same.

A relative path is one of a site that runs in the root directory; a site that runs elsewhere is one whose paths
have its working directory in front.

Below configured roots a scan finds no file that is not owned by a configured root, though perhaps by one that
it was not asked to scan.  What is left of the path below the owner names the source, so the name is missing
only where nothing is left: the root of the plugins or of the themes is itself the visited file.
-/

import HookAtlas.Capture.Sampler
import HookAtlas.Proofs.Files.Walk
import HookAtlas.Proofs.Scan.Records
import HookAtlas.Proofs.Source.Ownership
import HookAtlas.Proofs.Text.Utf8

namespace HookAtlas

/-- Where a record was found and what it is attributed to. -/
def HookRecord.place (record : HookRecord) : Option ScalarText × SourceType × ScalarText :=
  (record.filePath, record.sourceType, record.sourceName)

/-- A record is attributed to a root that owns its file.  The parts are those of the file below the root. -/
structure HookRecord.AttributedTo (settings : Settings) (file : Path) (root : SourceRoot SourceType)
    (parts : List Text) (record : HookRecord) : Prop where
  owns : root.Owns settings.sourceRoots file parts
  filePath_eq : record.filePath = some (.ofText (settings.recordedPath file))
  sourceType_eq : record.sourceType = root.category
  sourceType_name_ne : record.sourceType.name ≠ []
  sourceName_eq : record.sourceName = .ofText (root.nameBelow parts)
  /-- Only a file that is itself the root of the plugins or of the themes has no source name. -/
  sourceName_eq_nil_iff : record.sourceName.text = [] ↔ root.category ≠ .core ∧ root.path = file

/-- A record is attributed to the root that owns its file, which is one of some files. -/
def HookRecord.IsAttributed (settings : Settings) (files : List Path) (record : HookRecord) : Prop :=
  ∃ file ∈ files, ∃ root parts, record.AttributedTo settings file root parts

theorem HookRecord.IsAttributed.stored {settings : Settings} {files : List Path} {record : HookRecord}
    (hattributed : record.IsAttributed settings files) : record.stored.IsAttributed settings files := by
  obtain ⟨file, hfile, root, parts, hroot⟩ := hattributed
  exact ⟨file, hfile, root, parts, hroot.owns, hroot.filePath_eq, hroot.sourceType_eq, hroot.sourceType_name_ne,
    hroot.sourceName_eq, hroot.sourceName_eq_nil_iff⟩

namespace SourceRoot

variable {root other : SourceRoot SourceType} {file : Path} {parts names : List Text}

/-- A root gives no name to a file only if it has none and nothing is left of the path of the file. -/
theorem nameBelow_eq_nil_iff (hnames : ∀ part ∈ parts, Path.IsName part) :
    root.nameBelow parts = [] ↔ root.sourceName = [] ∧ parts = [] := by
  rw [nameBelow]
  split
  · next hfixed => simp [hfixed]
  · next hfree =>
      cases parts with
      | nil => simpa using hfree
      | cons part parts => simp [(hnames part List.mem_cons_self).ne_nil]

/-- A configured root is absolute and of a known category, and only those of the core have a fixed name. -/
structure IsConfigured (root : SourceRoot SourceType) : Prop where
  isAbsolute : root.path.IsAbsolute
  category_name_ne : root.category.name ≠ []
  sourceName_eq_nil_iff : root.sourceName = [] ↔ root.category ≠ .core

/-- A root contains what is reached from it. -/
theorem IsConfigured.partsOf?_of_liesBelow (hroot : root.IsConfigured)
    (hbelow : root.path.LiesBelow file) :
    ∃ names, root.partsOf? file = some names ∧ (∀ name ∈ names, Path.IsName name) ∧
      file.parts = root.path.parts ++ names := by
  have hfile := (hbelow.isAbsolute hroot.isAbsolute).absolute_eq
  obtain ⟨names, -, hnames, rfl⟩ := hbelow
  refine ⟨names, ?_, hnames, rfl⟩
  rw [partsOf?, hfile, hroot.isAbsolute.absolute_eq]
  exact Path.below?_eq_some_iff.mpr ⟨rfl, rfl⟩

/-- Of two roots that contain a file the deeper one leaves the shorter rest of the path. -/
theorem IsConfigured.parts_suffix (hroot : root.IsConfigured) (hother : other.IsConfigured)
    (hdepth : other.depth ≤ root.depth) (hparts : file.parts = root.path.parts ++ parts)
    (hnames : file.parts = other.path.parts ++ names) : parts <:+ names := by
  rw [depth, depth, hroot.isAbsolute.absolute_eq, hother.isAbsolute.absolute_eq, Path.partCount,
    Path.partCount, if_neg hroot.isAbsolute.anchor_ne, if_neg hother.isAbsolute.anchor_ne,
    Nat.add_le_add_iff_right] at hdepth
  have hlength : parts.length ≤ names.length := by
    have hsame := congrArg List.length (hparts.symm.trans hnames)
    rw [List.length_append, List.length_append] at hsame
    omega
  exact List.suffix_of_suffix_length_le ⟨_, hparts.symm⟩ ⟨_, hnames.symm⟩ hlength

end SourceRoot

namespace Settings

variable {settings : Settings} {options : ScanOptions} {tree : FileTree} {endings : List Text}
  {root : SourceRoot SourceType} {file : Path} {parts : List Text}

/-- The place that is recorded for a file. -/
def placeOf (settings : Settings) (file : Path) : Option ScalarText × SourceType × ScalarText :=
  let attribution := settings.classifier.classify file
  (some (.ofText (settings.recordedPath file)), attribution.sourceType, .ofText attribution.sourceName)

theorem placeOf_absolute (settings : Settings) (file : Path) :
    settings.placeOf file.absolute = settings.placeOf file := by
  rw [placeOf, placeOf, SourceClassifier.classify_absolute, recordedPath, recordedPath,
    Path.relativeTo_absolute]

/-! ## Configured roots -/

theorem isConfigured_of_mem (hmem : root ∈ settings.sourceRoots) : root.IsConfigured := by
  rw [sourceRoots, List.mem_append, List.mem_append, List.mem_singleton, List.mem_singleton] at hmem
  rcases hmem with (hcore | rfl) | rfl
  · obtain ⟨directory, -, rfl⟩ := List.mem_map.mp hcore
    have hfixed : SourceRoot.coreName ≠ [] := List.cons_ne_nil _ _
    exact ⟨Path.isAbsolute_absolute _, List.cons_ne_nil _ _, by simp [hfixed]⟩
  · exact ⟨Path.isAbsolute_absolute _, List.cons_ne_nil _ _, by simp [pluginRoot]⟩
  · exact ⟨Path.isAbsolute_absolute _, List.cons_ne_nil _ _, by simp [themeRoot]⟩

theorem mem_sourceRoots_of_enabled (hmem : root ∈ settings.enabledRoots options) :
    root ∈ settings.sourceRoots := by
  simp only [enabledRoots, sourceRoots, List.mem_append] at hmem ⊢
  rcases hmem with (hcore | hplugin) | htheme
  · split at hcore
    · exact .inl (.inl hcore)
    · cases hcore
  · split at hplugin
    · exact .inl (.inr hplugin)
    · cases hplugin
  · split at htheme
    · exact .inr htheme
    · cases htheme

/-! ## Files below configured roots -/

/-- A file that is reached from an enabled root is owned by a configured one, and what is left of its path below
the owner are names of entries. -/
theorem exists_owner (henabled : ∃ root ∈ (settings.enabledRoots options).map SourceRoot.path,
      root.LiesBelow file) :
    ∃ root parts, settings.classifier.rootOf? file = some (root, parts) ∧
      root.Owns settings.sourceRoots file parts ∧ (∀ part ∈ parts, Path.IsName part) ∧
      (parts = [] ↔ root.path = file) := by
  obtain ⟨_, hpath, hbelow⟩ := henabled
  obtain ⟨scanned, henabled, rfl⟩ := List.mem_map.mp hpath
  have hscanned := isConfigured_of_mem (mem_sourceRoots_of_enabled henabled)
  obtain ⟨names, hcontains, hnames, hfile⟩ := hscanned.partsOf?_of_liesBelow hbelow
  obtain ⟨root, parts, hfound⟩ :=
    SourceClassifier.exists_rootOf? (mem_sourceRoots_of_enabled henabled) hcontains
  have howns := SourceClassifier.owns_of_rootOf? hfound
  have hroot := isConfigured_of_mem howns.mem
  have habsolute := (hbelow.isAbsolute hscanned.isAbsolute).absolute_eq
  have hbelow : Path.below? root.path file = some parts := by
    rw [← howns.partsOf?_eq, SourceRoot.partsOf?, habsolute, hroot.isAbsolute.absolute_eq]
  refine ⟨root, parts, hfound, howns, fun part hmem => ?_, ?_⟩
  · have hdepth := howns.depth_le scanned (mem_sourceRoots_of_enabled henabled) (by rw [hcontains]; rfl)
    have hparts := (Path.below?_eq_some_iff.mp hbelow).2
    exact hnames part ((hroot.parts_suffix hscanned hdepth hparts hfile).subset hmem)
  · rw [← Path.below?_eq_some_nil_iff, hbelow, Option.some.injEq]

end Settings

section Records

variable {settings : Settings} {tree : FileTree} {clock : Except ClockError Timestamp} {file : Path}
  {records : List HookRecord} {record : HookRecord}

/-! ## Both ways of finding hooks -/

theorem mem_recordsOfFile (hrecords : (recordsOfFile settings tree clock file).1 = .ok records)
    (hmem : record ∈ records) : ∃ now site, record = recordOfSite settings file now site := by
  rw [recordsOfFile] at hrecords
  split at hrecords
  · cases hrecords
    cases hmem
  · dsimp only at hrecords
    rw [recordsOfSource] at hrecords
    split at hrecords
    · cases hrecords
      cases hmem
    · cases clock with
      | error error => cases hrecords
      | ok now =>
          cases hrecords
          obtain ⟨site, -, rfl⟩ := List.mem_map.mp hmem
          exact ⟨now, site, rfl⟩

/-- What is found in a file is recorded with the place of the file. -/
theorem place_of_mem_recordsOfFile (hrecords : (recordsOfFile settings tree clock file).1 = .ok records)
    (hmem : record ∈ records) : record.place = settings.placeOf file := by
  obtain ⟨now, site, rfl⟩ := mem_recordsOfFile hrecords hmem
  rfl

/-- What a sampler observes is recorded with the place of the file that it is attributed to. -/
theorem Sampler.place_of_recordOf? {sampler : Sampler} {hook : Text} {frames : List StackFrame}
    {line : Option Int} (hfired : sampler.firedFrom? frames = some (file.absolute, line))
    (hrecord : sampler.recordOf? settings clock hook frames = some record) :
    record.place = settings.placeOf file := by
  rw [recordOf?.eq_def, hfired] at hrecord
  cases clock with
  | error error => cases hrecord
  | ok now =>
      obtain ⟨-, hrecord⟩ := Option.ite_none_right_eq_some.mp hrecord
      rw [← settings.placeOf_absolute file, ← Option.some.inj hrecord]
      rfl

/-! ## The records of a scan -/

theorem mem_recordsOfFiles {files : List Path}
    (hrecords : (recordsOfFiles settings tree clock files).1 = .ok records) (hmem : record ∈ records) :
    ∃ file ∈ files, ∃ now site, record = recordOfSite settings file now site := by
  induction files generalizing records with
  | nil =>
      cases hrecords
      cases hmem
  | cons file files ih =>
      rw [recordsOfFiles] at hrecords
      split at hrecords
      · cases hrecords
      · next found notices hfile =>
          dsimp only at hrecords
          cases hmore : (recordsOfFiles settings tree clock files).1 with
          | error error =>
              rw [hmore] at hrecords
              cases hrecords
          | ok more =>
              rw [hmore] at hrecords
              cases hrecords
              rcases List.mem_append.mp hmem with hmem | hmem
              · have hfound : (recordsOfFile settings tree clock file).1 = .ok found := by rw [hfile]
                exact ⟨file, List.mem_cons_self, mem_recordsOfFile hfound hmem⟩
              · obtain ⟨other, hother, hsite⟩ := ih hmore hmem
                exact ⟨other, List.mem_cons_of_mem file hother, hsite⟩

/-- The record of a call site below an enabled root is attributed to the configured root that owns its file. -/
theorem exists_attributedTo {options : ScanOptions}
    (henabled : ∃ root ∈ (settings.enabledRoots options).map SourceRoot.path, root.LiesBelow file)
    (now : Timestamp) (site : Php.CallSite) :
    ∃ root parts, (recordOfSite settings file now site).AttributedTo settings file root parts := by
  obtain ⟨root, parts, hfound, howns, hnames, hrest⟩ := Settings.exists_owner henabled
  have hroot := Settings.isConfigured_of_mem howns.mem
  have hclassify : settings.classifier.classify file = ⟨root.category, root.nameBelow parts⟩ := by
    rw [SourceClassifier.classify, hfound]
  have htype : (recordOfSite settings file now site).sourceType = root.category :=
    congrArg Attribution.sourceType hclassify
  have hname : (recordOfSite settings file now site).sourceName = .ofText (root.nameBelow parts) :=
    congrArg (ScalarText.ofText ∘ Attribution.sourceName) hclassify
  refine ⟨root, parts, howns, rfl, htype, ?_, hname, ?_⟩
  · rw [htype]
    exact hroot.category_name_ne
  · rw [hname, ← hroot.sourceName_eq_nil_iff, ← hrest, ← SourceRoot.nameBelow_eq_nil_iff hnames]
    exact Text.scrub_eq_nil_iff

/-- Every record of a scan of enabled roots is attributed to the configured root that owns the visited file. -/
theorem isAttributed_of_mem_recordsBelow {options : ScanOptions} (htree : tree.IsNamed)
    (hrecords : (recordsBelow settings tree clock
      ((settings.enabledRoots options).map SourceRoot.path)).1 = .ok records) (hmem : record ∈ records) :
    record.IsAttributed settings (tree.visitedFiles settings.sourceExtensions
      ((settings.enabledRoots options).map SourceRoot.path)) := by
  obtain ⟨file, hfile, now, site, rfl⟩ := mem_recordsOfFiles hrecords hmem
  exact ⟨file, hfile, exists_attributedTo (FileTree.liesBelow_of_mem_visitedFiles htree hfile) now site⟩

end Records

end HookAtlas
