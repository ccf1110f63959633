/-
# The records of a scan are its call sites

While the clock shows a time, a scan finds one record for each call site in the source files below its roots,
in order.  The clock is visible in the moments of the records only: without them the records are a function of
the settings, the files and the roots.
-/

import HookAtlas.Scan.Visit
import HookAtlas.Store.Basic

namespace HookAtlas

/-- A record without its moments. -/
def HookRecord.undated (record : HookRecord) : HookRecord :=
  { record with firstSeen := .epoch, lastSeen := .epoch }

/-- The call sites in a source file; none where the file cannot be read. -/
def callSitesOfFile (settings : Settings) (tree : FileTree) (file : Path) : List Php.CallSite :=
  match tree.readFile? file with
  | none => []
  | some bytes => Php.callSites settings.callees (Php.tokenize (SourceText.ofBytes bytes))

/-- The call sites in some source files, each with its file. -/
def callSitesOfFiles (settings : Settings) (tree : FileTree) (files : List Path) :
    List (Path × Php.CallSite) :=
  files.flatMap fun file => (callSitesOfFile settings tree file).map (Prod.mk file)

/-- The call sites below some roots, each with its file. -/
def callSitesBelow (settings : Settings) (tree : FileTree) (roots : List Path) :
    List (Path × Php.CallSite) :=
  callSitesOfFiles settings tree (tree.visitedFiles settings.sourceExtensions roots)

/-- The record of a call site that was found in a file. -/
def recordOfFound (settings : Settings) (now : Timestamp) (found : Path × Php.CallSite) : HookRecord :=
  recordOfSite settings found.1 now found.2

variable {settings : Settings} {tree : FileTree} {now : Timestamp}

/-- What is stored of the records of a scan does not depend on its time, except for the moments. -/
theorem undated_filter_isStorable (settings : Settings) (now : Timestamp)
    (found : List (Path × Php.CallSite)) :
    ((found.map (recordOfFound settings now)).filter Store.isStorable).map HookRecord.undated =
      (found.map (recordOfFound settings .epoch)).filter Store.isStorable := by
  have hundated : found.map (recordOfFound settings .epoch) =
      (found.map (recordOfFound settings now)).map HookRecord.undated := by
    rw [List.map_map]
    rfl
  rw [hundated, List.filter_map (l := found.map (recordOfFound settings now))]
  rfl

theorem detectionMethod_of_mem {found : List (Path × Php.CallSite)} {record : HookRecord}
    (hmem : record ∈ found.map (recordOfFound settings now)) : record.detectionMethod = .static := by
  obtain ⟨site, -, rfl⟩ := List.mem_map.mp hmem
  rfl

theorem recordsOfFile_of_clock (settings : Settings) (tree : FileTree) (now : Timestamp) (file : Path) :
    (recordsOfFile settings tree (.ok now) file).1 =
      .ok ((callSitesOfFile settings tree file).map (recordOfSite settings file now)) := by
  rw [recordsOfFile, callSitesOfFile]
  cases tree.readFile? file with
  | none => rfl
  | some bytes =>
      dsimp only
      rw [recordsOfSource]
      split
      · next hnone =>
          rw [hnone]
          rfl
      · rfl

theorem recordsOfFiles_of_clock (settings : Settings) (tree : FileTree) (now : Timestamp)
    (files : List Path) :
    (recordsOfFiles settings tree (.ok now) files).1 =
      .ok ((callSitesOfFiles settings tree files).map (recordOfFound settings now)) := by
  induction files with
  | nil => rfl
  | cons file files ih =>
      have hfile := recordsOfFile_of_clock settings tree now file
      rw [recordsOfFiles]
      split
      · next hrecords =>
          rw [hrecords] at hfile
          cases hfile
      · next hrecords =>
          rw [hrecords] at hfile
          cases hfile
          have hfound : callSitesOfFiles settings tree (file :: files) =
              (callSitesOfFile settings tree file).map (Prod.mk file) ++
                callSitesOfFiles settings tree files := List.flatMap_cons
          dsimp only
          rw [ih, hfound, List.map_append, List.map_map]
          rfl

/-- The records below some roots are those of the call sites below them. -/
theorem recordsBelow_of_clock (settings : Settings) (tree : FileTree) (now : Timestamp)
    (roots : List Path) :
    (recordsBelow settings tree (.ok now) roots).1 =
      .ok ((callSitesBelow settings tree roots).map (recordOfFound settings now)) :=
  recordsOfFiles_of_clock settings tree now _

/-- A clock that shows a moment shows whole seconds. -/
theorem Clock.wholeSeconds_of_now {clock : Float} (hnow : Clock.now clock = .ok now) :
    ∃ seconds, Clock.wholeSeconds clock = .ok seconds := by
  rw [Clock.now] at hnow
  rw [Clock.wholeSeconds]
  split at hnow
  · cases hnow
  · next seconds _ =>
      exact ⟨seconds, rfl⟩

end HookAtlas
