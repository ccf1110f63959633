/-
# Attribution in a site

What a sampler records of a dispatch and what a scan records of the file that the dispatch was fired from bear
the same path, source type and source name.  After a scan whose roots no listener has changed every static row
is attributed to the configured root that owns the visited file, also while records are still queued.

A relative root or file is taken below the root directory, in which the site runs.

The source name is missing where the path of the plugin root or of the theme root is that of a visited file.
-/

import HookAtlas.Proofs.Scan.Attribution
import HookAtlas.Proofs.Site.History
import Mathlib.Data.List.Permutation

namespace HookAtlas

namespace Settings

/-- The configured roots that the options enable, as a scan goes through them. -/
def enabledPaths (settings : Settings) (options : ScanOptions) : List Path :=
  (settings.enabledRoots options).map SourceRoot.path

/-- The files that a scan of the enabled roots visits. -/
def enabledFiles (settings : Settings) (options : ScanOptions) (tree : FileTree) : List Path :=
  tree.visitedFiles settings.sourceExtensions (settings.enabledPaths options)

end Settings

namespace SiteWorld

variable {world : SiteWorld}

/-- Every static row of a store is attributed to the configured root that owns its file, which is one of those
that a scan of the enabled roots visits. -/
def AttributesRows (world : SiteWorld) (options : ScanOptions) (store : Store) : Prop :=
  ∀ rows, store.allRows = .ok rows → ∀ row ∈ rows, Store.isStaticRow row = true →
    row.record.IsAttributed world.settings (world.settings.enabledFiles options world.files)

/-- What a scan of the enabled roots leaves: nothing was written and it has an error, or the static rows are
attributed however far the records of the scan are drained. -/
def LeavesAttributed (before : SiteWorld) (options : ScanOptions) (answer : Except ScanError Nat)
    (after : SiteWorld) : Prop :=
  (∃ error, answer = .error error ∧ after.cache = before.cache) ∨
    ∀ steps : List HookCache.Step, (∀ step ∈ steps, step.isQuiet = true) →
      before.AttributesRows options (HookCache.run steps after.cache).store

/-- A scan of the enabled roots stops before anything is written, or its rows are attributed. -/
theorem leavesAttributed_scanRoots (htree : world.files.IsNamed) (hready : world.IsReady)
    (options : ScanOptions) :
    let scanned := world.scanRoots (world.settings.enabledPaths options)
    world.LeavesAttributed options scanned.1 scanned.2 := by
  rcases hrecords : recordsBelow world.settings world.files world.now
      (world.settings.enabledPaths options) with ⟨error | records, notices⟩
  · rw [scanRoots, hrecords]
    exact .inl ⟨.clock error, rfl, rfl⟩
  right
  intro steps hquiet rows hrows row hmem hrow
  have hfound : (recordsBelow world.settings world.files world.now
      (world.settings.enabledPaths options)).1 = .ok records := by rw [hrecords]
  have hstatic : ∀ record ∈ records, record.detectionMethod = .static := by
    intro record hmem
    obtain ⟨file, -, now, site, rfl⟩ := mem_recordsOfFiles hfound hmem
    rfl
  obtain ⟨old, hold⟩ := hready.hasSchema.cache_eq
  obtain ⟨-, -, hreplaced⟩ := HookCache.replaceStatic_keepsBeside hold hready.hasSchema hready.isFresh
    hstatic (fitsBatches_of_recordsBelow hrecords _) world.clock
  have hkeeps : (world.scanRoots (world.settings.enabledPaths options)).2.cache.store.KeepsBeside
      (old.filter Store.isObservedRow) records (generationName (world.generations + 1)) := by
    refine @scanRoots_keeps (fun after => after.cache.store.KeepsBeside _ records _) world _ ?_ ?_
      fun hkeeps => (recordScanTime_keepsBeside hkeeps).2
    · intro error others hstops
      rw [hrecords] at hstops
      cases hstops
    · intro found others hgoes
      rw [hrecords] at hgoes
      cases hgoes
      exact hreplaced
  have hkept := HookCache.run_keepsBeside hquiet hstatic hkeeps
  obtain ⟨record, hrecord, hstored⟩ := hkept.exists_record hrows hmem hrow
  rw [← hstored]
  exact (isAttributed_of_mem_recordsBelow htree hfound hrecord).stored

end SiteWorld

/-! ## Scans that no listener hears of -/

theorem Value.roots?_ofRoots (roots : List (SourceRoot Text)) :
    (Value.ofRoots roots).roots? = some roots := by
  rw [Value.roots?, Value.ofRoots, Value.members?, Option.bind_some]
  induction roots with
  | nil => rfl
  | cons root roots ih =>
      rw [List.map_cons, List.mapM_cons, ih]
      rfl

/-- Where no listener hears of a scan its roots are the configured ones. -/
theorem Host.announcedRoots_of_unheard {ι : Type} {host : Host ι Value SiteWorld}
    {state : Hosted ι SiteWorld} (hall : state.dispatcher.callOrder Dispatcher.observedByAll = [])
    (hroots : state.dispatcher.callOrder ScanHook.roots = [])
    (hbefore : state.dispatcher.callOrder ScanHook.before = []) (options : ScanOptions) :
    host.announcedRoots options state = some (state.world.settings.enabledPaths options,
      { state with dispatcher := state.dispatcher.countFiring ScanHook.before }) := by
  have hcounted : ∀ hook, (state.dispatcher.countFiring ScanHook.before).callOrder hook =
      state.dispatcher.callOrder hook := fun _ => rfl
  have hpath : SourceRoot.path ∘ SourceRoot.declared = SourceRoot.path := rfl
  simp [announcedRoots, filterRoots, applyFilters, notifyAll, hall, callEach, hroots, passThrough,
    Value.roots?_ofRoots, announceRoots, doAction, hcounted, hbefore, hpath, Settings.enabledPaths]

/-! ## Both ways of finding hooks -/

/-- Whether a file is scanned or a dispatch is attributed to it, the same place is recorded, however the path of
the file is spelled.  What a scan of the enabled roots finds is attributed to configured roots: each record to
the one that owns its file, enabled or not.  So is every static row after a scan whose roots no listener has
changed, however far the records of the scan are drained, unless the scan has stopped before it wrote any.
Relative paths start at the root directory. -/
theorem attribution_of_discovery (settings : Settings) :
    (∀ (tree : FileTree) (clock moment : Except ClockError Timestamp) (file : Path)
      (records : List HookRecord) (sampler : Sampler) (hook : Text) (frames : List StackFrame)
      (line : Option Int) (sample : HookRecord),
      (recordsOfFile settings tree clock file).1 = .ok records →
      sampler.firedFrom? frames = some (file.absolute, line) →
      sampler.recordOf? settings moment hook frames = some sample →
      ∀ record ∈ records, record.place = sample.place) ∧
    (∀ (tree : FileTree) (options : ScanOptions) (clock : Except ClockError Timestamp)
      (records : List HookRecord), tree.IsNamed →
      (recordsBelow settings tree clock (settings.enabledPaths options)).1 = .ok records →
      ∀ record ∈ records, record.IsAttributed settings (settings.enabledFiles options tree)) ∧
    ∀ (ι : Type) (host : Host ι Value SiteWorld) (options : ScanOptions)
      (state announced : Hosted ι SiteWorld),
      host.announcedRoots options state = some (settings.enabledPaths options, announced) →
      announced.world.settings = settings → announced.world.files.IsNamed → announced.world.IsReady →
      ∃ answer after, announced.world.scanRoots (settings.enabledPaths options) = (answer, after) ∧
        announced.world.LeavesAttributed options answer after ∧
        host.scan options state =
          match answer with
          | .error error => some (.error error, { announced with world := after })
          | .ok handled =>
            (host.doAction ScanHook.complete [.int (Int.ofNat handled)] { announced with world := after }).map
              fun (_, state) => (.ok handled, state) := by
  refine ⟨?_, ?_, ?_⟩
  · intro tree clock moment file records sampler hook frames line sample hrecords hfired hsample record hmem
    rw [place_of_mem_recordsOfFile hrecords hmem, Sampler.place_of_recordOf? hfired hsample]
  · intro tree options clock records htree hrecords record hmem
    exact isAttributed_of_mem_recordsBelow htree hrecords hmem
  · intro ι host options state announced hroots hsettings htree hready
    subst hsettings
    have hleaves := SiteWorld.leavesAttributed_scanRoots htree hready options
    have hscan := Host.scan_of_announcedRoots hroots
    rcases hscanned : announced.world.scanRoots (announced.world.settings.enabledPaths options) with
      ⟨error | handled, after⟩
    · rw [hscanned] at hleaves hscan
      exact ⟨.error error, after, rfl, hleaves, hscan⟩
    · rw [hscanned] at hleaves hscan
      exact ⟨.ok handled, after, rfl, hleaves, hscan⟩

namespace Site

/-- Settings by which a plugin is a directory of the core as well. -/
def nestedSettings : Settings :=
  { singleRecordSettings with coreDirs := ["plugins/shop"] }

/-- Only the plugins are scanned. -/
def pluginOptions : ScanOptions :=
  { ScanOptions.standard with scanCore := false, scanThemes := false }

/-- A site with these settings and the files of the plugin, without listeners. -/
def nestedSite : Site where
  dispatcher := Dispatcher.empty
  world := { (pluginSite 0 .empty (.timer none) 1).world with settings := nestedSettings }

/-- The file of the plugin, by a path with a detour. -/
def shopFile : Path :=
  Path.ofText "/site/plugins/../plugins/shop/shop.php"

/-- A dispatch from that file, by a path with another detour. -/
def shopFrames : List StackFrame :=
  [⟨.machinery, none⟩, ⟨.file "/site//plugins/./shop/shop.php", some 1⟩]

/-- The call in the file of the plugin. -/
def openCall : Php.CallSite :=
  ⟨"do_action", "open", .action, 1⟩

/-- The record of that call. -/
def openRecord (file : Path) : HookRecord :=
  recordOfSite nestedSettings file .epoch openCall

/-- A sampler for that dispatch. -/
def shopSampler : Sampler :=
  .ofOptions .standard [] []

/-- What it records of the dispatch. -/
def openSample : HookRecord :=
  .observed "open" .unknown (some (nestedSettings.recordedPath shopFile.absolute)) (some 1)
    (nestedSettings.classifier.classify shopFile.absolute) .runtime .epoch

theorem firedFrom?_shopFrames : shopSampler.firedFrom? shopFrames = some (shopFile.absolute, some 1) := by
  cbv

theorem recordOf?_shopFrames :
    shopSampler.recordOf? nestedSettings (.ok .epoch) "open" shopFrames = some openSample := by
  rw [Sampler.recordOf?.eq_def, firedFrom?_shopFrames]
  rfl

theorem isNamed_pluginFiles : pluginFiles.IsNamed :=
  .singleton (by decide) (.singleton (by decide) (.singleton (by decide)
    (.singleton (by decide) (.file _))))

theorem isReady_nestedSite : nestedSite.world.IsReady where
  hasSchema := HookCache.hasSchema_emptyCache
  isFresh := HookCache.isFresh_emptyCache _
  isDraining_eq := rfl

theorem announcedRoots_nestedSite : Site.host.announcedRoots pluginOptions nestedSite =
    some (nestedSettings.enabledPaths pluginOptions,
      { nestedSite with dispatcher := nestedSite.dispatcher.countFiring ScanHook.before }) := by
  have hnone (hook : Text) : nestedSite.dispatcher.callOrder hook = [] := by
    simp [Dispatcher.callOrder, Dispatcher.byPriority, nestedSite, Dispatcher.empty, Dispatcher.valueOf?]
  exact Host.announcedRoots_of_unheard (hnone _) (hnone _) (hnone _) pluginOptions

/-- The file of the plugin is scanned and a dispatch is attributed to it, by two spellings of its path, and the
plugins are scanned while the directory of the core is not. -/
theorem attribution_of_discovery_nestedSite :
    pluginFiles.IsNamed ∧ nestedSite.world.IsReady ∧
      ((recordsOfFile nestedSettings pluginFiles (.ok .epoch) shopFile).1 = .ok [openRecord shopFile] ∧
        shopSampler.firedFrom? shopFrames = some (shopFile.absolute, some 1) ∧
        shopSampler.recordOf? nestedSettings (.ok .epoch) "open" shopFrames = some openSample ∧
        (openRecord shopFile).place = openSample.place) ∧
      ((recordsBelow nestedSettings pluginFiles (.ok .epoch)
          (nestedSettings.enabledPaths pluginOptions)).1 = .ok [openRecord shopFile.absolute] ∧
        (openRecord shopFile.absolute).IsAttributed nestedSettings
          (nestedSettings.enabledFiles pluginOptions pluginFiles)) ∧
      ∃ announced answer after,
        Site.host.announcedRoots pluginOptions nestedSite =
          some (nestedSettings.enabledPaths pluginOptions, announced) ∧
        announced.world.scanRoots (nestedSettings.enabledPaths pluginOptions) = (answer, after) ∧
        announced.world.LeavesAttributed pluginOptions answer after := by
  obtain ⟨hplace, hscan, hrows⟩ := attribution_of_discovery nestedSettings
  refine ⟨isNamed_pluginFiles, isReady_nestedSite, ?_, ?_, ?_⟩
  · have hfile : (recordsOfFile nestedSettings pluginFiles (.ok .epoch) shopFile).1 =
        .ok [openRecord shopFile] := by cbv
    exact ⟨hfile, firedFrom?_shopFrames, recordOf?_shopFrames,
      hplace _ _ _ _ _ _ _ _ _ _ hfile firedFrom?_shopFrames recordOf?_shopFrames _ List.mem_cons_self⟩
  · have hfound : (recordsBelow nestedSettings pluginFiles (.ok .epoch)
        (nestedSettings.enabledPaths pluginOptions)).1 = .ok [openRecord shopFile.absolute] := by cbv
    exact ⟨hfound, hscan _ _ _ _ isNamed_pluginFiles hfound _ List.mem_cons_self⟩
  · obtain ⟨answer, after, hscanned, hleaves, -⟩ := hrows ListenerId _ _ _ _ announcedRoots_nestedSite rfl
      isNamed_pluginFiles isReady_nestedSite
    exact ⟨_, answer, after, announcedRoots_nestedSite, hscanned, hleaves⟩

/-! ## A file without a source name -/

/-- Settings by which the root of the plugins is a file of the core. -/
def fileRootSettings : Settings :=
  { singleRecordSettings with coreDirs := ["wp-includes"], pluginDir := Path.ofText "wp-includes/plugin.php" }

/-- That file. -/
def fileRootFiles : FileTree :=
  ⟨[("site", .directory [("wp-includes", .directory [
    ("plugin.php", .file ⟨"<?php\ndo_action('init');\n".toList.map Char.toNat, by decide⟩)])])]⟩

/-- The record of a scan of the core is attributed to the plugins there, and to none of them by name. -/
theorem exists_record_without_sourceName :
    ∃ record, (recordsBelow fileRootSettings fileRootFiles (.ok .epoch)
        (fileRootSettings.enabledPaths .standard)).1 = .ok [record] ∧
      record.sourceType = .plugin ∧ record.sourceName.text = [] := by
  refine ⟨recordOfSite fileRootSettings (Path.ofText "/site/wp-includes/plugin.php") .epoch
    ⟨"do_action", "init", .action, 2⟩, ?_, ?_, ?_⟩
  · cbv
  · cbv
  · cbv

end Site

end HookAtlas
