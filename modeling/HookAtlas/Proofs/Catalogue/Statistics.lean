/-
# Statistics and listings agree

Statistics group all rows by a column and count the groups, and a listing counts the rows that a filter accepts.
Counting the groups is counting the names in the column, each name once: a name that is asked for by a filter
has as many rows as its group, and a name without group has none.  The groups make up all rows.

Where the source of a row is unknown its name is empty, and a filter takes an empty name for no filter.  So that
group has no listing of its own, and the statements about single names leave it out; the sums hold with it.
-/

import HookAtlas.Proofs.Cache.Failures
import HookAtlas.Proofs.Catalogue.Pagination
import HookAtlas.Proofs.Catalogue.ScanTime
import HookAtlas.Proofs.Grouping

namespace HookAtlas

/-! ## Counting groups -/

/-- The count of a name; zero where the name is not counted. -/
def countUnder (counts : List (Text × Nat)) (name : Text) : Nat :=
  (counts.lookup name).getD 0

namespace Store

theorem pairwise_mergeSort_le (names : List Text) :
    (names.mergeSort Text.le).Pairwise fun first second =>
      first.map CodePoint.val ≤ second.map CodePoint.val := by
  have htrans : ∀ first second third : Text, Text.le first second = true →
      Text.le second third = true → Text.le first third = true := by
    intro first second third hfirst hsecond
    rw [Text.le_iff] at hfirst hsecond ⊢
    exact hfirst.trans hsecond
  have htotal : ∀ first second : Text, (Text.le first second || Text.le second first) = true := by
    intro first second
    rw [Bool.or_eq_true, Text.le_iff, Text.le_iff]
    exact le_total _ _
  apply (List.pairwise_mergeSort htrans htotal names).imp
  intro first second hle
  exact (Text.le_iff first second).mp hle

theorem map_fst_countsOf (names : List Text) :
    (countsOf names).map Prod.fst = (names.mergeSort Text.le).eraseReps := by
  rw [countsOf, List.map_map]
  exact List.map_id _

/-- Every name is counted once. -/
theorem nodup_countsOf (names : List Text) : ((countsOf names).map Prod.fst).Nodup := by
  rw [map_fst_countsOf]
  exact (pairwise_eraseReps antisymm_names (pairwise_mergeSort_le names)).imp And.right

/-- What is counted under a name is how often it occurs. -/
theorem countUnder_countsOf (names : List Text) (name : Text) :
    countUnder (countsOf names) name = names.count name := by
  have hlookup (keys : List Text) :
      (keys.map fun key => (key, names.count key)).lookup name =
        if name ∈ keys then some (names.count name) else none := by
    induction keys with
    | nil => rfl
    | cons key keys ih =>
        rw [List.map_cons, List.lookup_cons, ih]
        by_cases hsame : name = key
        · rw [hsame, beq_self_eq_true, if_pos List.mem_cons_self]
        · rw [beq_false_of_ne hsame]
          simp [hsame]
  have hmem : name ∈ (names.mergeSort Text.le).eraseReps ↔ name ∈ names := by
    rw [mem_eraseReps, List.mem_mergeSort]
  rw [countUnder, countsOf, hlookup]
  split
  · rfl
  · next habsent => exact (List.count_eq_zero_of_not_mem (mt hmem.mpr habsent)).symm

/-- No group is empty. -/
theorem pos_of_mem_countsOf {names : List Text} {entry : Text × Nat} (hmem : entry ∈ countsOf names) :
    0 < entry.2 := by
  rw [countsOf, List.mem_map] at hmem
  obtain ⟨name, hname, rfl⟩ := hmem
  rw [mem_eraseReps, List.mem_mergeSort] at hname
  exact List.count_pos_iff.mpr hname

/-- The groups make up the list. -/
theorem sum_countsOf (names : List Text) : ((countsOf names).map Prod.snd).sum = names.length := by
  -- The groups of the sorted names in a row are the sorted names, which are as many as the names.
  have hsorted := pairwise_mergeSort_le names
  rw [← List.map_id (names.mergeSort Text.le)] at hsorted
  have hgroups := flatMap_filter_eraseReps antisymm_names id hsorted
  have hlength := congrArg List.length hgroups
  rw [List.length_flatMap, List.length_mergeSort, List.map_id] at hlength
  rw [← hlength, countsOf, List.map_map]
  refine congrArg List.sum (List.map_congr_left fun name _ => ?_)
  show names.count name = ((names.mergeSort Text.le).filter fun other => id other = name).length
  rw [← (List.mergeSort_perm names Text.le).count_eq name, List.count_eq_length_filter]
  exact congrArg List.length (List.filter_congr fun other _ => beq_eq_decide other name)

end Store

/-! ## Listings of one name -/

/-- What a listing is asked for: rows of a type and of a part of the site, and nothing else. -/
def restrictedTo (hookType sourceType : Option Text) : List FilterRequest :=
  [.search none, .column .hookType hookType, .column .sourceType sourceType, .column .detectionMethod none]

namespace Store

variable {store before after : Store} {rows : List CacheRow}

/-- The number of rows that a listing reports. -/
def listedTotal (requests : List FilterRequest) (request : PageRequest) (store : Store) :
    Except StoreError Nat :=
  (store.listHooks requests request).map HookPage.total

theorem listedTotal_eq (hrows : store.allRows = .ok rows) (requests : List FilterRequest)
    (request : PageRequest) :
    store.listedTotal requests request = .ok (rowsAdmitted requests rows).length := by
  rw [listedTotal, listHooks_eq hrows requests request.page request.perPage]
  rfl

theorem rowsAdmitted_none (rows : List CacheRow) : rowsAdmitted (restrictedTo none none) rows = rows :=
  List.filter_eq_self.mpr fun _ _ => rfl

/-- Rows that are only asked for a name in a column are as many as the group of that name holds. -/
theorem length_rowsAdmitted_of_admits {requests : List FilterRequest} (column : FilterColumn) (name : Text)
    (hadmits : ∀ subject : FilterSubject,
      (requests.all fun request => request.admits subject) = decide (subject.value column = name))
    (rows : List CacheRow) :
    (rowsAdmitted requests rows).length =
      countUnder (countsOf (rows.map fun row => row.subject.value column)) name := by
  rw [countUnder_countsOf, List.count_eq_countP, List.countP_map, List.countP_eq_length_filter]
  refine congrArg List.length (List.filter_congr fun row _ => ?_)
  rw [hadmits, Function.comp_apply, beq_eq_decide]

theorem length_rowsAdmitted_hookType {name : Text} (hname : name ≠ []) (rows : List CacheRow) :
    (rowsAdmitted (restrictedTo (some name) none) rows).length =
      countUnder (countsOf (rows.map fun row => row.record.hookType.name)) name :=
  length_rowsAdmitted_of_admits .hookType name
    (fun subject => by simp [restrictedTo, FilterRequest.admits, hname]) rows

theorem length_rowsAdmitted_sourceType {name : Text} (hname : name ≠ []) (rows : List CacheRow) :
    (rowsAdmitted (restrictedTo none (some name)) rows).length =
      countUnder (countsOf (rows.map fun row => row.record.sourceType.name)) name :=
  length_rowsAdmitted_of_admits .sourceType name
    (fun subject => by simp [restrictedTo, FilterRequest.admits, hname]) rows

end Store

/-! ## Statistics of a store -/

/-- Statistics say of a store what its listings say. -/
structure HookStats.AgreesWith (stats : HookStats) (store : Store) : Prop where
  /-- A listing without restriction reports the number of all rows. -/
  total : ∀ request, store.listedTotal (restrictedTo none none) request = .ok stats.total
  /-- The types make up all rows. -/
  sum_byType : (stats.byType.map Prod.snd).sum = stats.total
  /-- The parts of the site make up all rows. -/
  sum_bySource : (stats.bySource.map Prod.snd).sum = stats.total
  /-- A listing of a type reports as many rows as are counted of it. -/
  byType : ∀ (hookType : HookType) request,
    store.listedTotal (restrictedTo (some hookType.name) none) request =
      .ok (countUnder stats.byType hookType.name)
  /-- A listing of a part of the site reports as many rows as are counted of it. -/
  bySource : ∀ name, name ≠ [] → ∀ request,
    store.listedTotal (restrictedTo none (some name)) request = .ok (countUnder stats.bySource name)
  /-- Nothing is counted twice. -/
  nodup : (stats.byType.map Prod.fst).Nodup ∧ (stats.bySource.map Prod.fst).Nodup
  /-- What has no rows is not counted. -/
  pos : ∀ entry ∈ stats.byType ++ stats.bySource, 0 < entry.2

namespace Store

variable {store before after : Store} {rows : List CacheRow}

theorem stats_eq_ok {stats : HookStats} (hstats : store.stats = .ok stats) :
    ∃ rows, store.allRows = .ok rows ∧ stats.total = rows.length ∧
      stats.byType = countsOf (rows.map fun row => row.record.hookType.name) ∧
      stats.bySource = countsOf (rows.map fun row => row.record.sourceType.name) := by
  rw [Store.stats] at hstats
  split at hstats
  · cases hstats
  · next rows hrows =>
      split at hstats
      · cases hstats
      · next value _ =>
          cases htime : scanTimeOf value with
          | error error =>
              rw [htime] at hstats
              cases hstats
          | ok lastScan =>
              rw [htime] at hstats
              cases hstats
              exact ⟨rows, hrows, rfl, rfl, rfl⟩

/-- Statistics that are given agree with the listings of the same store. -/
theorem agreesWith_of_stats {stats : HookStats} (hstats : store.stats = .ok stats) :
    stats.AgreesWith store := by
  obtain ⟨rows, hrows, htotal, htypes, hsources⟩ := stats_eq_ok hstats
  constructor
  · intro request
    rw [listedTotal_eq hrows, rowsAdmitted_none, htotal]
  · rw [htypes, sum_countsOf, List.length_map, htotal]
  · rw [hsources, sum_countsOf, List.length_map, htotal]
  · intro hookType request
    have hname : hookType.name ≠ [] := by
      cases hookType with
      | action | filter | unknown => exact List.cons_ne_nil _ _
    rw [listedTotal_eq hrows, length_rowsAdmitted_hookType hname, htypes]
  · intro name hname request
    rw [listedTotal_eq hrows, length_rowsAdmitted_sourceType hname, hsources]
  · rw [htypes, hsources]
    exact ⟨nodup_countsOf _, nodup_countsOf _⟩
  · intro entry hmem
    rw [htypes, hsources] at hmem
    rcases List.mem_append.mp hmem with hmem | hmem
    · exact pos_of_mem_countsOf hmem
    · exact pos_of_mem_countsOf hmem

/-! ## When statistics are given -/

/-- The rows can be counted, and the time of the last scan can be read. -/
structure IsCountable (store : Store) : Prop where
  cache_eq : ∃ rows, store.cache = some rows
  lastScan_eq : ∃ value lastScan,
    store.getOption lastScanOption (some (Text.mark '0')) = .ok value ∧ scanTimeOf value = .ok lastScan

theorem IsCountable.exists_stats (hcountable : store.IsCountable) : ∃ stats, store.stats = .ok stats := by
  obtain ⟨rows, hcache⟩ := hcountable.cache_eq
  obtain ⟨value, lastScan, hvalue, htime⟩ := hcountable.lastScan_eq
  rw [Store.stats, allRows, hcache]
  dsimp only
  rw [hvalue]
  dsimp only
  rw [htime]
  exact ⟨_, rfl⟩

theorem getOption_setOption_of_ne {name other : Text} (hother : name ≠ other) (value default : Option Text)
    (store : Store) :
    (store.setOption name value).2.getOption other default = store.getOption other default := by
  rw [Store.setOption]
  split
  · rfl
  · next options hoptions =>
      rw [getOption, getOption, hoptions]
      dsimp only
      rw [find?_putOption_of_ne hother]

/-- The write path sets no option but the valid generation. -/
theorem WritesRecords.getOption_eq (hwrites : WritesRecords before after) {name : Text}
    (hname : generationOption ≠ name) (default : Option Text) :
    after.getOption name default = before.getOption name default := by
  induction hwrites with
  | refl store => rfl
  | trans _ _ hfirst hsecond => rw [hsecond, hfirst]
  | insertAll records generation store =>
      apply getOption_of_eq
      unfold Store.insertAll
      grind
  | insertRow record generation store =>
      apply getOption_of_eq
      unfold Store.insertRow
      grind
  | deleteStatic store =>
      apply getOption_of_eq
      unfold Store.deleteStatic
      grind
  | enqueue generation payload store =>
      apply getOption_of_eq
      unfold Store.enqueue
      grind
  | deleteOtherChunks generation store =>
      apply getOption_of_eq
      unfold Store.deleteOtherChunks
      grind
  | popOldest store =>
      apply getOption_of_eq
      unfold Store.popOldest
      grind
  | setGeneration generation store => exact getOption_setOption_of_ne hname _ default store
  | rollBackTo _ _ => rfl

namespace IsCountable

/-- The write path keeps the rows countable. -/
theorem writes (hcountable : before.IsCountable) (hwrites : WritesRecords before after) :
    after.IsCountable := by
  constructor
  · obtain ⟨rows, hcache⟩ := hcountable.cache_eq
    obtain ⟨others, hothers, -⟩ := hwrites.writes.keepsObserved rows hcache
    exact ⟨others, hothers⟩
  · rw [hwrites.getOption_eq (by decide)]
    exact hcountable.lastScan_eq

/-- A time that was read off a clock can be read again. -/
theorem setLastScan (hcountable : store.IsCountable) {clock : Float} {seconds : Int}
    (hseconds : Clock.wholeSeconds clock = .ok seconds) :
    (store.setOption lastScanOption (some (Number.intText seconds))).2.IsCountable := by
  rw [Store.setOption]
  split
  · exact hcountable
  · refine ⟨hcountable.cache_eq, some (Number.intText seconds), seconds, ?_, scanTimeOf_intText hseconds⟩
    rw [getOption]
    dsimp only
    rw [find?_putOption]

theorem reopen (hcountable : store.IsCountable) : store.reopen.IsCountable := by
  rw [Store.reopen]
  split
  · exact ⟨hcountable.cache_eq, hcountable.lastScan_eq⟩
  · exact ⟨hcountable.cache_eq, hcountable.lastScan_eq⟩

theorem createMissingTables (hcountable : store.IsCountable) : store.createMissingTables.IsCountable := by
  obtain ⟨⟨rows, hcache⟩, value, lastScan, hvalue, htime⟩ := hcountable
  refine ⟨⟨rows, by rw [Store.createMissingTables, hcache]; rfl⟩, value, lastScan, ?_, htime⟩
  rw [getOption] at hvalue ⊢
  split at hvalue
  · cases hvalue
  · next options hoptions =>
      rw [Store.createMissingTables, hoptions]
      exact hvalue

end IsCountable

end Store

/-! ## Caches in use -/

namespace HookCache

/-- A cache whose store was new once and has come about by replacing records, inserting them and draining the
queue, also where replaces and drains interleave, by recording when a scan was made, and by closing the store and
opening it again. -/
inductive IsInUse : HookCache → Prop
  | opened (scheduler : Scheduler Float DrainTick) (chunkSize : Int) (delay : Float) :
      IsInUse (onStore Store.blank.createMissingTables scheduler chunkSize delay)
  | replaceStatic {cache : HookCache} (clock : Float) (records : List HookRecord) (generation : Text) :
      IsInUse cache → IsInUse (cache.replaceStatic clock records generation).state
  | insertBatch {cache : HookCache} (records : List HookRecord) (generation : Option Text) :
      IsInUse cache → IsInUse (cache.insertBatch records generation).state
  | perform {cache : HookCache} (step : Step) : IsInUse cache → IsInUse (step.perform cache)
  | interleaved {cache : HookCache} (order : List Nat) (calls : List WriteCall) :
      IsInUse cache → IsInUse { cache with store := (SharedStore.run order ⟨cache.store, calls⟩).store }
  | recordScanTime {cache : HookCache} {clock : Float} {seconds : Int} :
      Clock.wholeSeconds clock = .ok seconds → IsInUse cache →
      IsInUse { cache with
        store := (cache.store.setOption lastScanOption (some (Number.intText seconds))).2 }
  | reopen {cache : HookCache} :
      IsInUse cache → IsInUse { cache with store := cache.store.reopen.createMissingTables }

/-- What happens between two replaces changes the store by statements of the write path. -/
theorem writes_perform (step : Step) (cache : HookCache) :
    Store.WritesRecords cache.store (step.perform cache).store := by
  cases step with
  | drain clock => exact writes_drainOne clock cache
  | runDue clock => exact writes_runDue clock cache
  | runNow clock => exact writes_runNow clock cache
  | schedule clock delay => exact .refl cache.store
  | cancel => exact .refl cache.store
  | observe observed group => exact writes_insertBatch _ group cache
  | restart scheduler chunkSize delay => exact .refl cache.store

theorem IsInUse.isCountable {cache : HookCache} (hused : cache.IsInUse) : cache.store.IsCountable := by
  induction hused with
  | opened scheduler chunkSize delay => exact ⟨⟨[], rfl⟩, some (Text.mark '0'), 0, rfl, by decide⟩
  | replaceStatic clock records generation _ hcountable =>
      exact hcountable.writes (writes_replaceStatic clock records generation _)
  | insertBatch records generation _ hcountable =>
      exact hcountable.writes (writes_insertBatch records generation _)
  | perform step _ hcountable => exact hcountable.writes (writes_perform step _)
  | interleaved order calls _ hcountable => exact hcountable.writes (SharedStore.writes_run order ⟨_, calls⟩)
  | recordScanTime hseconds _ hcountable => exact hcountable.setLastScan hseconds
  | reopen _ hcountable => exact hcountable.reopen.createMissingTables

/-- Of a store that has come about by replacing, inserting and draining records, statistics are given, and they
agree with the listings. -/
theorem stats_agree_with_listings {cache : HookCache} (hused : cache.IsInUse) :
    ∃ stats, cache.store.stats = .ok stats ∧ stats.AgreesWith cache.store := by
  obtain ⟨stats, hstats⟩ := hused.isCountable.exists_stats
  exact ⟨stats, hstats, Store.agreesWith_of_stats hstats⟩

/-- A record of an action of a theme. -/
def themeRecord : HookRecord :=
  { letterRecord 't' rfl .runtime with hookType := .action, sourceType := .theme }

/-- A cache with a static row and two observed ones, one of which is of a theme. -/
def mixedCache : HookCache :=
  (((onStore Store.blank.createMissingTables (.manual none) 5 0).replaceStatic 0
    [letterRecord 's' rfl .static] []).state.insertBatch [themeRecord, letterRecord 'u' rfl .runtime] none).state

/-- Three rows, of which the theme has one; two are of unknown source, which no listing is restricted to. -/
theorem stats_agree_with_listings_mixedCache :
    mixedCache.IsInUse ∧
      ∃ stats, mixedCache.store.stats = .ok stats ∧ stats.total = 3 ∧ countUnder stats.bySource [] = 2 ∧
        ∀ request,
          mixedCache.store.listedTotal (restrictedTo none none) request = .ok 3 ∧
          mixedCache.store.listedTotal (restrictedTo (some HookType.filter.name) none) request = .ok 0 ∧
          mixedCache.store.listedTotal (restrictedTo none (some SourceType.theme.name)) request = .ok 1 := by
  have hused : mixedCache.IsInUse := .insertBatch _ none (.replaceStatic 0 _ [] (.opened _ 5 0))
  obtain ⟨stats, hstats, hagree⟩ := stats_agree_with_listings hused
  obtain ⟨rows, hrows, htotal, htypes, hsources⟩ := Store.stats_eq_ok hstats
  cases hrows
  refine ⟨hused, stats, hstats, htotal, ?_, fun request => ⟨?_, ?_, ?_⟩⟩
  · rw [hsources, Store.countUnder_countsOf]
    decide
  · rw [hagree.total, htotal]
    rfl
  · rw [hagree.byType .filter, htypes, Store.countUnder_countsOf]
    decide
  · rw [hagree.bySource SourceType.theme.name (List.cons_ne_nil _ _), hsources, Store.countUnder_countsOf]
    decide

end HookCache

end HookAtlas
