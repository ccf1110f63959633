/-
# What a sampler does with one dispatch

A sampler that is told of a dispatch decides whether to record it, and consumes a draw for that unless it
records everything.  A dispatch that it decides to record gives a record if the clock shows a time and the
line that the dispatch was fired from is a line number.  The record is inserted, which the store may refuse.
Whatever comes of it, the sampler is not recording afterwards.
-/

import HookAtlas.Proofs.Store.Insert
import HookAtlas.Proofs.Text.Utf8
import HookAtlas.Site.Basic
import Mathlib.Data.List.Basic

namespace HookAtlas

namespace Sampler

/-! ## Draws -/

/-- Whether a sampler chooses the dispatch of a number, counted from zero: it records everything, or the draw
is one, or there is no draw. -/
def chooses (sampler : Sampler) (number : Nat) : Bool :=
  sampler.sampleEvery ≤ 1 ||
    match sampler.draws[number]? with
    | some (.number n) => n == 1
    | _ => true

/-- A sampler after it has decided so many times: it has consumed a draw each time, unless it records
everything. -/
def afterDeciding (sampler : Sampler) (times : Nat) : Sampler :=
  { sampler with
    draws := if sampler.sampleEvery ≤ 1 then sampler.draws else sampler.draws.drop times }

theorem afterDeciding_zero (sampler : Sampler) : sampler.afterDeciding 0 = sampler := by
  simp [afterDeciding]

theorem decide_afterDeciding (sampler : Sampler) (times : Nat) :
    (sampler.afterDeciding times).decide = (sampler.chooses times, sampler.afterDeciding (times + 1)) := by
  by_cases hall : sampler.sampleEvery ≤ 1
  · simp [decide, afterDeciding, chooses, hall]
  · have hhead : sampler.draws[times]? = (sampler.draws.drop times).head? := by
      rw [List.head?_drop]
    have htail : sampler.draws.drop (times + 1) = (sampler.draws.drop times).tail := by
      rw [List.tail_drop]
    simp only [decide, afterDeciding, chooses, hall, if_false, decide_false, Bool.false_or, hhead, htail]
    cases sampler.draws.drop times with
    | nil => rfl
    | cons draw draws =>
        cases draw with
        | number n => rfl
        | failure => rfl

theorem decide_eq (sampler : Sampler) : sampler.decide = (sampler.chooses 0, sampler.afterDeciding 1) := by
  have hdecide := sampler.decide_afterDeciding 0
  rw [sampler.afterDeciding_zero] at hdecide
  exact hdecide

theorem dispatchedOnStore_decide (sampler : Sampler) :
    sampler.decide.2.dispatchedOnStore = sampler.dispatchedOnStore := by
  rw [sampler.decide_eq]
  rfl

/-- Deciding several times goes through the draws one by one. -/
theorem decideTimes_eq (sampler : Sampler) (done times : Nat) :
    (sampler.afterDeciding done).decideTimes times =
      ((List.range' done times).map sampler.chooses, sampler.afterDeciding (done + times)) := by
  induction times generalizing done with
  | zero => rfl
  | succ times ih =>
      rw [decideTimes, decide_afterDeciding]
      dsimp only
      rw [ih (done + 1), List.range'_succ, List.map_cons, Nat.add_right_comm, Nat.add_assoc]

/-- The line that a dispatch was fired from is that of a frame. -/
theorem exists_frame_of_firedFrom? {sampler : Sampler} {frames : List StackFrame}
    {place : Path × Option Int} (hplace : sampler.firedFrom? frames = some place) :
    ∃ frame ∈ frames, frame.line = place.2 := by
  obtain ⟨frame, hmem, hframe⟩ := List.exists_of_findSome?_eq_some hplace
  obtain ⟨file, -, hfile⟩ := Option.map_eq_some_iff.mp hframe
  rw [← hfile]
  exact ⟨frame, List.mem_of_mem_take hmem, rfl⟩

end Sampler

/-- Whether a world is one that a running process finds: its clock shows a time of the calendar, and the lines of
its stack, where they are known, are those of an `int` of 32 bits and not negative. -/
def SiteWorld.isActual (world : SiteWorld) : Bool :=
  world.now.isOk &&
    world.frames.all fun frame => frame.line.all fun line => 0 ≤ line ∧ line < Int.pow 2 31

/-! ## Notifications -/

/-- The hook, the type and the detection method of a record. -/
def HookRecord.outline (record : HookRecord) : Text × HookType × DetectionMethod :=
  (record.hookName.text, record.hookType, record.detectionMethod)

@[simp]
theorem HookRecord.outline_stored (record : HookRecord) : record.stored.outline = record.outline :=
  rfl

/-- A sampler is told of a dispatch of a hook, in a world. -/
structure Notification where
  hook : Text
  world : SiteWorld

namespace Notification

/-- The record of the dispatch, if there can be one. -/
def record? (sampler : Sampler) (notification : Notification) : Option HookRecord :=
  sampler.recordOf? notification.world.settings notification.world.now notification.hook
    notification.world.frames

/-- Whether the record of the dispatch can be stored: the clock shows a time, and the line that the dispatch was
fired from is not known or one that the store holds. -/
def isRecordable (sampler : Sampler) (notification : Notification) : Bool :=
  notification.world.now.isOk &&
    (sampler.firedFrom? notification.world.frames).all fun place =>
      place.2.all fun line : Int => 0 ≤ line ∧ line ≤ Store.maxLine

/-- The line column is as wide as the lines of a stack. -/
theorem isRecordable_of_isActual (sampler : Sampler) {notification : Notification}
    (hactual : notification.world.isActual = true) : notification.isRecordable sampler = true := by
  rw [SiteWorld.isActual, Bool.and_eq_true] at hactual
  obtain ⟨hnow, hframes⟩ := hactual
  have hplace : (sampler.firedFrom? notification.world.frames).all (fun place =>
      place.2.all fun line : Int => 0 ≤ line ∧ line ≤ Store.maxLine) = true := by
    rw [Option.all_eq_true]
    intro place hfired
    obtain ⟨frame, hmem, hline⟩ := Sampler.exists_frame_of_firedFrom? hfired
    rw [Option.all_eq_true, ← hline]
    intro line hknown
    have hlines := List.all_eq_true.mp hframes frame hmem
    rw [hknown, Option.all_some, decide_eq_true_eq] at hlines
    have hpow : Int.pow 2 31 = 2147483648 := rfl
    rw [hpow] at hlines
    rw [decide_eq_true_eq, Store.maxLine]
    omega
  rw [isRecordable, hnow, hplace, Bool.and_true]

theorem filter_observed {hook : Text} (hname : hook ≠ []) (hscalar : hook.isScalar = true)
    (path : Option Text) (line : Option Nat) (attribution : Attribution) (now : Timestamp) :
    ((some (HookRecord.observed hook .unknown path line attribution .runtime now)).filter
      Store.isStorable).map HookRecord.outline =
      if line.all fun n => n ≤ Store.maxLine then some (hook, .unknown, .runtime) else none := by
  have hscrub : hook.scrub = hook := Text.scrub_of_isScalar hscalar
  have hfits : Store.isStorable
      (HookRecord.observed hook .unknown path line attribution .runtime now) =
        line.all fun n => n ≤ Store.maxLine := by
    simp [Store.isStorable, Store.lineFits, HookRecord.observed, ScalarText.ofText, hscrub, hname]
  rw [Option.filter_some, hfits]
  split
  · simp [HookRecord.outline, HookRecord.observed, ScalarText.ofText, hscrub]
  · rfl

/-- The record of a dispatch bears the name of the hook, and it is stored if it can be. -/
theorem filter_record? (sampler : Sampler) {notification : Notification}
    (hname : notification.hook ≠ []) (hscalar : notification.hook.isScalar = true) :
    ((notification.record? sampler).filter Store.isStorable).map HookRecord.outline =
      if notification.isRecordable sampler then some (notification.hook, .unknown, .runtime)
      else none := by
  have hobserved := filter_observed hname hscalar
  rw [record?, isRecordable]
  cases notification.world.now with
  | error error => rfl
  | ok now =>
      rw [Sampler.recordOf?.eq_def]
      cases sampler.firedFrom? notification.world.frames with
      | none => exact hobserved none none _ now
      | some place =>
          obtain ⟨file, line⟩ := place
          cases line with
          | none => exact hobserved _ none _ now
          | some line =>
              by_cases hline : 0 ≤ line
              · have hlong : line.toNat ≤ Store.maxLine ↔ line ≤ Store.maxLine := by omega
                simp [hline, hobserved, hlong, Except.isOk, Except.toBool]
              · simp [hline, Except.isOk, Except.toBool]

/-- The rows of some dispatches are those of the dispatches whose records can be stored, in order. -/
theorem map_outline_records (sampler : Sampler) {notifications : List Notification}
    (hnames : ∀ notification ∈ notifications,
      notification.hook ≠ [] ∧ notification.hook.isScalar = true) :
    ((notifications.filterMap (record? sampler)).filter Store.isStorable).map HookRecord.outline =
      (notifications.filter (isRecordable sampler)).map fun notification =>
        (notification.hook, .unknown, .runtime) := by
  rw [List.filter_filterMap, List.map_filterMap, ← List.filterMap_eq_map, List.filterMap_filter]
  apply List.filterMap_congr
  intro notification hmem
  obtain ⟨hname, hscalar⟩ := hnames notification hmem
  rw [filter_record? sampler hname hscalar]
  rfl

end Notification

/-! ## Samplers in a world -/

namespace SiteWorld

variable {world : SiteWorld} {sampler : Sampler}

/-- Storing a record dispatches nothing, whichever sampler stores it. -/
def StoresSilently (world : SiteWorld) : Prop :=
  ∀ sampler ∈ world.samplers, sampler.dispatchedOnStore = none

theorem StoresSilently.setSampler (hsilent : world.StoresSilently) (index : Nat)
    (hquiet : sampler.dispatchedOnStore = none) : (world.setSampler index sampler).StoresSilently := by
  intro other hmem
  rcases List.mem_or_eq_of_mem_set hmem with hmem | rfl
  · exact hsilent other hmem
  · exact hquiet

theorem StoresSilently.setRecording (hsilent : world.StoresSilently) (index : Nat) (isRecording : Bool) :
    (world.setRecording index isRecording).StoresSilently := by
  rw [SiteWorld.setRecording]
  split
  · next sampler hsampler =>
      exact hsilent.setSampler index (hsilent sampler (List.mem_of_getElem? hsampler))
  · exact hsilent

end SiteWorld

namespace Site

variable {site : Site} {index : Nat} {sampler : Sampler}

theorem getElem?_setSampler {world : SiteWorld} (hsampler : world.samplers[index]? = some sampler)
    (other : Sampler) : (world.setSampler index other).samplers[index]? = some other := by
  have hlt : index < world.samplers.length := (List.getElem?_eq_some_iff.mp hsampler).1
  simp [SiteWorld.setSampler, hlt]

theorem getElem?_setRecording {world : SiteWorld} (hsampler : world.samplers[index]? = some sampler)
    (isRecording : Bool) :
    (world.setRecording index isRecording).samplers[index]? = some { sampler with isRecording } ∧
      (world.setRecording index isRecording).cache = world.cache := by
  simp [SiteWorld.setRecording, hsampler, getElem?_setSampler hsampler]
  rfl

/-- A sampler that dispatches nothing on storing stores a record and says whether that went well. -/
theorem storeSample_eq (host : Host ListenerId Value SiteWorld) (hquiet : sampler.dispatchedOnStore = none)
    (record : HookRecord) (site : Site) :
    storeSample host sampler record site =
      some ((site.world.cache.insertBatch [record] none).value.isOk && !sampler.raisesOnStore,
        site.mapWorld (·.afterCache (site.world.cache.insertBatch [record] none))) := by
  rw [storeSample, hquiet]
  split
  · next hvalue =>
      rw [hvalue]
      rfl
  · next hvalue _ =>
      rw [hvalue]
      rfl
  · next hnone =>
      cases hnone

/-- Recording a dispatch inserts its record, if there is one, and leaves the sampler as it is. -/
theorem recordSample_eq (host : Host ListenerId Value SiteWorld)
    (hsampler : site.world.samplers[index]? = some sampler) (hidle : sampler.isRecording = false)
    (hquiet : sampler.dispatchedOnStore = none) (hook : Text) :
    ∃ recorded world,
      recordSample host index sampler (.text hook) site = some (recorded, ⟨site.dispatcher, world⟩) ∧
      world.samplers[index]? = some sampler ∧
      (site.world.StoresSilently → world.StoresSilently) ∧
      world.cache.store = (site.world.cache.store.insertBatch
        (Notification.record? sampler ⟨hook, site.world⟩).toList none).state := by
  cases hrecord : sampler.recordOf? site.world.settings site.world.now hook site.world.frames with
  | none =>
      refine ⟨false, site.world, ?_, hsampler, id, ?_⟩
      · simp [recordSample, hrecord]
      · simp [Notification.record?, hrecord, Store.insertBatch]
  | some record =>
      let busy := site.world.setRecording index true
      let stored := busy.afterCache (busy.cache.insertBatch [record] none)
      obtain ⟨hbusy, hcache⟩ := getElem?_setRecording hsampler true
      have hstored : stored.samplers[index]? = some { sampler with isRecording := true } := hbusy
      obtain ⟨hdone, hdoneCache⟩ := getElem?_setRecording hstored false
      refine ⟨(busy.cache.insertBatch [record] none).value.isOk && !sampler.raisesOnStore,
        stored.setRecording index false, ?_, ?_, ?_, ?_⟩
      · simp only [recordSample, hrecord, storeSample_eq host hquiet]
        rfl
      · rw [hdone, ← hidle]
      · intro hsilent
        have hstoredSilent : stored.StoresSilently := hsilent.setRecording index true
        exact hstoredSilent.setRecording index false
      · rw [hdoneCache, Notification.record?, hrecord, ← hcache]
        rfl

/-- A sampler that is told of a dispatch of a hook that is not ignored decides whether to record it. -/
theorem callListener_sampler (hsampler : site.world.samplers[index]? = some sampler)
    (hidle : sampler.isRecording = false) (hquiet : sampler.dispatchedOnStore = none) {hook : Text}
    (hsampled : hook ∉ Sampler.ignoredHooks) (args : List Value) :
    ∃ result world,
      callListener 1 (.sampler index) (.text hook :: args) site =
        some (⟨.text hook :: args, result⟩, ⟨site.dispatcher, world⟩) ∧
      world.samplers[index]? = some sampler.decide.2 ∧
      (site.world.StoresSilently → world.StoresSilently) ∧
      world.cache.store = (site.world.cache.store.insertBatch
        (if sampler.decide.1 then Notification.record? sampler ⟨hook, site.world⟩ else none).toList
        none).state := by
  have hdecided : sampler.decide.2 = sampler.afterDeciding 1 := by rw [sampler.decide_eq]
  have htold : (site.mapWorld (·.setSampler index sampler.decide.2)).world.samplers[index]? =
      some sampler.decide.2 := getElem?_setSampler hsampler _
  have hquiet' : sampler.decide.2.dispatchedOnStore = none := by
    rw [sampler.dispatchedOnStore_decide]
    exact hquiet
  cases hchosen : sampler.decide.1 with
  | false =>
      refine ⟨some .null, _, ?_, htold, fun hsilent => hsilent.setSampler index hquiet', rfl⟩
      simp [callListener, hsampler, callSampler, hidle, Value.isHashable, isIgnoredHook, hsampled, hchosen,
        Hosted.mapWorld]
  | true =>
      have hidle' : sampler.decide.2.isRecording = false := by
        rw [hdecided]
        exact hidle
      obtain ⟨recorded, world, hrecord, hafter, hsilent, hstore⟩ :=
        recordSample_eq (hostWith fun _ _ _ => none) htold hidle' hquiet' hook
      have hdispatcher : (site.mapWorld (·.setSampler index sampler.decide.2)).dispatcher =
          site.dispatcher := rfl
      rw [hdispatcher] at hrecord
      rw [hdecided] at hstore
      refine ⟨if recorded then some .null else none, world, ?_, hafter,
        fun htold => hsilent (htold.setSampler index hquiet'), hstore⟩
      cases recorded with
      | true =>
          simp [callListener, hsampler, callSampler, hidle, Value.isHashable, isIgnoredHook, hsampled,
            hchosen, hrecord]
      | false =>
          simp [callListener, hsampler, callSampler, hidle, Value.isHashable, isIgnoredHook, hsampled,
            hchosen, hrecord]

/-- A sampler that is told of a dispatch of an ignored hook does nothing. -/
theorem callListener_sampler_ignored (hsampler : site.world.samplers[index]? = some sampler)
    {hook : Text} (hignored : hook ∈ Sampler.ignoredHooks) (args : List Value) :
    ∃ result, callListener 1 (.sampler index) (.text hook :: args) site =
      some (⟨.text hook :: args, result⟩, site) := by
  refine ⟨some .null, ?_⟩
  simp [callListener, hsampler, callSampler, Value.isHashable, isIgnoredHook, hignored]

end Site

end HookAtlas
