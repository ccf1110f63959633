/-
# Sampling dispatches at run time

A sampler observes every dispatch through the hook `all`.  Of every so many dispatches it records one,
chosen by a draw, with the place it was fired from: the first stack frame that is neither part of the
dispatch machinery nor of a skipped file.

The sampler ignores what is dispatched while it records, so storing a record may dispatch hooks
itself.
-/

import HookAtlas.Dispatch.Registry
import HookAtlas.Dispatch.Value
import HookAtlas.Scan.SourceFile

namespace HookAtlas

/-- The outcome of a random draw. -/
inductive Draw
  | number (value : Int)
  | failure
deriving DecidableEq, Repr

/-- Where the code of a stack frame comes from: the dispatch machinery itself, or a file by the name it was
loaded under. -/
inductive FrameOrigin
  | machinery
  | file (name : Text)
deriving DecidableEq, Repr

/-- A frame of the stack, with the line being executed where that is known. -/
structure StackFrame where
  origin : FrameOrigin
  line : Option Int
deriving DecidableEq, Repr

/-- A sampler, which captures one dispatch in so many and passes over the frames of the skipped files.  When the
draws to come run out a draw fails.  It may dispatch a hook whenever a record is stored, and storing may raise
after that. -/
structure Sampler where
  isEnabled : Bool
  sampleEvery : Int
  skippedFiles : List Path
  draws : List Draw
  isRecording : Bool
  dispatchedOnStore : Option Text
  raisesOnStore : Bool
deriving DecidableEq, Repr

namespace Sampler

/-- The priority at which a sampler listens, ahead of ordinary listeners. -/
def priority : Int :=
  1

def maxFrames : Nat :=
  32

/-- The hook that a host dispatches for every query, and that is never sampled. -/
def queryHook : Text :=
  "query"

def ignoredHooks : List Text :=
  [Dispatcher.observedByAll, queryHook]

def ofOptions (options : ScanOptions) (skippedFiles : List Path) (draws : List Draw) : Sampler where
  isEnabled := options.runtimeCapture
  sampleEvery := options.captureSample
  skippedFiles := skippedFiles.map Path.absolute
  draws := draws
  isRecording := false
  dispatchedOnStore := none
  raisesOnStore := false

/-- Decide whether to record a dispatch.  Without sampling every dispatch is recorded and nothing is
drawn; a draw that fails counts as chosen. -/
def decide (sampler : Sampler) : Bool × Sampler :=
  if sampler.sampleEvery ≤ 1 then (true, sampler)
  else
    match sampler.draws with
    | [] => (true, sampler)
    | .failure :: draws => (true, { sampler with draws })
    | .number n :: draws => (n == 1, { sampler with draws })

def decideTimes : Nat → Sampler → List Bool × Sampler
  | 0, sampler => ([], sampler)
  | times + 1, sampler =>
    let (chosen, sampler) := sampler.decide
    let (rest, sampler) := decideTimes times sampler
    (chosen :: rest, sampler)

/-- The file that a frame is attributed to; none for machinery, for code without a file, and for
skipped files. -/
def attributedFile? (sampler : Sampler) (frame : StackFrame) : Option Path :=
  match frame.origin with
  | .machinery => none
  | .file name =>
    if name = [] || name.head? = some ('<' : CodePoint) then none
    else
      let path := Path.absoluteOfText name
      if path ∈ sampler.skippedFiles then none else some path

/-- The place that a dispatch was fired from: the innermost frame that is attributed to a file. -/
def firedFrom? (sampler : Sampler) (frames : List StackFrame) : Option (Path × Option Int) :=
  (frames.take maxFrames).findSome? fun frame =>
    (sampler.attributedFile? frame).map fun file => (file, frame.line)

/-- The record of a dispatch; none where the clock shows no time or the line is no line number. -/
def recordOf? (sampler : Sampler) (settings : Settings) (clock : Except ClockError Timestamp)
    (hook : Text) (frames : List StackFrame) : Option HookRecord :=
  match clock, sampler.firedFrom? frames with
  | .error _, _ => none
  | .ok now, none => some (HookRecord.observed hook .unknown none none ⟨.unknown, []⟩ .runtime now)
  | .ok now, some (file, line) =>
    if line.all fun n => 0 ≤ n then
      some (HookRecord.observed hook .unknown (some (settings.recordedPath file))
        (line.map Int.toNat) (settings.classifier.classify file) .runtime now)
    else none

end Sampler

end HookAtlas
