/-
# Scanning a site

A scan collects the call sites of all source files below its roots and hands them to the cache as the
new static records.  A scan that uses the dispatcher lets listeners replace the roots, announces the
roots it is going to scan, and announces how many records it handled.

A scan that finds a call site while the clock shows no time stops before anything is written.  The call
sites of a file have lines, and no file has enough of them for a batch to overflow, so writing the records
of a scan does not raise either.

The roots that listeners return count only if they are a list or a tuple of source roots.  The list of
roots that is announced is the one that is scanned afterwards.
-/

import HookAtlas.Catalogue.Listing
import HookAtlas.Scan.Visit
import HookAtlas.Site.Basic

namespace HookAtlas

namespace ScanHook

def roots : Text :=
  "hook_directory_scan_roots"

def before : Text :=
  "hook_directory_before_scan"

def complete : Text :=
  "hook_directory_scan_complete"

end ScanHook

/-- Why a scan raises: the clock shows no time, or the records cannot be handed to the store. -/
inductive ScanError
  | clock (error : ClockError)
  | store (error : StoreError)
deriving DecidableEq, Repr

namespace SiteWorld

def generationName (count : Nat) : Text :=
  Text.mark 'g' ++ Number.natText count

/-- Replace the static records by those of a new generation.  Answers how many were handled. -/
def replaceStatic (records : List HookRecord) (world : SiteWorld) :
    Except StoreError Nat × SiteWorld :=
  let count := world.generations + 1
  let result := world.cache.replaceStatic world.clock records (generationName count)
  (result.value, { world with generations := count }.afterCache result)

/-- Record the time of a scan, in whole seconds. -/
def recordScanTime (world : SiteWorld) : Except ClockError Unit × SiteWorld :=
  match Clock.wholeSeconds world.clock with
  | .error error => (.error error, world)
  | .ok seconds =>
    let (answer, store) :=
      world.cache.store.setOption lastScanOption (some (Number.intText seconds))
    let world := { world with cache := { world.cache with store } }
    match answer with
    | .ok () => (.ok (), world)
    | .error _ => (.ok (), world.noteAll [.scanTimeNotRecorded])

/-- Collect the records below some roots, make them the static ones, and record the time.  Answers
how many records were handled. -/
def scanRoots (roots : List Path) (world : SiteWorld) : Except ScanError Nat × SiteWorld :=
  match recordsBelow world.settings world.files world.now roots with
  | (.error error, notices) => (.error (.clock error), world.noteAll notices)
  | (.ok records, notices) =>
    match (world.noteAll notices).replaceStatic records with
    | (.error error, world) => (.error (.store error), world)
    | (.ok handled, world) =>
      match world.recordScanTime with
      | (.error error, world) => (.error (.clock error), world)
      | (.ok (), world) => (.ok handled, world)

end SiteWorld

/-- A configured root as listeners see it. -/
def SourceRoot.declared (root : SourceRoot SourceType) : SourceRoot Text :=
  root.mapCategory SourceType.name

namespace Host

variable {ι : Type}

def filterRoots (host : Host ι Value SiteWorld) (roots : List (SourceRoot Text))
    (state : Hosted ι SiteWorld) : Option (List (SourceRoot Text) × Hosted ι SiteWorld) :=
  match host.applyFilters ScanHook.roots (.ofRoots roots) [] state with
  | none => none
  | some (result, state) =>
    match result.roots? with
    | some roots => some (roots, state)
    | none => some (roots, state.mapWorld (·.noteAll [.rootFilterIgnored]))

/-- Announce the roots.  Answers the roots as listeners leave the announced list. -/
def announceRoots (host : Host ι Value SiteWorld) (roots : List (SourceRoot Text))
    (state : Hosted ι SiteWorld) : Option (List (SourceRoot Text) × Hosted ι SiteWorld) :=
  match host.doAction ScanHook.before [.ofRoots roots] state with
  | none => none
  | some (args, state) => some ((args.head?.bind Value.roots?).getD roots, state)

/-- Scan and let listeners take part.  No answer where dispatches are nested without end. -/
def scan (host : Host ι Value SiteWorld) (options : ScanOptions) (state : Hosted ι SiteWorld) :
    Option (Except ScanError Nat × Hosted ι SiteWorld) :=
  let configured := (state.world.settings.enabledRoots options).map SourceRoot.declared
  match host.filterRoots configured state with
  | none => none
  | some (roots, state) =>
    match host.announceRoots roots state with
    | none => none
    | some (roots, state) =>
      match state.world.scanRoots (roots.map SourceRoot.path) with
      | (.error error, world) => some (.error error, { state with world })
      | (.ok handled, world) =>
        match host.doAction ScanHook.complete [.int (Int.ofNat handled)] { state with world } with
        | none => none
        | some (_, state) => some (.ok handled, state)

end Host

namespace Site

/-- Scan a site without its dispatcher. -/
def scanQuietly (options : ScanOptions) (site : Site) : Except ScanError Nat × Site :=
  let roots := (site.world.settings.enabledRoots options).map SourceRoot.path
  let (handled, world) := site.world.scanRoots roots
  (handled, { site with world })

def scan (options : ScanOptions) (site : Site) : Option (Except ScanError Nat × Site) :=
  host.scan options site

end Site

end HookAtlas
