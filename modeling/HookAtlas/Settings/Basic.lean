/-
# Settings of a site

Where the code of the site lies, which functions dispatch hooks, how the write queue works and what
is scanned and captured.  Directories may be relative to the base directory of the site.

Settings are read from named fields.  A field that is missing has its default, and all issues are
reported in the order of the fields below.
-/

import HookAtlas.Settings.ScanOptions
import HookAtlas.Source.Root
import HookAtlas.Php.CallSite
import HookAtlas.Number.Shortest

namespace HookAtlas

/-- How the ticks that drain the queue come about: a timer of the program runs them, or the host does. -/
inductive SchedulerKind
  | thread
  | manual
deriving DecidableEq, Repr

namespace SchedulerKind

def name : SchedulerKind → Text
  | .thread => "thread"
  | .manual => "manual"

def ofName? (t : Text) : Option SchedulerKind :=
  HookAtlas.ofName? [.thread, .manual] name t

end SchedulerKind

/-- The settings of a site. -/
structure Settings where
  dbPath : Path
  baseDir : Path
  coreDirs : List Text
  pluginDir : Path
  themeDir : Path
  sourceExtensions : List Text
  actionFunctions : List Text
  filterFunctions : List Text
  queueChunkSize : Int
  queueDrainDelay : Float
  queueScheduler : SchedulerKind
  scan : ScanOptions
  address : Text
  tcpPort : Int
  behindProxy : Bool

namespace Settings

def fieldNames : List String :=
  ["db_path", "base_dir", "core_dirs", "plugin_dir", "theme_dir", "source_extensions",
    "action_functions", "filter_functions", "queue_chunk_size", "queue_drain_delay_seconds",
    "queue_scheduler", "scan_core", "scan_plugins", "scan_themes", "runtime_capture",
    "capture_sample", "cache_expiry_days", "host", "port", "behind_proxy"]

/-- The fields that hold lists. -/
def listFieldNames : List String :=
  ["core_dirs", "source_extensions", "action_functions", "filter_functions"]

def readPath : Json → Except IssueKind Path
  | .text t => .ok (Path.ofText t)
  | _ => .error .pathType

def defaultPath (t : String) : Path :=
  Path.ofText (Text.ofString t)

/-- Read the settings from named fields. -/
def ofFields (fields : List (Text × Json)) : Validated Settings :=
  Validated.value Settings.mk
    |>.apply
      (Validation.fieldOr fields "db_path" readPath (defaultPath "data/hook_directory.duckdb"))
    |>.apply (Validation.fieldOr fields "base_dir" readPath (defaultPath "."))
    |>.apply (Validation.textListOr fields "core_dirs" ["wp-includes", "wp-admin"])
    |>.apply (Validation.fieldOr fields "plugin_dir" readPath (defaultPath "wp-content/plugins"))
    |>.apply (Validation.fieldOr fields "theme_dir" readPath (defaultPath "wp-content/themes"))
    |>.apply (Validation.textListOr fields "source_extensions" [".php"])
    |>.apply (Validation.textListOr fields "action_functions" Php.Callees.standard.actions)
    |>.apply (Validation.textListOr fields "filter_functions" Php.Callees.standard.filters)
    |>.apply (Validation.fieldOr fields "queue_chunk_size" (Validation.intAtLeast 1) 500)
    |>.apply
      (Validation.fieldOr fields "queue_drain_delay_seconds" Validation.floatAtLeastZero 15.0)
    |>.apply
      (Validation.fieldOr fields "queue_scheduler"
        (Validation.member SchedulerKind.ofName? .literalMember) .thread)
    |>.apply (ScanOptions.ofFields ScanOptions.standard fields)
    |>.apply (Validation.fieldOr fields "host" Validation.text "0.0.0.0")
    |>.apply (Validation.fieldOr fields "port" Validation.int 8000)
    |>.apply (Validation.fieldOr fields "behind_proxy" Validation.bool false)

/-- The settings as the fields of a JSON object; the delay is written as a text. -/
def toFields (settings : Settings) : List (Text × Json) :=
  let texts (items : List Text) : Json := .list (items.map .text)
  let own : List (Text × Json) := [
    ("db_path", .text settings.dbPath.text),
    ("base_dir", .text settings.baseDir.text),
    ("core_dirs", texts settings.coreDirs),
    ("plugin_dir", .text settings.pluginDir.text),
    ("theme_dir", .text settings.themeDir.text),
    ("source_extensions", texts settings.sourceExtensions),
    ("action_functions", texts settings.actionFunctions),
    ("filter_functions", texts settings.filterFunctions),
    ("queue_chunk_size", .int settings.queueChunkSize),
    ("queue_drain_delay_seconds", .text (Number.floatText settings.queueDrainDelay)),
    ("queue_scheduler", .text settings.queueScheduler.name),
    ("host", .text settings.address),
    ("port", .int settings.tcpPort),
    ("behind_proxy", .bool settings.behindProxy)]
  own ++ settings.scan.toFields

/-- The absolute path of a directory, which is relative to the base directory unless it has an
anchor. -/
def resolveDir (settings : Settings) (directory : Path) : Path :=
  (settings.baseDir.join directory).absolute

/-- The functions whose calls dispatch hooks. -/
def callees (settings : Settings) : Php.Callees :=
  ⟨settings.actionFunctions, settings.filterFunctions⟩

def coreRoots (settings : Settings) : List (SourceRoot SourceType) :=
  settings.coreDirs.map fun directory =>
    ⟨settings.resolveDir (Path.ofText directory), .core, SourceRoot.coreName⟩

def pluginRoot (settings : Settings) : SourceRoot SourceType :=
  ⟨settings.resolveDir settings.pluginDir, .plugin, []⟩

def themeRoot (settings : Settings) : SourceRoot SourceType :=
  ⟨settings.resolveDir settings.themeDir, .theme, []⟩

def sourceRoots (settings : Settings) : List (SourceRoot SourceType) :=
  settings.coreRoots ++ [settings.pluginRoot] ++ [settings.themeRoot]

/-- The configured roots that the options enable. -/
def enabledRoots (settings : Settings) (options : ScanOptions) : List (SourceRoot SourceType) :=
  (if options.scanCore then settings.coreRoots else []) ++
    (if options.scanPlugins then [settings.pluginRoot] else []) ++
    (if options.scanThemes then [settings.themeRoot] else [])

end Settings

end HookAtlas
