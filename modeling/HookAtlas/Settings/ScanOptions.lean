/-
# Options of scanning and capturing

Which parts of the site are scanned, whether dispatches are captured at run time, and one in how many
of them.  The options are read once and do not change afterwards; assigning a field is always an
issue.
-/

import HookAtlas.Validation.Field

namespace HookAtlas

/-- The options of a scan and of runtime capture.  One dispatch in so many is captured; zero and one both
capture all. -/
structure ScanOptions where
  scanCore : Bool
  scanPlugins : Bool
  scanThemes : Bool
  runtimeCapture : Bool
  captureSample : Int
  cacheExpiryDays : Int
deriving DecidableEq, Repr

namespace ScanOptions

def standard : ScanOptions :=
  ⟨true, true, true, false, 0, 7⟩

/-- Read the options from the fields of an object, with given ones for what is missing. -/
def ofFields (default : ScanOptions) (fields : List (Text × Json)) : Validated ScanOptions :=
  Validated.value ScanOptions.mk
    |>.apply (Validation.fieldOr fields "scan_core" Validation.bool default.scanCore)
    |>.apply (Validation.fieldOr fields "scan_plugins" Validation.bool default.scanPlugins)
    |>.apply (Validation.fieldOr fields "scan_themes" Validation.bool default.scanThemes)
    |>.apply (Validation.fieldOr fields "runtime_capture" Validation.bool default.runtimeCapture)
    |>.apply
      (Validation.fieldOr fields "capture_sample" (Validation.intAtLeast 0) default.captureSample)
    |>.apply
      (Validation.fieldOr fields "cache_expiry_days" (Validation.intAtLeast 1)
        default.cacheExpiryDays)

/-- Assigning a field of the options is never allowed. -/
def assignmentIssue (field : Text) : Issue :=
  ⟨[field], .frozenInstance⟩

def toFields (options : ScanOptions) : List (Text × Json) :=
  [("scan_core", .bool options.scanCore),
    ("scan_plugins", .bool options.scanPlugins),
    ("scan_themes", .bool options.scanThemes),
    ("runtime_capture", .bool options.runtimeCapture),
    ("capture_sample", .int options.captureSample),
    ("cache_expiry_days", .int options.cacheExpiryDays)]

end ScanOptions

end HookAtlas
