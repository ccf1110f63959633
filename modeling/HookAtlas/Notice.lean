/-
# Notices

What the catalogue reports to its operator without failing: a listener that raised, rows that could
not be stored, a file that could not be read.  A notice has a severity, the part of the catalogue
that reports it, and a message template whose details are filled in elsewhere.
-/

import HookAtlas.Text.CodePoint

namespace HookAtlas

inductive Severity
  | warning
  | error
deriving DecidableEq, Repr

def Severity.name : Severity → Text
  | .warning => "WARNING"
  | .error => "ERROR"

/-- What the catalogue reports. -/
inductive Notice
  | observerRaised
  | actionListenerRaised
  | filterListenerRaised
  | rootFilterIgnored
  | unreadableFile
  | scanTimeNotRecorded
  | insertFailed
  | insertsIncomplete
  | replaceRetried
  | replaceFailed
  | queueFailed
  | drainFailed
  | countFailed
  | taskRaised
deriving DecidableEq, Repr

namespace Notice

def severity : Notice → Severity
  | .rootFilterIgnored | .unreadableFile | .insertFailed | .insertsIncomplete
  | .replaceRetried => .warning
  | _ => .error

/-- The part of the catalogue that reports a notice. -/
def reporter : Notice → Text
  | .observerRaised | .actionListenerRaised | .filterListenerRaised => "dispatcher"
  | .rootFilterIgnored | .unreadableFile | .scanTimeNotRecorded => "static_scanner"
  | .taskRaised => "scheduler"
  | _ => "hook_cache"

/-- The message template of a notice. -/
def template : Notice → Text
  | .observerRaised => "Listener %r raised while observing hook %s"
  | .actionListenerRaised => "Listener %r raised in action %s"
  | .filterListenerRaised => "Listener %r raised in filter %s"
  | .rootFilterIgnored => "Ignoring %s filter result %r: expected a list of SourceRoot"
  | .unreadableFile => "Skipping unreadable file %s: %s"
  | .scanTimeNotRecorded => "Could not record the last scan time"
  | .insertFailed => "Hook insert failed for %r: %s"
  | .insertsIncomplete => "Inserted %d, failed %d out of %d hook records"
  | .replaceRetried => "Transactional static replace failed, retrying row by row"
  | .replaceFailed => "Could not replace static hook entries"
  | .queueFailed => "Could not queue %d static hook records"
  | .drainFailed => "Failed to drain a hook queue chunk"
  | .countFailed => "Could not count queued hook chunks"
  | .taskRaised => "Scheduled task %r raised"

end Notice

end HookAtlas
