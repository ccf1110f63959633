/-
# The categories of a hook record

A hook is an action or a filter, or of unknown type where it was only observed at run time.  The
file it was found in belongs to the core, to a plugin or to a theme, or to nothing known.  It was
found in the source or while running.  Each category has a fixed name, which is what the store and
the interface hold.
-/

import HookAtlas.Text.CodePoint

namespace HookAtlas

/-- What kind of hook a call dispatches. -/
inductive HookType
  | action
  | filter
  | unknown
deriving DecidableEq, Repr, Inhabited

inductive SourceType
  | core
  | plugin
  | theme
  | unknown
deriving DecidableEq, Repr, Inhabited

/-- How an occurrence was found. -/
inductive DetectionMethod
  | static
  | runtime
deriving DecidableEq, Repr, Inhabited

/-- The member of a list of values whose name is the given text. -/
def ofName? {α : Type} (values : List α) (name : α → Text) (t : Text) : Option α :=
  values.find? fun value => name value = t

namespace HookType

def name : HookType → Text
  | .action => Text.ofChars ['a', 'c', 't', 'i', 'o', 'n']
  | .filter => Text.ofChars ['f', 'i', 'l', 't', 'e', 'r']
  | .unknown => Text.ofChars ['u', 'n', 'k', 'n', 'o', 'w', 'n']

def ofName? (t : Text) : Option HookType :=
  HookAtlas.ofName? [.action, .filter, .unknown] name t

/-- A name belongs to at most one hook type, and reading a name returns its type. -/
theorem ofName?_name (value : HookType) : ofName? value.name = some value := by
  cases value <;> decide

end HookType

namespace SourceType

/-- The name of a source type; the unknown one has the empty name. -/
def name : SourceType → Text
  | .core => Text.ofChars ['c', 'o', 'r', 'e']
  | .plugin => Text.ofChars ['p', 'l', 'u', 'g', 'i', 'n']
  | .theme => Text.ofChars ['t', 'h', 'e', 'm', 'e']
  | .unknown => []

def ofName? (t : Text) : Option SourceType :=
  HookAtlas.ofName? [.core, .plugin, .theme, .unknown] name t

/-- A name belongs to at most one source type, and reading a name returns its type. -/
theorem ofName?_name (value : SourceType) : ofName? value.name = some value := by
  cases value <;> decide

end SourceType

namespace DetectionMethod

def name : DetectionMethod → Text
  | .static => Text.ofChars ['s', 't', 'a', 't', 'i', 'c']
  | .runtime => Text.ofChars ['r', 'u', 'n', 't', 'i', 'm', 'e']

def ofName? (t : Text) : Option DetectionMethod :=
  HookAtlas.ofName? [.static, .runtime] name t

/-- A name belongs to at most one detection method, and reading a name returns it. -/
theorem ofName?_name (value : DetectionMethod) : ofName? value.name = some value := by
  cases value <;> decide

end DetectionMethod

end HookAtlas
