/-
# Source roots

A source root is a directory whose files share a category: the core, the plugins or the themes.
Files of the core have one fixed source name.  Below the other roots the name is that of the first
directory, which is the plugin or the theme.

The category is a parameter, because a host may hand over roots whose declared category is free text.
-/

import HookAtlas.Hook.Kind
import HookAtlas.Path.Basic

namespace HookAtlas

/-- A directory whose files share a category.  An empty source name means that the first directory below the
root names the source. -/
structure SourceRoot (κ : Type) where
  path : Path
  category : κ
  sourceName : Text
deriving DecidableEq, Repr

namespace SourceRoot

def coreName : Text :=
  SourceType.core.name

/-- Keep the place and the name of a root and change how its category is given. -/
def mapCategory {κ κ' : Type} (f : κ → κ') (root : SourceRoot κ) : SourceRoot κ' :=
  ⟨root.path, f root.category, root.sourceName⟩

/-- The source name of a file, given its parts below the root. -/
def nameBelow {κ : Type} (root : SourceRoot κ) (parts : List Text) : Text :=
  if root.sourceName ≠ [] then root.sourceName else parts.head?.getD []

end SourceRoot

end HookAtlas
