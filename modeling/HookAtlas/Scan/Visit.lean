/-
# The files that a scan visits

A scan goes through its roots in order and visits every source file below them once: a file that was
reached before by another path is left out.
-/

import HookAtlas.Files.RealPath
import HookAtlas.Files.Walk
import HookAtlas.Scan.SourceFile

namespace HookAtlas

namespace FileTree

/-- Keep of some paths those whose real path is new. -/
def firstByRealPath (tree : FileTree) (seen : List Path) : List Path → List Path
  | [] => []
  | path :: paths =>
    let real := tree.realPath path
    if real ∈ seen then firstByRealPath tree seen paths
    else path :: firstByRealPath tree (real :: seen) paths

/-- The source files below some roots, each once. -/
def visitedFiles (tree : FileTree) (endings : List Text) (roots : List Path) : List Path :=
  tree.firstByRealPath [] (roots.flatMap (tree.sourceFiles endings))

end FileTree

/-- The records of some files, in order, up to the first for which the clock shows no time. -/
def recordsOfFiles (settings : Settings) (tree : FileTree) (clock : Except ClockError Timestamp) :
    List Path → Except ClockError (List HookRecord) × List Notice
  | [] => (.ok [], [])
  | file :: files =>
    match recordsOfFile settings tree clock file with
    | (.error error, notices) => (.error error, notices)
    | (.ok records, notices) =>
      let (more, moreNotices) := recordsOfFiles settings tree clock files
      (more.map (records ++ ·), notices ++ moreNotices)

/-- The records of all source files below some roots. -/
def recordsBelow (settings : Settings) (tree : FileTree) (clock : Except ClockError Timestamp)
    (roots : List Path) : Except ClockError (List HookRecord) × List Notice :=
  recordsOfFiles settings tree clock (tree.visitedFiles settings.sourceExtensions roots)

end HookAtlas
