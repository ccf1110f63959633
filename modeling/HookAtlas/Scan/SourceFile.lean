/-
# Records of one source file

A source file is decoded as UTF-8, less a byte order mark at its start, and every line break becomes
a line feed.  Each call site in it gives one record, attributed to the root that the file belongs to.
The clock is only asked where there is a call site.
-/

import HookAtlas.Files.Tree
import HookAtlas.Hook.Record
import HookAtlas.Notice
import HookAtlas.Php.CallSite
import HookAtlas.Php.Lexer
import HookAtlas.Settings.Basic
import HookAtlas.Source.Classifier

namespace HookAtlas

namespace SourceText

def byteOrderMark : List Nat :=
  [0xEF, 0xBB, 0xBF]

def dropByteOrderMark (bytes : List Nat) : List Nat :=
  if byteOrderMark.isPrefixOf bytes then bytes.drop 3 else bytes

/-- Make every line break a line feed: a carriage return with or without a line feed behind it. -/
def unifyLineBreaks : Text → Text
  | [] => []
  | c :: cs =>
    if c = '\r' then
      if cs.head? = some ('\n' : CodePoint) then unifyLineBreaks cs else '\n' :: unifyLineBreaks cs
    else c :: unifyLineBreaks cs

/-- The text of a source file. -/
def ofBytes (bytes : List Nat) : Text :=
  unifyLineBreaks (Utf8.decode (dropByteOrderMark bytes))

end SourceText

namespace HookRecord

/-- A record that the catalogue makes itself, with its texts freed of surrogates. -/
def observed (hookName : Text) (hookType : HookType) (filePath : Option Text) (line : Option Nat)
    (attribution : Attribution) (method : DetectionMethod) (now : Timestamp) : HookRecord where
  hookName := .ofText hookName
  hookType := hookType
  filePath := filePath.map ScalarText.ofText
  line := line
  sourceType := attribution.sourceType
  sourceName := .ofText attribution.sourceName
  detectionMethod := method
  firstSeen := now
  lastSeen := now

end HookRecord

namespace Settings

/-- The classifier by all configured roots, whether they are scanned or not. -/
def classifier (settings : Settings) : SourceClassifier SourceType :=
  SourceClassifier.ofRoots settings.sourceRoots

def recordedPath (settings : Settings) (file : Path) : Text :=
  (file.relativeTo settings.baseDir).text

end Settings

/-- The record of a call site in a source file. -/
def recordOfSite (settings : Settings) (file : Path) (now : Timestamp) (site : Php.CallSite) :
    HookRecord :=
  HookRecord.observed site.hookName site.hookType (some (settings.recordedPath file))
    (some site.line.toNat) (settings.classifier.classify file) .static now

/-- The records of the text of a source file. -/
def recordsOfSource (settings : Settings) (clock : Except ClockError Timestamp) (file : Path)
    (source : Text) : Except ClockError (List HookRecord) :=
  match Php.callSites settings.callees (Php.tokenize source) with
  | [] => .ok []
  | sites => clock.map fun now => sites.map (recordOfSite settings file now)

/-- The records of a source file; a file that cannot be read has none. -/
def recordsOfFile (settings : Settings) (tree : FileTree) (clock : Except ClockError Timestamp)
    (file : Path) : Except ClockError (List HookRecord) × List Notice :=
  match tree.readFile? file with
  | none => (.ok [], [.unreadableFile])
  | some bytes => (recordsOfSource settings clock file (SourceText.ofBytes bytes), [])

end HookAtlas
