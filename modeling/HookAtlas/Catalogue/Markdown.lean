/-
# The catalogue as a document

The document has a table of contents with one link per hook name, and one section per name with an
entry for each place where the hook was seen.  Sections and entries are in the order of a listing.

The document is made as a list of lines, which are then joined by line feeds.
-/

import HookAtlas.Catalogue.Listing
import HookAtlas.Catalogue.Slug

namespace HookAtlas

namespace Markdown

/-- The names of the hooks of listed rows, each once. -/
def names (rows : List CacheRow) : List Text :=
  (rows.map fun row => row.record.hookName.text).eraseReps

/-- The moment a document was made, in words.  The year is not filled up with zeros. -/
def momentText (now : Timestamp) : Text :=
  Number.natText now.year ++ Text.mark '-' ++ now.monthDayText ++ Text.mark ' ' ++ now.timeText

/-- The lines before the table of contents. -/
def heading (now : Timestamp) : List Text :=
  ["# Site Hooks", [], Text.ofString "_Generated: " ++ momentText now ++ Text.ofString " UTC_", [],
    "## Table of Contents", []]

def contentsLine (name : Text) : Text :=
  Text.ofString "- [" ++ name ++ Text.ofString "](#" ++ slugify name ++ Text.ofString ")"

/-- The lines that open the section of a name. -/
def sectionHeading (name : Text) : List Text :=
  ["---", [], Text.ofString "### " ++ name, []]

/-- The source of a row in words: the part of the site and the name, those that are known. -/
def sourceText (record : HookRecord) : Text :=
  Text.join (Text.mark ' ') ([record.sourceType.name, record.sourceName.text].filter (· ≠ []))

/-- The place of a row: its file, and its line where that is known. -/
def locationText? (record : HookRecord) : Option Text :=
  match record.filePath with
  | none => none
  | some path =>
    if path.text = [] then none
    else
      some (path.text ++ record.line.elim [] fun line => Text.mark ':' ++ Number.natText line)

/-- The lines for a row: its type and source, and its place. -/
def entryLines (record : HookRecord) : List Text :=
  let source := sourceText record
  let entry := Text.ofString "- " ++ record.hookType.name ++
    (if source = [] then [] else Text.ofString " - " ++ source)
  entry :: (locationText? record).toList.map fun location =>
    Text.ofString "  - \x60" ++ location ++ Text.ofString "\x60"

/-- The sections of listed rows, given the name of the section that is open. -/
def sections (current : Option Text) : List CacheRow → List Text
  | [] => []
  | row :: rows =>
    let name := row.record.hookName.text
    (if current = some name then [] else sectionHeading name) ++ entryLines row.record ++
      sections (some name) rows

def documentLines (now : Timestamp) (rows : List CacheRow) : List Text :=
  heading now ++ (names rows).map contentsLine ++ [[]] ++ sections none rows ++
    (if rows = [] then [] else [[]])

end Markdown

/-- The catalogue as a document. -/
def Store.markdown (now : Timestamp) (store : Store) : Except StoreError Text :=
  store.listedRows.map fun rows =>
    Text.join (Text.mark '\n') (Markdown.documentLines now rows)

end HookAtlas
