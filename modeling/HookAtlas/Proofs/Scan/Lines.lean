/-
# The lines of call sites

Decoding the bytes of a source file and making its line breaks alike lengthen nothing: the decoder writes at
most one code point for each byte, and one for a sequence that is left open.  A call site stands on the line
behind the line feeds before it, so its line is at most the length of the file.  No file is long enough for a
batch of such records to overflow.  So a scan never raises when its records are written.
-/

import HookAtlas.Proofs.Cache.Replace
import HookAtlas.Proofs.Php.LiteralCall
import HookAtlas.Proofs.Php.Lossless
import HookAtlas.Scan.Visit

namespace HookAtlas

namespace Utf8

variable {invalid : List Nat → Text}

/-- How much is yet to be written at least for the state of the machine: one code point for an open
sequence. -/
def openLength (state : Option Sequence) : Nat :=
  state.elim 0 fun _ => 1

theorem length_start_le (hinvalid : ∀ bytes, (invalid bytes).length = 1) (b : Nat) :
    (start invalid b).output.length + openLength (start invalid b).state ≤ 1 := by
  rw [start]
  repeat' split
  all_goals simp [openLength, hinvalid]

/-- One byte writes or opens at most one code point more. -/
theorem length_step_le (hinvalid : ∀ bytes, (invalid bytes).length = 1) (state : Option Sequence)
    (b : Nat) : (step invalid state b).output.length + openLength (step invalid state b).state ≤
      openLength state + 1 := by
  cases state with
  | none => exact length_start_le hinvalid b
  | some s =>
      rw [step]
      split
      · dsimp only
        split
        · exact Nat.le_succ 1
        · exact Nat.le_succ 1
      · have hnext := length_start_le hinvalid b
        dsimp only [openLength, Option.elim_some] at hnext ⊢
        rw [List.length_append, hinvalid]
        omega

theorem length_decodeFrom_le (hinvalid : ∀ bytes, (invalid bytes).length = 1)
    (state : Option Sequence) (bytes : List Nat) :
    (decodeFrom invalid state bytes).length ≤ openLength state + bytes.length := by
  induction bytes generalizing state with
  | nil =>
      cases state with
      | none => exact Nat.le_refl 0
      | some s => exact Nat.le_of_eq (hinvalid s.bytes)
  | cons b bs ih =>
      have hstep := length_step_le hinvalid state b
      have hrest := ih (step invalid state b).state
      rw [decodeFrom, List.length_append, List.length_cons]
      omega

/-- A decoded text is no longer than its bytes. -/
theorem length_decode_le (bytes : List Nat) : (decode bytes).length ≤ bytes.length := by
  have hlength := @length_decodeFrom_le (fun _ => [CodePoint.replacement]) (fun _ => rfl) none bytes
  rwa [openLength, Option.elim_none, Nat.zero_add] at hlength

end Utf8

namespace SourceText

theorem length_unifyLineBreaks_le (t : Text) : (unifyLineBreaks t).length ≤ t.length := by
  induction t with
  | nil => exact Nat.le_refl 0
  | cons c cs ih =>
      rw [unifyLineBreaks, List.length_cons]
      split
      · split
        · omega
        · rw [List.length_cons]
          omega
      · rw [List.length_cons]
        omega

/-- The text of a source file has at most one code point for each byte. -/
theorem length_ofBytes_le (bytes : List Nat) : (ofBytes bytes).length ≤ bytes.length := by
  have hbytes : (dropByteOrderMark bytes).length ≤ bytes.length := by
    rw [dropByteOrderMark]
    split
    · rw [List.length_drop]
      omega
    · exact Nat.le_refl _
  calc (ofBytes bytes).length
      ≤ (Utf8.decode (dropByteOrderMark bytes)).length := length_unifyLineBreaks_le _
    _ ≤ (dropByteOrderMark bytes).length := Utf8.length_decode_le _
    _ ≤ bytes.length := hbytes

end SourceText

namespace Php

/-- The line of a call site is at most the length of the source: before the call stands a line feed for each
line but the first. -/
theorem line_le_length {callees : Callees} {source : Text} {site : CallSite}
    (hmem : site ∈ callSites callees (tokenize source)) : site.line.toNat ≤ source.length := by
  obtain ⟨before, token, after, hsplit, hfound⟩ := exists_split_of_mem_callSites hmem
  obtain ⟨hnonempty, hprefix, -, hline, -⟩ := lex_lossless source
  have htoken := List.length_pos_iff.mpr (hnonempty token (by rw [← tokenize, hsplit]; simp))
  have hcovered := hprefix.length_le
  have hfeeds : (coveredText before).lineFeeds ≤ (coveredText before).length := List.countP_le_length
  rw [← tokenize, hsplit, coveredText, List.flatMap_append, List.flatMap_cons, ← coveredText,
    List.length_append, List.length_append] at hcovered
  rw [(callSiteAt?_eq_some hfound).2.2, hline before token after hsplit]
  omega

end Php

variable {settings : Settings} {tree : FileTree} {clock : Except ClockError Timestamp}

/-- A file that is read is no longer than the greatest offset. -/
theorem FileTree.length_le_of_readFile? {file : Path} {bytes : List Nat}
    (hread : tree.readFile? file = some bytes) : bytes.length ≤ 9223372036854775807 := by
  rw [readFile?] at hread
  split at hread
  · next content _ =>
      cases hread
      exact content.length_le
  · cases hread

/-- A record of a source file has a line, and it is no greater than a file is long. -/
theorem exists_line_of_mem_recordsOfFile {file : Path} {records : List HookRecord}
    {notices : List Notice} (hrecords : recordsOfFile settings tree clock file = (.ok records, notices)) :
    ∀ record ∈ records, ∃ line, record.line = some line ∧ line < 9223372036854775808 := by
  intro record hmem
  rw [recordsOfFile] at hrecords
  split at hrecords
  · cases hrecords
    cases hmem
  · next bytes hread =>
      have hlength := FileTree.length_le_of_readFile? hread
      have htext := SourceText.length_ofBytes_le bytes
      rw [Prod.mk.injEq, recordsOfSource] at hrecords
      obtain ⟨hrecords, -⟩ := hrecords
      split at hrecords
      · cases hrecords
        cases hmem
      · cases clock with
        | error error => cases hrecords
        | ok now =>
            cases hrecords
            obtain ⟨site, hsite, rfl⟩ := List.mem_map.mp hmem
            have hline := Php.line_le_length hsite
            exact ⟨site.line.toNat, rfl, by omega⟩

theorem exists_line_of_mem_recordsOfFiles {files : List Path} {records : List HookRecord}
    {notices : List Notice}
    (hrecords : recordsOfFiles settings tree clock files = (.ok records, notices)) :
    ∀ record ∈ records, ∃ line, record.line = some line ∧ line < 9223372036854775808 := by
  induction files generalizing records notices with
  | nil =>
      cases hrecords
      exact fun _ hmem => absurd hmem List.not_mem_nil
  | cons file files ih =>
      rw [recordsOfFiles] at hrecords
      split at hrecords
      · cases hrecords
      · next first firstNotices hfile =>
          rcases hrest : recordsOfFiles settings tree clock files with ⟨error | more, moreNotices⟩
          · rw [hrest] at hrecords
            cases hrecords
          · rw [hrest] at hrecords
            cases hrecords
            intro record hmem
            rcases List.mem_append.mp hmem with hmem | hmem
            · exact exists_line_of_mem_recordsOfFile hfile record hmem
            · exact ih hrest record hmem

/-- The records of a scan can be written in batches, however they are cut into chunks. -/
theorem fitsBatches_of_recordsBelow {roots : List Path} {records : List HookRecord}
    {notices : List Notice} (hrecords : recordsBelow settings tree clock roots = (.ok records, notices))
    (size : Nat) : Store.FitsBatches size records :=
  Store.fitsBatches_of_someLines (exists_line_of_mem_recordsOfFiles hrecords)

end HookAtlas
