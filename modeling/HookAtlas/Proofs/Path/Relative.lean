/-
# A stored path locates its file

The path of a file relative to a base directory is stored as a text.  Read again and followed from the base
directory, it leads to the file.  Below the base directory only names are stored, so following them from the base
directory and from its absolute path is the same; outside the whole absolute path is stored, which replaces the
base directory.

Where relative paths start from does not matter, as long as it is one working directory for the file, the base
directory and the stored path.
-/

import HookAtlas.Proofs.Path.Absolute
import HookAtlas.Proofs.Text.Run

namespace HookAtlas

/-! ## Cutting and joining texts -/

namespace Text

variable {separator : CodePoint} {part : Text} {parts : List Text}

@[simp]
theorem split_nil (separator : CodePoint) : split separator [] = [[]] := rfl

@[simp]
theorem split_separator (separator : CodePoint) (t : Text) :
    split separator (separator :: t) = [] :: split separator t := by
  rw [split, if_pos rfl]

/-- No part of a cut text holds the separator. -/
theorem not_mem_of_mem_split {t : Text} (hmem : part ∈ split separator t) : separator ∉ part := by
  induction t generalizing part with
  | nil =>
      rw [split_nil, List.mem_singleton] at hmem
      rw [hmem]
      exact List.not_mem_nil
  | cons c t ih =>
      rw [split] at hmem
      split at hmem
      · rcases List.mem_cons.mp hmem with rfl | hmem
        · exact List.not_mem_nil
        · exact ih hmem
      · next hother =>
          split at hmem
          · rw [List.mem_singleton] at hmem
            rw [hmem, List.mem_singleton]
            exact Ne.symm hother
          · next first others hsplit =>
              rw [hsplit] at ih
              rcases List.mem_cons.mp hmem with rfl | hmem
              · rw [List.mem_cons, not_or]
                exact ⟨Ne.symm hother, ih List.mem_cons_self⟩
              · exact ih (List.mem_cons_of_mem first hmem)

/-- A text is cut behind a part without separator. -/
theorem split_append (hpart : separator ∉ part) (t : Text) :
    split separator (part ++ separator :: t) = part :: split separator t := by
  induction part with
  | nil => rw [List.nil_append, split_separator]
  | cons c part ih =>
      rw [List.mem_cons, not_or] at hpart
      rw [List.cons_append, split, if_neg (Ne.symm hpart.1), ih hpart.2]

/-- A text without separator is not cut. -/
theorem split_eq_singleton (hpart : separator ∉ part) : split separator part = [part] := by
  induction part with
  | nil => rfl
  | cons c part ih =>
      rw [List.mem_cons, not_or] at hpart
      rw [split, if_neg (Ne.symm hpart.1), ih hpart.2]

/-- Cutting undoes joining. -/
theorem split_join (hparts : ∀ part ∈ parts, separator ∉ part) (hne : parts ≠ []) :
    split separator (join [separator] parts) = parts := by
  induction parts with
  | nil => exact absurd rfl hne
  | cons part parts ih =>
      have hpart := hparts part List.mem_cons_self
      cases parts with
      | nil => exact split_eq_singleton hpart
      | cons other parts =>
          have hrest := ih (fun part hmem => hparts part (List.mem_cons_of_mem _ hmem)) (List.cons_ne_nil _ _)
          change split separator (part ++ [separator] ++ join [separator] (other :: parts)) = _
          rw [List.append_assoc, List.singleton_append, split_append hpart, hrest]

end Text

namespace Path

/-! ## Reading what was written -/

/-- A part that a path may have when it is read: `..` or a name, and no slash in it. -/
def IsPart (part : Text) : Prop :=
  isKept part = true ∧ CodePoint.ofChar '/' ∉ part

variable {parts : List Text} {base file p : Path}

theorem isPart_of_mem_ofText {t part : Text} (hmem : part ∈ (ofText t).parts) : IsPart part := by
  obtain ⟨hpart, hkept⟩ := List.mem_filter.mp hmem
  exact ⟨hkept, Text.not_mem_of_mem_split hpart⟩

theorem isPart_of_mem_join {next : Path} (hbase : ∀ part ∈ base.parts, IsPart part)
    (hnext : ∀ part ∈ next.parts, IsPart part) : ∀ part ∈ (base.join next).parts, IsPart part := by
  intro part hmem
  rw [join] at hmem
  split at hmem
  · rcases List.mem_append.mp hmem with hmem | hmem
    · exact hbase part hmem
    · exact hnext part hmem
  · exact hnext part hmem

theorem isPart_of_mem_relativeTo (hfile : ∀ part ∈ file.parts, IsPart part) :
    ∀ part ∈ (file.relativeTo base).parts, IsPart part := by
  have habsolute : ∀ part ∈ file.absolute.parts, IsPart part :=
    fun part hmem => hfile part (mem_resolveParts hmem).1
  intro part hmem
  rw [relativeTo] at hmem
  split at hmem
  · next parts hbelow =>
      refine habsolute part ?_
      rw [(below?_eq_some_iff.mp hbelow).2]
      exact List.mem_append_right _ hmem
  · exact habsolute part hmem

/-- Parts in a row start with the first of them, so with no slash. -/
theorem startsOutside_join (hparts : ∀ part ∈ parts, IsPart part) :
    Text.StartsOutside (fun c => c = CodePoint.ofChar '/') (Text.join (Text.ofChars ['/']) parts) := by
  cases parts with
  | nil => exact Text.startsOutside_nil
  | cons part parts =>
      obtain ⟨hkept, hslash⟩ := hparts part List.mem_cons_self
      cases part with
      | nil => cases hkept
      | cons c part =>
          rw [List.mem_cons, not_or] at hslash
          have hfirst : decide (c = CodePoint.ofChar '/') = false := decide_eq_false (Ne.symm hslash.1)
          cases parts with
          | nil => exact Text.startsOutside_cons.mpr hfirst
          | cons other parts => exact Text.startsOutside_cons.mpr hfirst

/-- The slashes that a text starts with are its anchor. -/
theorem anchor_ofText (anchor : Anchor) {t : Text}
    (hstart : Text.StartsOutside (fun c => c = CodePoint.ofChar '/') t) :
    Anchor.ofText (anchor.text ++ t) = anchor := by
  have hslashes : ∀ c ∈ anchor.text, decide (c = CodePoint.ofChar '/') = true := by
    cases anchor <;> decide
  rw [Anchor.ofText, Text.runLength_append hslashes hstart]
  cases anchor with
  | relative => rfl
  | root => rfl
  | doubleRoot => rfl

/-- The slashes of an anchor cut off nothing but empty parts. -/
theorem filter_split_anchor (anchor : Anchor) (t : Text) :
    ((anchor.text ++ t).split '/').filter isKept = (t.split '/').filter isKept := by
  have hslash (t : Text) : (Text.split '/' (CodePoint.ofChar '/' :: t)).filter isKept =
      (t.split '/').filter isKept := by
    rw [Text.split_separator]
    rfl
  cases anchor with
  | relative => rfl
  | root => exact hslash t
  | doubleRoot => exact (hslash _).trans (hslash t)

theorem filter_split_join (hparts : ∀ part ∈ parts, IsPart part) :
    ((Text.join (Text.ofChars ['/']) parts).split '/').filter isKept = parts := by
  by_cases hempty : parts = []
  · rw [hempty]
    rfl
  · have hsplit : (Text.join (Text.ofChars ['/']) parts).split '/' = parts :=
      Text.split_join (fun part hmem => (hparts part hmem).2) hempty
    rw [hsplit]
    exact List.filter_eq_self.mpr fun part hmem => (hparts part hmem).1

/-- A path is read as it was written. -/
theorem ofText_text (hparts : ∀ part ∈ p.parts, IsPart part) : ofText p.text = p := by
  rw [text]
  split
  · next hcurrent =>
      obtain ⟨anchor, parts⟩ := p
      obtain ⟨rfl, rfl⟩ := hcurrent
      rfl
  · rw [ofText, anchor_ofText p.anchor (startsOutside_join hparts), filter_split_anchor,
      filter_split_join hparts]

/-! ## Following a relative path -/

theorem join_assoc (first second third : Path) :
    first.join (second.join third) = (first.join second).join third := by
  by_cases hthird : third.anchor = .relative
  · by_cases hsecond : second.anchor = .relative
    · simp [join, hsecond, hthird]
    · simp [join, hsecond, hthird]
  · simp [join, hthird]

/-- Names that follow some parts come behind what is left of these when they are resolved. -/
theorem resolveParts_append (above : List Text) (hparts : ∀ part ∈ parts, part ≠ parent) :
    resolveParts (above ++ parts) = resolveParts above ++ parts := by
  rw [resolveParts, List.foldl_append, foldl_descend_eq hparts, List.reverse_append, List.reverse_reverse,
    resolveParts]

/-- Followed from the base directory, the relative path of a file leads to the file. -/
theorem absolute_join_relativeTo (base file : Path) :
    (base.join (file.relativeTo base)).absolute = file.absolute := by
  rw [relativeTo]
  split
  · next parts hbelow =>
      obtain ⟨hanchor, hparts⟩ := below?_eq_some_iff.mp hbelow
      have hnames : ∀ part ∈ parts, part ≠ parent := by
        intro part hmem
        refine file.isAbsolute_absolute.part_ne part ?_
        rw [hparts]
        exact List.mem_append_right _ hmem
      calc (base.join ⟨.relative, parts⟩).absolute
          = ⟨base.absolute.anchor, resolveParts (base.parts ++ parts)⟩ := rfl
        _ = ⟨base.absolute.anchor, base.absolute.parts ++ parts⟩ := by
          rw [resolveParts_append base.parts hnames]
          rfl
        _ = file.absolute := by rw [← hanchor, ← hparts]
  · rw [join, if_neg file.isAbsolute_absolute.anchor_ne, absolute_absolute]

/-! ## Stored paths -/

/-- The path that a text names for a program that runs in a working directory. -/
def namedIn (working : Path) (t : Text) : Path :=
  working.join (ofText t)

/-- The text under which a file is stored, relative to a base directory. -/
def storedText (working : Path) (base file : Text) : Text :=
  ((namedIn working file).relativeTo (namedIn working base)).text

/-- A stored path locates its file: followed from the base directory it leads to the absolute path of the file,
however the file, the base directory and the working directory are spelled.  So two files are stored under one
text only if they have one absolute path. -/
theorem storedText_locates (working base : Text) :
    (∀ file, ((ofText working).join ((ofText base).join
        (ofText (storedText (ofText working) base file)))).absolute =
      (namedIn (ofText working) file).absolute) ∧
    ∀ file other, storedText (ofText working) base file = storedText (ofText working) base other ↔
      (namedIn (ofText working) file).absolute = (namedIn (ofText working) other).absolute := by
  have hlocates : ∀ file, ((ofText working).join ((ofText base).join
      (ofText (storedText (ofText working) base file)))).absolute =
        (namedIn (ofText working) file).absolute := by
    intro file
    have hparts : ∀ part ∈ (namedIn (ofText working) file).parts, IsPart part :=
      isPart_of_mem_join (fun _ => isPart_of_mem_ofText) fun _ => isPart_of_mem_ofText
    rw [storedText, ofText_text (isPart_of_mem_relativeTo hparts), join_assoc]
    exact absolute_join_relativeTo _ _
  refine ⟨hlocates, fun file other => ⟨fun hstored => ?_, fun habsolute => ?_⟩⟩
  · rw [← hlocates file, hstored, hlocates other]
  · rw [storedText, storedText, ← relativeTo_absolute, habsolute, relativeTo_absolute]

/-- Two leading slashes stay apart from one: a file below one slash lies outside a base below two. -/
example : storedText (ofText "/srv") "//srv/./site/.." "x/../site/a.php" = "/srv/site/a.php" := by
  cbv

end Path

end HookAtlas
