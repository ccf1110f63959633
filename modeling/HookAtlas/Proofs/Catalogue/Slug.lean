/-
# Anchors are in normal form

What punctuation removal leaves consists of word characters and gaps.  Turning each run of gaps into one hyphen
leaves no two hyphens in a row, and stripping leaves none at the ends.  An `IsAnchor` is a text in this form.
Nothing changes it any more, so the anchor of an anchor is the anchor itself.

All of this holds of any lower-case map that keeps the characters that punctuation removal keeps.  The word
characters of the lower-case text are kept too, all of them and in their order.
-/

import HookAtlas.Catalogue.Slug
import HookAtlas.Proofs.Text.Run

namespace HookAtlas

namespace Slug

/-- The characters of the words of an anchor: small letters, digits and the underscore. -/
def isWord (c : CodePoint) : Bool :=
  (0x61 ≤ c.val && c.val ≤ 0x7A) || c.isAsciiDigit || c.val == 0x5F

/-- A lower-case map that changes no text of small letters, digits, spaces, underscores and hyphens. -/
def KeepsMarks (lower : Text → Text) : Prop :=
  ∀ t, (∀ c ∈ t, isKept c = true) → lower t = t

/-- Words with a hyphen between one and the next. -/
structure IsAnchor (t : Text) : Prop where
  /-- There are word characters and hyphens only. -/
  isWord_or_hyphen : ∀ c ∈ t, isWord c = true ∨ c = '-'
  /-- No hyphen comes first. -/
  starts : t.head? ≠ some (CodePoint.ofChar '-')
  /-- No hyphen comes last. -/
  ends : t.getLast? ≠ some (CodePoint.ofChar '-')
  /-- No two hyphens stand in a row. -/
  single : ¬ Text.ofChars ['-', '-'] <:+: t

/-! ## The classes of characters -/

theorem isKept_iff (c : CodePoint) : isKept c = true ↔ isWord c = true ∨ isGap c = true := by
  simp only [isKept, isWord, isGap, Bool.or_eq_true]
  tauto

theorem isGap_eq_false_of_isWord {c : CodePoint} (hword : isWord c = true) : isGap c = false := by
  rw [Bool.eq_false_iff]
  intro hgap
  simp only [isWord, CodePoint.isAsciiDigit, Bool.or_eq_true, Bool.and_eq_true, decide_eq_true_eq,
    beq_iff_eq] at hword
  simp only [isGap, Bool.or_eq_true, beq_iff_eq] at hgap
  omega

theorem isGap_hyphen : isGap '-' = true := by decide

theorem isWord_hyphen : isWord '-' = false := by decide

/-! ## Hyphens for runs of gaps -/

theorem mem_hyphenate {t : Text} {c : CodePoint} (hmem : c ∈ hyphenate t) :
    c = '-' ∨ c ∈ t ∧ isGap c = false := by
  fun_induction hyphenate t with
  | case1 => cases hmem
  | case2 d cs hgap hmore ih =>
      exact (ih hmem).imp_right fun hword => ⟨List.mem_cons_of_mem d hword.1, hword.2⟩
  | case3 d cs hgap hlast ih =>
      rcases List.mem_cons.mp hmem with rfl | hmem
      · exact .inl rfl
      · exact (ih hmem).imp_right fun hword => ⟨List.mem_cons_of_mem d hword.1, hword.2⟩
  | case4 d cs hword ih =>
      rcases List.mem_cons.mp hmem with rfl | hmem
      · exact .inr ⟨List.mem_cons_self, by simpa using hword⟩
      · exact (ih hmem).imp_right fun hword => ⟨List.mem_cons_of_mem d hword.1, hword.2⟩

/-- No hyphen comes first where no gap does. -/
theorem head?_hyphenate {t : Text} (hhead : t.head?.any isGap = false) :
    (hyphenate t).head? ≠ some (CodePoint.ofChar '-') := by
  cases t with
  | nil => exact nofun
  | cons c cs =>
      rw [List.head?_cons, Option.any_some] at hhead
      rw [hyphenate, hhead]
      intro hhyphen
      have hc : c = '-' := Option.some.inj hhyphen
      rw [hc, isGap_hyphen] at hhead
      cases hhead

/-- A hyphen in front of a text makes two in a row only if the text starts with one. -/
theorem doubled_cons_iff (c : CodePoint) (t : Text) :
    Text.ofChars ['-', '-'] <:+: c :: t ↔
      c = '-' ∧ t.head? = some (CodePoint.ofChar '-') ∨ Text.ofChars ['-', '-'] <:+: t := by
  have hprefix : Text.ofChars ['-', '-'] <+: c :: t ↔ c = '-' ∧ t.head? = some (CodePoint.ofChar '-') := by
    rw [Text.ofChars, List.map_cons, List.map_cons, List.map_nil, List.cons_prefix_cons,
      List.cons_prefix_iff, List.head?_eq_some_iff, eq_comm]
    simp
  rw [List.infix_cons_iff, hprefix]

/-- Hyphens stand alone. -/
theorem single_hyphenate (t : Text) : ¬ Text.ofChars ['-', '-'] <:+: hyphenate t := by
  fun_induction hyphenate t with
  | case1 => decide
  | case2 c cs hgap hmore ih => exact ih
  | case3 c cs hgap hlast ih =>
      rw [doubled_cons_iff]
      rintro (⟨-, hhead⟩ | hdoubled)
      · exact head?_hyphenate (by simpa using hlast) hhead
      · exact ih hdoubled
  | case4 c cs hword ih =>
      rw [doubled_cons_iff]
      rintro (⟨rfl, -⟩ | hdoubled)
      · exact hword isGap_hyphen
      · exact ih hdoubled

/-- Words with single hyphens between them stay as they are. -/
theorem hyphenate_eq_self {t : Text} (hmem : ∀ c ∈ t, isWord c = true ∨ c = '-')
    (hsingle : ¬ Text.ofChars ['-', '-'] <:+: t) : hyphenate t = t := by
  induction t with
  | nil => rfl
  | cons c cs ih =>
      rw [doubled_cons_iff, not_or] at hsingle
      have hrest := ih (fun d hd => hmem d (List.mem_cons_of_mem c hd)) hsingle.2
      rcases hmem c List.mem_cons_self with hword | rfl
      · rw [hyphenate, isGap_eq_false_of_isWord hword, hrest]
        rfl
      · -- No gap comes next: there are no spaces, and another hyphen would make two in a row.
        have hnext : cs.head?.any isGap = false := by
          cases cs with
          | nil => rfl
          | cons d ds =>
              rcases hmem d (by simp) with hword | rfl
              · rw [List.head?_cons, Option.any_some, isGap_eq_false_of_isWord hword]
              · exact absurd ⟨rfl, rfl⟩ hsingle.1
        rw [hyphenate, isGap_hyphen, hnext, hrest]
        rfl

/-- The words are kept as they are. -/
theorem filter_isWord_hyphenate (t : Text) : (hyphenate t).filter isWord = t.filter isWord := by
  have hother {c : CodePoint} (hgap : isGap c = true) : ¬ isWord c = true := by
    intro hword
    rw [isGap_eq_false_of_isWord hword] at hgap
    cases hgap
  fun_induction hyphenate t with
  | case1 => rfl
  | case2 c cs hgap hmore ih => rw [ih, List.filter_cons_of_neg (hother hgap)]
  | case3 c cs hgap hlast ih =>
      rw [List.filter_cons_of_neg (hother isGap_hyphen), ih, List.filter_cons_of_neg (hother hgap)]
  | case4 c cs hword ih => rw [List.filter_cons, List.filter_cons, ih]

/-! ## Anchors -/

theorem isAnchor_ofName (lower : Text → Text) (name : Text) : IsAnchor (ofName lower name) := by
  have hpart := Text.strip_isInfix (fun c => decide (c = '-')) (hyphenate ((lower name).filter isKept))
  refine ⟨fun c hmem => ?_, fun hhead => ?_, fun hlast => ?_, fun hdoubled => ?_⟩
  · rcases mem_hyphenate (hpart.subset hmem) with hhyphen | ⟨hkept, hgap⟩
    · exact .inr hhyphen
    · rcases (isKept_iff c).mp (List.mem_filter.mp hkept).2 with hword | hother
      · exact .inl hword
      · rw [hgap] at hother
        cases hother
  · exact absurd (Text.startsOutside_strip _ _ _ hhead) (by decide)
  · exact absurd (Text.endsOutside_strip _ _ _ hlast) (by decide)
  · exact single_hyphenate _ (hdoubled.trans hpart)

/-- An anchor is its own anchor. -/
theorem ofName_eq_self {lower : Text → Text} (hlower : KeepsMarks lower) {t : Text} (hanchor : IsAnchor t) :
    ofName lower t = t := by
  have hkept : ∀ c ∈ t, isKept c = true := by
    intro c hmem
    rw [isKept_iff]
    rcases hanchor.isWord_or_hyphen c hmem with hword | rfl
    · exact .inl hword
    · exact .inr isGap_hyphen
  rw [ofName, hlower t hkept, List.filter_eq_self.mpr hkept,
    hyphenate_eq_self hanchor.isWord_or_hyphen hanchor.single]
  refine Text.strip_eq_self (fun c hhead => ?_) fun c hlast => ?_
  · exact decide_eq_false fun hhyphen => hanchor.starts (by rw [hhead, hhyphen])
  · exact decide_eq_false fun hhyphen => hanchor.ends (by rw [hlast, hhyphen])

theorem filter_isWord_ofName (lower : Text → Text) (name : Text) :
    (ofName lower name).filter isWord = (lower name).filter isWord := by
  have hapart (c : CodePoint) (hhyphen : decide (c = '-') = true) : isWord c = false := by
    rw [of_decide_eq_true hhyphen, isWord_hyphen]
  rw [ofName, Text.filter_strip hapart, filter_isWord_hyphenate, List.filter_filter]
  refine List.filter_congr fun c _ => ?_
  cases hword : isWord c with
  | true => rw [(isKept_iff c).mpr (.inl hword), Bool.and_self]
  | false => rw [Bool.false_and]

/-! ## The lower-case map -/

/-- Small letters are no capitals, and the other marks of an anchor have no case. -/
theorem keepsMarks_lower : KeepsMarks Text.lower := by
  have hafter (t : Text) : ∀ before, (∀ c ∈ t, isKept c = true) → Text.lowerAfter before t = t := by
    induction t with
    | nil => exact fun _ _ => rfl
    | cons c cs ih =>
        intro before hkept
        have hc := hkept c List.mem_cons_self
        simp only [isKept, CodePoint.isAsciiDigit, Bool.or_eq_true, Bool.and_eq_true,
          decide_eq_true_eq, beq_iff_eq] at hc
        have hlower : c.lower = c := by
          rw [CodePoint.lower, if_pos (by omega), CodePoint.asciiLower, if_neg (by omega)]
        rw [Text.lowerAfter, if_neg (by omega), if_neg (by omega), hlower,
          ih _ fun d hd => hkept d (List.mem_cons_of_mem c hd)]
  exact fun t hkept => hafter t [] hkept

end Slug

/-- Anchors are in normal form.  Under every lower-case map that keeps small letters, digits, spaces, underscores
and hyphens, and under the map in use, the anchor of a name consists of words with single hyphens between them; it is
its own anchor; and its words are what the lower-case name has of word characters, in the same order. -/
theorem slugify_normalForm :
    (∀ lower, Slug.KeepsMarks lower → ∀ name,
      Slug.IsAnchor (Slug.ofName lower name) ∧
      Slug.ofName lower (Slug.ofName lower name) = Slug.ofName lower name ∧
      (Slug.ofName lower name).filter Slug.isWord = (lower name).filter Slug.isWord) ∧
    ∀ name, Slug.IsAnchor (slugify name) ∧ slugify (slugify name) = slugify name ∧
      (slugify name).filter Slug.isWord = name.lower.filter Slug.isWord := by
  have hnormal (lower : Text → Text) (hlower : Slug.KeepsMarks lower) (name : Text) :
      Slug.IsAnchor (Slug.ofName lower name) ∧
      Slug.ofName lower (Slug.ofName lower name) = Slug.ofName lower name ∧
      (Slug.ofName lower name).filter Slug.isWord = (lower name).filter Slug.isWord :=
    ⟨Slug.isAnchor_ofName lower name, Slug.ofName_eq_self hlower (Slug.isAnchor_ofName lower name),
      Slug.filter_isWord_ofName lower name⟩
  exact ⟨hnormal, hnormal Text.lower Slug.keepsMarks_lower⟩

/-- Dropping the points brings spaces and hyphens together, and hyphens to both ends. -/
def ruggedName : Text :=
  ".- Admin -.- Menu_2 -!"

/-- The anchor of a heading with points between its hyphens, and the anchor of that anchor. -/
theorem slugify_normalForm_ruggedName :
    Slug.KeepsMarks Text.lower ∧ slugify ruggedName = "admin-menu_2" ∧
      Slug.IsAnchor (slugify ruggedName) ∧ slugify "admin-menu_2" = "admin-menu_2" := by
  obtain ⟨hanchor, hfixed, -⟩ := slugify_normalForm.1 Text.lower Slug.keepsMarks_lower ruggedName
  have hslug : slugify ruggedName = "admin-menu_2" := by cbv
  refine ⟨Slug.keepsMarks_lower, hslug, hanchor, ?_⟩
  rw [← hslug]
  exact hfixed

end HookAtlas
