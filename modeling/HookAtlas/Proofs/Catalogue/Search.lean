/-
# What a search finds

A search asks for a text with a wildcard at both ends, after a backslash was put in front of every character
of the text that is special in a pattern.  Read as a pattern the text then stands for itself, so the pattern
matches exactly the names in which it occurs.

Names and patterns are compared after a map of single code points.  Which one is left open; it has to keep the
special characters and may make nothing else one.  The lower-case map by which listings compare is such a map.
-/

import HookAtlas.Catalogue.Filter

namespace HookAtlas

namespace Like

variable {fold : CodePoint → CodePoint} {c p special : CodePoint} {ps q t : Text}

/-- A map of code points keeps the special characters of patterns and makes nothing else one. -/
def KeepsSpecials (fold : CodePoint → CodePoint) : Prop :=
  ∀ c special, isSpecial special = true → (fold c = special ↔ c = special)

/-- Every backslash of a pattern has a character behind it to make literal. -/
def isWellFormed : Text → Bool
  | [] => true
  | [p] => p ≠ '\\'
  | p :: q :: qs => if p = '\\' then isWellFormed qs else isWellFormed (q :: qs)

/-- Put a backslash in front of every occurrence of one character. -/
def guardOne (special : CodePoint) (t : Text) : Text :=
  t.flatMap fun c => if c = special then ['\\', c] else [c]

theorem isSpecial_iff : isSpecial c = true ↔ c = '\\' ∨ c = '%' ∨ c = '_' := by
  simp [isSpecial, or_assoc]

/-! ## Escaping -/

theorem escape_cons_of_special (hspecial : isSpecial c = true) (t : Text) :
    escape (c :: t) = CodePoint.ofChar '\\' :: c :: escape t := by
  simp [escape, hspecial]

theorem escape_cons_of_plain (hplain : ¬ isSpecial c = true) (t : Text) :
    escape (c :: t) = c :: escape t := by
  simp [escape, hplain]

/-- Escaping guards the three special characters one after the other.  The backslash comes first, so the
backslashes that are put in front of the other two are not guarded again. -/
theorem escape_eq_guardOne (t : Text) :
    escape t = guardOne '_' (guardOne '%' (guardOne '\\' t)) := by
  induction t with
  | nil => rfl
  | cons c t ih =>
      by_cases hspecial : isSpecial c = true
      · rw [escape_cons_of_special hspecial, ih]
        obtain rfl | rfl | rfl := isSpecial_iff.mp hspecial
        · simp +decide [guardOne]
        · simp +decide [guardOne]
        · simp +decide [guardOne]
      · rw [escape_cons_of_plain hspecial, ih]
        simp only [isSpecial_iff, not_or] at hspecial
        simp [guardOne, hspecial]

theorem KeepsSpecials.isSpecial_fold (hfold : KeepsSpecials fold) (c : CodePoint) :
    isSpecial (fold c) = isSpecial c := by
  have hiff : isSpecial (fold c) = true ↔ isSpecial c = true := by
    simp only [isSpecial_iff, hfold c _ (isSpecial_iff.mpr (.inl rfl)),
      hfold c _ (isSpecial_iff.mpr (.inr (.inl rfl))), hfold c _ (isSpecial_iff.mpr (.inr (.inr rfl)))]
  exact Bool.eq_iff_iff.mpr hiff

theorem KeepsSpecials.fold_eq (hfold : KeepsSpecials fold) (hspecial : isSpecial special = true) :
    fold special = special :=
  (hfold special special hspecial).mpr rfl

/-- It makes no difference whether a text is escaped before it is mapped or afterwards. -/
theorem KeepsSpecials.map_escape (hfold : KeepsSpecials fold) (t : Text) :
    (escape t).map fold = escape (t.map fold) := by
  induction t with
  | nil => rfl
  | cons c t ih =>
      have hsame := hfold.isSpecial_fold c
      by_cases hspecial : isSpecial c = true
      · rw [escape_cons_of_special hspecial, List.map_cons, List.map_cons, List.map_cons,
          escape_cons_of_special (hsame.trans hspecial), ih, hfold.fold_eq (isSpecial_iff.mpr (.inl rfl))]
      · rw [escape_cons_of_plain hspecial, List.map_cons, List.map_cons,
          escape_cons_of_plain (hsame ▸ hspecial), ih]

theorem KeepsSpecials.map_containing (hfold : KeepsSpecials fold) (t : Text) :
    (containing t).map fold = containing (t.map fold) := by
  have hwildcard : fold '%' = '%' := hfold.fold_eq (isSpecial_iff.mpr (.inr (.inl rfl)))
  simp [containing, Text.ofChars, hwildcard, hfold.map_escape]

/-! ## Well-formed patterns -/

theorem isWellFormed_backslash_cons (p : CodePoint) (ps : Text) :
    isWellFormed ('\\' :: p :: ps) = isWellFormed ps := by
  rw [isWellFormed, if_pos rfl]

theorem isWellFormed_cons_of_ne (hne : p ≠ '\\') (ps : Text) :
    isWellFormed (p :: ps) = isWellFormed ps := by
  cases ps with
  | nil => simp [isWellFormed, hne]
  | cons q qs => rw [isWellFormed, if_neg hne]

/-- An escaped text leaves no backslash without a character behind it. -/
theorem isWellFormed_escape_append (q ps : Text) :
    isWellFormed (escape q ++ ps) = isWellFormed ps := by
  induction q with
  | nil => rfl
  | cons c q ih =>
      by_cases hspecial : isSpecial c = true
      · rw [escape_cons_of_special hspecial, List.cons_append, List.cons_append,
          isWellFormed_backslash_cons, ih]
      · have hbackslash : c ≠ '\\' := fun heq => hspecial (isSpecial_iff.mpr (.inl heq))
        rw [escape_cons_of_plain hspecial, List.cons_append, isWellFormed_cons_of_ne hbackslash, ih]

theorem isWellFormed_containing (q : Text) : isWellFormed (containing q) = true := by
  rw [containing, isWellFormed_cons_of_ne (by decide), isWellFormed_escape_append]
  decide

/-! ## Matching -/

/-- A wildcard for runs matches what its rest matches behind any part of the text. -/
theorem accepts_wildcard_iff (ps t : Text) :
    accepts ('%' :: ps) t = true ↔ ∃ rest, rest <:+ t ∧ accepts ps rest = true := by
  induction t with
  | nil =>
      rw [accepts.eq_def]
      simp
  | cons c t ih =>
      rw [accepts.eq_def]
      simp only [if_true, Bool.or_eq_true, ih]
      constructor
      · rintro (hhere | ⟨rest, hsuffix, hrest⟩)
        · exact ⟨c :: t, List.suffix_refl _, hhere⟩
        · exact ⟨rest, hsuffix.trans (List.suffix_cons c t), hrest⟩
      · rintro ⟨rest, hsuffix, hrest⟩
        obtain rfl | hsuffix := List.suffix_cons_iff.mp hsuffix
        · exact .inl hrest
        · exact .inr ⟨rest, hsuffix, hrest⟩

theorem accepts_backslash_iff (p : CodePoint) (ps t : Text) :
    accepts ('\\' :: p :: ps) t = true ↔ ∃ cs, t = p :: cs ∧ accepts ps cs = true := by
  have hwildcard : CodePoint.ofChar '\\' ≠ CodePoint.ofChar '%' := by decide
  have hany : CodePoint.ofChar '\\' ≠ CodePoint.ofChar '_' := by decide
  rw [accepts.eq_def]
  cases t with
  | nil => simp [hwildcard]
  | cons c cs => simp [hwildcard, hany, @eq_comm _ p c, and_assoc]

theorem accepts_plain_iff (hplain : ¬ isSpecial p = true) (ps t : Text) :
    accepts (p :: ps) t = true ↔ ∃ cs, t = p :: cs ∧ accepts ps cs = true := by
  simp only [isSpecial_iff, not_or] at hplain
  rw [accepts.eq_def]
  cases t with
  | nil => simp [hplain]
  | cons c cs => simp [hplain, @eq_comm _ p c, and_assoc]

/-- An escaped text in a pattern matches itself and nothing else. -/
theorem accepts_escape_append_iff (q ps t : Text) :
    accepts (escape q ++ ps) t = true ↔ ∃ rest, t = q ++ rest ∧ accepts ps rest = true := by
  induction q generalizing t with
  | nil => simp [escape]
  | cons c q ih =>
      have hhead : accepts (escape (c :: q) ++ ps) t = true ↔
          ∃ cs, t = c :: cs ∧ accepts (escape q ++ ps) cs = true := by
        by_cases hspecial : isSpecial c = true
        · rw [escape_cons_of_special hspecial]
          exact accepts_backslash_iff c (escape q ++ ps) t
        · rw [escape_cons_of_plain hspecial]
          exact accepts_plain_iff hspecial (escape q ++ ps) t
      simp only [hhead, ih]
      constructor
      · rintro ⟨cs, rfl, rest, rfl, hrest⟩
        exact ⟨rest, rfl, hrest⟩
      · rintro ⟨rest, rfl, hrest⟩
        exact ⟨q ++ rest, rfl, rest, rfl, hrest⟩

/-- The pattern of a search matches the texts in which the text that is searched for occurs. -/
theorem accepts_containing_iff (q t : Text) : accepts (containing q) t = true ↔ q <:+: t := by
  have hlast : ∀ rest, accepts (Text.ofChars ['%']) rest = true := fun rest =>
    (accepts_wildcard_iff [] rest).mpr ⟨[], List.nil_suffix, by simp [accepts.eq_def]⟩
  rw [containing, accepts_wildcard_iff]
  simp only [accepts_escape_append_iff, hlast, and_true, List.infix_iff_prefix_suffix]
  constructor
  · rintro ⟨_, hsuffix, rest, rfl⟩
    exact ⟨_, List.prefix_append q rest, hsuffix⟩
  · rintro ⟨part, ⟨rest, rfl⟩, hsuffix⟩
    exact ⟨_, hsuffix, rest, rfl⟩

theorem KeepsSpecials.matchesUnder_containing_iff (hfold : KeepsSpecials fold) (q t : Text) :
    matchesUnder fold (containing q) t = true ↔ q.map fold <:+: t.map fold := by
  rw [matchesUnder, hfold.map_containing, accepts_containing_iff]

/-! ## Comparing in lower case -/

/-- The small letters of the table come after the special characters. -/
theorem le_of_small? {run : CaseRun} {n small : Nat} (hmem : run ∈ CaseRun.table)
    (hsmall : run.small? n = some small) : 0x61 ≤ small := by
  have htargets : ∀ run ∈ CaseRun.table, 0x61 ≤ run.target := by decide +kernel
  have htarget := htargets run hmem
  unfold CaseRun.small? at hsmall
  split at hsmall
  · cases hsmall
    omega
  · cases hsmall

theorem val_of_isSpecial (hspecial : isSpecial c = true) :
    c.val = 0x5C ∨ c.val = 0x25 ∨ c.val = 0x5F := by
  obtain rfl | rfl | rfl := isSpecial_iff.mp hspecial
  · exact .inl rfl
  · exact .inr (.inl rfl)
  · exact .inr (.inr rfl)

theorem le_val_ofNat {n bound : Nat} (hle : bound ≤ n) (hbound : bound ≤ 0xFFFD) :
    bound ≤ (CodePoint.ofNat n).val := by
  unfold CodePoint.ofNat
  split
  · exact hle
  · exact hbound

theorem le_val_lower (hbeyond : 0x80 ≤ c.val) : 0x61 ≤ c.lower.val := by
  unfold CodePoint.lower CodePoint.lowerFromTable
  rw [if_neg (Nat.not_lt.mpr hbeyond)]
  split
  · decide
  · split
    · next hsmall =>
        obtain ⟨run, hmem, hrun⟩ := List.exists_of_findSome?_eq_some hsmall
        exact le_val_ofNat (le_of_small? hmem hrun) (by decide)
    · omega

/-- The map by which listings compare keeps the special characters and makes nothing else one. -/
theorem keepsSpecials_lower : KeepsSpecials CodePoint.lower := by
  intro c special hspecial
  have hval := val_of_isSpecial hspecial
  by_cases hbeyond : 0x80 ≤ c.val
  · have hlower := le_val_lower hbeyond
    constructor
    · rintro rfl
      omega
    · rintro rfl
      omega
  · unfold CodePoint.lower CodePoint.asciiLower
    rw [if_pos (Nat.lt_of_not_le hbeyond)]
    split
    · next hcapital =>
        have hsmall : 0x61 ≤ (CodePoint.ofNat (c.val + 32)).val :=
          le_val_ofNat (by omega) (by decide)
        constructor
        · rintro rfl
          omega
        · rintro rfl
          omega
    · rfl

end Like

namespace HookFilter

open Like

/-- A search adds one condition.  Its pattern is the text that is searched for, without white space around it
and with its special characters guarded, between two wildcards.  The pattern is well formed and matches a name
exactly if the text occurs in it, both compared after any map that keeps the special characters. -/
theorem search_matches_literally {fold : CodePoint → CodePoint} (hfold : KeepsSpecials fold)
    {query : Text} (hquery : query.trim ≠ []) (filter : HookFilter) :
    ∃ pattern, filter.add (.search (some query)) = filter.push .nameMatches pattern ∧
      pattern = Text.mark '%' ++ guardOne '_' (guardOne '%' (guardOne '\\' query.trim)) ++ Text.mark '%' ∧
      isWellFormed pattern = true ∧
      ∀ name, matchesUnder fold pattern name = true ↔ query.trim.map fold <:+: name.map fold := by
  refine ⟨containing query.trim, ?_, ?_, isWellFormed_containing query.trim,
    hfold.matchesUnder_containing_iff query.trim⟩
  · rw [add, if_neg hquery]
  · rw [← escape_eq_guardOne]
    rfl

/-- All three special characters, in lower case: the underscore of the query matches no other character. -/
theorem search_matches_literally_specials :
    KeepsSpecials CodePoint.lower ∧ Text.trim " A_%\\" ≠ [] ∧
      ∃ pattern, empty.add (.search (some " A_%\\")) = empty.push .nameMatches pattern ∧
        pattern = Text.ofString "%A\\_\\%\\\\%" ∧ isWellFormed pattern = true ∧
        matchesUnder CodePoint.lower pattern "wp_a_%\\b" = true ∧
        matchesUnder CodePoint.lower pattern "wp_ax%\\b" = false := by
  have hquery : Text.trim " A_%\\" ≠ [] := by decide +kernel
  obtain ⟨pattern, hadd, hpattern, hwell, hmatches⟩ :=
    search_matches_literally keepsSpecials_lower hquery empty
  refine ⟨keepsSpecials_lower, hquery, pattern, hadd, hpattern.trans (by decide +kernel), hwell, ?_, ?_⟩
  · exact (hmatches _).mpr (by decide +kernel)
  · exact Bool.eq_false_iff.mpr fun hmatch => absurd ((hmatches _).mp hmatch) (by decide +kernel)

end HookFilter

end HookAtlas
