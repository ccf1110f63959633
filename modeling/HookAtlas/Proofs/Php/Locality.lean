/-
# No token looks past the next close tag

The recognisers look ahead: along runs, for the next digit of an exponent, for the label of a heredoc.  None
of them looks further than the next close tag, as long as the token that it finds ends before that tag.  For
most the close tag is as good as the end of the source, so that their answers before a close tag are those on
the text before it alone.  The searches for a terminator are the exception.  They may well run over a close
tag, but then so does the token.

The statement is about a text `closedBy t v`: `t`, a close tag, and `v` behind it.  A recogniser that finds a
token of at most `t` there finds the same token whatever stands for `v`.
-/

import HookAtlas.Php.Lexer
import HookAtlas.Proofs.Php.Extent
import HookAtlas.Proofs.Text.Run
import Mathlib.Data.List.Find

namespace HookAtlas.Php

/-- A text up to a close tag, and what follows that tag. -/
def closedBy (t v : Text) : Text :=
  t ++ CodePoint.ofChar '?' :: CodePoint.ofChar '>' :: v

variable {t v w : Text} {n : Nat}

theorem closedBy_nil (v : Text) : closedBy [] v = CodePoint.ofChar '?' :: CodePoint.ofChar '>' :: v := rfl

theorem closedBy_cons (c : CodePoint) (t v : Text) : closedBy (c :: t) v = c :: closedBy t v := rfl

theorem closedBy_append (s t v : Text) : s ++ closedBy t v = closedBy (s ++ t) v := by
  rw [closedBy, closedBy, List.append_assoc]

theorem append_closedBy (t v w : Text) : closedBy t v ++ w = closedBy t (v ++ w) := by
  rw [closedBy, closedBy, List.append_assoc, List.cons_append, List.cons_append]

theorem drop_closedBy (hn : n ≤ t.length) : (closedBy t v).drop n = closedBy (t.drop n) v := by
  rw [closedBy, closedBy, List.drop_append_of_le_length hn]

theorem take_closedBy (hn : n ≤ t.length) : (closedBy t v).take n = t.take n := by
  rw [closedBy, List.take_append_of_le_length hn]

/-- A close tag begins with no code point but the question mark. -/
theorem head?_closedBy_eq_some_iff {c : CodePoint} (hc : c ≠ '?') :
    (closedBy t v).head? = some c ↔ t.head? = some c := by
  cases t with
  | nil => simpa [closedBy_nil] using Ne.symm hc
  | cons d t => rfl

theorem all_head?_closedBy {p : CodePoint → Bool} (hp : p '?' = true) :
    (closedBy t v).head?.all p = t.head?.all p := by
  cases t with
  | nil => exact hp
  | cons d t => rfl

theorem any_head?_closedBy {p : CodePoint → Bool} (hp : p '?' = false) :
    (closedBy t v).head?.any p = t.head?.any p := by
  cases t with
  | nil => exact hp
  | cons d t => rfl

/-! ## Runs and line ends -/

theorem runLength_closedBy {p : CodePoint → Bool} (hp : p '?' = false) :
    Text.runLength p (closedBy t v) = Text.runLength p t := by
  induction t with
  | nil => exact Text.runLength_eq_zero (Text.startsOutside_cons.mpr hp)
  | cons c t ih => rw [closedBy_cons, Text.runLength, ih, Text.runLength]

theorem drop_runLength_closedBy (p : CodePoint → Bool) :
    (closedBy t v).drop (Text.runLength p t) = closedBy (t.drop (Text.runLength p t)) v :=
  drop_closedBy (Text.runLength_le_length p t)

theorem take_runLength_closedBy (p : CodePoint → Bool) :
    (closedBy t v).take (Text.runLength p t) = t.take (Text.runLength p t) :=
  take_closedBy (Text.runLength_le_length p t)

theorem lineBreakLength_closedBy : lineBreakLength (closedBy t v) = lineBreakLength t := by
  cases t with
  | nil => rfl
  | cons c t =>
      have hnext := head?_closedBy_eq_some_iff (t := t) (v := v) (c := '\n') (by decide)
      simp only [closedBy_cons, lineBreakLength, hnext]

theorem lineCommentLength_closedBy : lineCommentLength (closedBy t v) = lineCommentLength t := by
  induction t with
  | nil => rfl
  | cons c t ih =>
      have hnext := head?_closedBy_eq_some_iff (t := t) (v := v) (c := '>') (by decide)
      simp only [closedBy_cons, lineCommentLength, hnext, ih]

/-! ## Numbers -/

theorem exponentLength_closedBy : exponentLength (closedBy t v) = exponentLength t := by
  cases t with
  | nil => rfl
  | cons e t =>
      have hplus := head?_closedBy_eq_some_iff (t := t) (v := v) (c := '+') (by decide)
      have hminus := head?_closedBy_eq_some_iff (t := t) (v := v) (c := '-') (by decide)
      have hsign : (if t.head? = some (CodePoint.ofChar '+') ∨ t.head? = some (CodePoint.ofChar '-') then 1
          else 0) ≤ t.length := by
        cases t with
        | nil => simp
        | cons d t =>
            rw [List.length_cons]
            split <;> omega
      simp only [closedBy_cons, exponentLength, hplus, hminus, drop_closedBy hsign,
        runLength_closedBy (p := CodePoint.isDecimal) (by decide)]

theorem fractionLength_closedBy : fractionLength (closedBy t v) = fractionLength t := by
  cases t with
  | nil => rfl
  | cons c t => rw [closedBy_cons, fractionLength, fractionLength, runLength_closedBy (by decide)]

theorem fractionLength_le_length (t : Text) : fractionLength t ≤ t.length := by
  cases t with
  | nil => exact Nat.le_refl 0
  | cons c t =>
      have hrun := Text.runLength_le_length isDecimalPart t
      rw [fractionLength, List.length_cons]
      split
      · omega
      · exact Nat.zero_le _

theorem decimalRest_closedBy : decimalRest (closedBy t v) = decimalRest t := by
  have hwhole := Text.runLength_le_length isDecimalPart t
  have hfraction := fractionLength_le_length (t.drop (Text.runLength isDecimalPart t))
  rw [List.length_drop] at hfraction
  simp only [decimalRest]
  rw [runLength_closedBy (by decide), drop_closedBy hwhole, fractionLength_closedBy,
    drop_closedBy (by omega), exponentLength_closedBy]

theorem pointRest_closedBy :
    Text.runLength isDecimalPart (closedBy t v) +
        exponentLength ((closedBy t v).drop (Text.runLength isDecimalPart (closedBy t v))) =
      Text.runLength isDecimalPart t + exponentLength (t.drop (Text.runLength isDecimalPart t)) := by
  rw [runLength_closedBy (by decide), drop_runLength_closedBy, exponentLength_closedBy]

theorem numberRest?_closedBy (c : CodePoint) : numberRest? c (closedBy t v) = numberRest? c t := by
  have hdecimal := decimalRest_closedBy (t := t) (v := v)
  have hpoint := pointRest_closedBy (t := t) (v := v)
  have hdigit := any_head?_closedBy (t := t) (v := v) (p := CodePoint.isDecimal) (by decide)
  simp only [numberRest?, hdecimal, hpoint, hdigit]
  cases t with
  | nil =>
      have hhex : ¬(c = '0' ∧ (CodePoint.ofChar '?' = 'x' ∨ CodePoint.ofChar '?' = 'X')) :=
        fun hmark => absurd hmark.2 (by decide)
      have hbinary : ¬(c = '0' ∧ (CodePoint.ofChar '?' = 'b' ∨ CodePoint.ofChar '?' = 'B')) :=
        fun hmark => absurd hmark.2 (by decide)
      simp only [closedBy_nil, if_neg hhex, if_neg hbinary]
  | cons x t =>
      simp only [closedBy_cons, runLength_closedBy (p := isHexPart) (by decide),
        runLength_closedBy (p := isBinaryPart) (by decide)]

/-! ## Searches for a terminator -/

theorem blockEnd?_closedBy (hfound : blockEnd? (closedBy t v) = some n) (hn : n ≤ t.length) (w : Text) :
    blockEnd? (closedBy t w) = some n := by
  induction t generalizing n with
  | nil =>
      have hmark : ¬(CodePoint.ofChar '?' = '*' ∧
          (CodePoint.ofChar '>' :: v).head? = some (CodePoint.ofChar '/')) :=
        fun hclose => absurd hclose.1 (by decide)
      rw [closedBy_nil, blockEnd?, if_neg hmark] at hfound
      obtain ⟨m, -, rfl⟩ := Option.map_eq_some_iff.mp hfound
      exact absurd hn (Nat.not_succ_le_zero m)
  | cons c t ih =>
      have hslash (x : Text) := head?_closedBy_eq_some_iff (t := t) (v := x) (c := '/') (by decide)
      simp only [closedBy_cons, blockEnd?, hslash] at hfound ⊢
      split
      · next hclose =>
          rw [if_pos hclose] at hfound
          exact hfound
      · next hopen =>
          rw [if_neg hopen] at hfound
          obtain ⟨m, hm, rfl⟩ := Option.map_eq_some_iff.mp hfound
          rw [ih hm (Nat.le_of_succ_le_succ hn)]
          rfl

theorem closingQuote?_ne_zero (quote : CodePoint) (cs : Text) : closingQuote? quote cs ≠ some 0 := by
  fun_cases closingQuote? quote cs <;> simp

theorem closingQuote?_escaped {quote : CodePoint} (hother : CodePoint.ofChar '\\' ≠ quote) (d : CodePoint)
    (cs : Text) : closingQuote? quote (CodePoint.ofChar '\\' :: d :: cs) = (closingQuote? quote cs).map (· + 2) := by
  rw [closingQuote?.eq_def]
  dsimp only
  rw [if_neg hother, if_pos rfl]

theorem closingQuote?_plain {quote c : CodePoint} (hother : c ≠ quote) (hplain : c ≠ '\\') (cs : Text) :
    closingQuote? quote (c :: cs) = (closingQuote? quote cs).map (· + 1) := by
  rw [closingQuote?.eq_def]
  dsimp only
  rw [if_neg hother, if_neg hplain]

theorem closingQuote?_closedBy {quote : CodePoint} (hfound : closingQuote? quote (closedBy t v) = some n)
    (hn : n ≤ t.length) (w : Text) : closingQuote? quote (closedBy t w) = some n := by
  fun_induction closingQuote? quote t generalizing n with
  | case1 =>
      rw [Nat.le_zero.mp hn] at hfound
      exact absurd hfound (closingQuote?_ne_zero quote _)
  | case2 t =>
      have hhere (x : Text) : closingQuote? quote (quote :: x) = some 1 := by
        rw [closingQuote?.eq_def]
        exact if_pos rfl
      rw [closedBy_cons, hhere] at hfound ⊢
      exact hfound
  | case3 hother =>
      rw [closedBy_cons, closedBy_nil, closingQuote?_escaped hother] at hfound
      obtain ⟨m, -, rfl⟩ := Option.map_eq_some_iff.mp hfound
      rw [List.length_singleton] at hn
      omega
  | case4 d t hother ih =>
      rw [closedBy_cons, closedBy_cons, closingQuote?_escaped hother] at hfound ⊢
      obtain ⟨m, hm, rfl⟩ := Option.map_eq_some_iff.mp hfound
      rw [ih hm (Nat.le_of_add_le_add_right hn)]
      rfl
  | case5 c t hother hplain ih =>
      rw [closedBy_cons, closingQuote?_plain hother hplain] at hfound ⊢
      obtain ⟨m, hm, rfl⟩ := Option.map_eq_some_iff.mp hfound
      rw [ih hm (Nat.le_of_succ_le_succ hn)]
      rfl

/-! ## Heredocs -/

theorem heredocStart?_closedBy : heredocStart? (closedBy t v) = heredocStart? t := by
  have hsize (body : Text) :=
    runLength_closedBy (t := body) (v := v) (p := CodePoint.isNamePart) (by decide)
  have hstart (body : Text) :=
    all_head?_closedBy (t := body) (v := v) (p := fun c => !c.isNameStart) (by decide)
  simp only [heredocStart?]
  rw [runLength_closedBy (by decide), drop_runLength_closedBy]
  cases t.drop (Text.runLength CodePoint.isSpaceOrTab t) with
  | nil => rfl
  | cons c rest =>
      rw [closedBy_cons]
      dsimp only
      by_cases hquoted : c = '"' ∨ c = '\''
      · have hmark : c ≠ '?' := by
          rcases hquoted with rfl | rfl
          · decide
          · decide
        simp only [if_pos hquoted, hstart, hsize, drop_runLength_closedBy, take_runLength_closedBy,
          head?_closedBy_eq_some_iff hmark]
        cases hafter : rest.drop (Text.runLength CodePoint.isNamePart rest) with
        | nil => rfl
        | cons d after =>
            simp only [closedBy_cons, List.drop_succ_cons, List.drop_zero, lineBreakLength_closedBy]
      · simp only [← closedBy_cons, if_neg hquoted, hstart, hsize, drop_runLength_closedBy,
          take_runLength_closedBy, lineBreakLength_closedBy]

theorem isPrefixOf_closedBy {label : Text} (hlabel : ∀ c ∈ label, c ≠ '?') :
    label.isPrefixOf (closedBy t v) = label.isPrefixOf t := by
  induction label generalizing t with
  | nil => rfl
  | cons d label ih =>
      cases t with
      | nil =>
          have hfirst := hlabel d List.mem_cons_self
          simp [closedBy_nil, List.isPrefixOf, hfirst]
      | cons c t =>
          have hrest := ih (t := t) fun c hmem => hlabel c (List.mem_cons_of_mem d hmem)
          rw [closedBy_cons, List.isPrefixOf, hrest, List.isPrefixOf]

theorem IsName.ne_questionMark {label : Text} (hname : IsName label) : ∀ c ∈ label, c ≠ '?' := by
  obtain ⟨c, cs, rfl, hstart, hparts⟩ := hname
  rintro d hmem rfl
  rcases List.mem_cons.mp hmem with rfl | hmem
  · exact absurd hstart (by decide)
  · exact absurd (hparts _ hmem) (by decide)

theorem closingLabel?_closedBy {label : Text} (hname : IsName label) :
    closingLabel? label (closedBy t v) = closingLabel? label t := by
  have hend (rest : Text) :=
    all_head?_closedBy (t := rest) (v := v) (p := fun c => !c.isNamePart) (by decide)
  simp only [closingLabel?]
  rw [runLength_closedBy (by decide), drop_runLength_closedBy,
    isPrefixOf_closedBy hname.ne_questionMark]
  by_cases hlabel : label.isPrefixOf (t.drop (Text.runLength CodePoint.isSpaceOrTab t)) = true
  · rw [drop_closedBy (List.isPrefixOf_iff_prefix.mp hlabel).length_le, hend]
  · rw [Bool.not_eq_true] at hlabel
    rw [hlabel, Bool.false_and, Bool.false_and]

theorem heredocEndInLine?_closedBy {label : Text} (hname : IsName label)
    (hfound : heredocEndInLine? label (closedBy t v) = some n) (hn : n ≤ t.length) (w : Text) :
    heredocEndInLine? label (closedBy t w) = some n := by
  induction t generalizing n with
  | nil =>
      rw [closedBy_nil, heredocEndInLine?, if_neg (by decide)] at hfound
      obtain ⟨m, -, rfl⟩ := Option.map_eq_some_iff.mp hfound
      exact absurd hn (Nat.not_succ_le_zero m)
  | cons c t ih =>
      have hrest (hfound : (heredocEndInLine? label (closedBy t v)).map (· + 1) = some n) :
          (heredocEndInLine? label (closedBy t w)).map (· + 1) = some n := by
        obtain ⟨m, hm, rfl⟩ := Option.map_eq_some_iff.mp hfound
        rw [ih hm (Nat.le_of_succ_le_succ hn)]
        rfl
      rw [closedBy_cons, heredocEndInLine?, closingLabel?_closedBy hname] at hfound ⊢
      split
      · next hfeed =>
          rw [if_pos hfeed] at hfound
          cases hclose : closingLabel? label t with
          | some m =>
              rw [hclose] at hfound
              exact hfound
          | none =>
              rw [hclose] at hfound
              exact hrest hfound
      · next hother =>
          rw [if_neg hother] at hfound
          exact hrest hfound

theorem heredocEnd?_closedBy {label : Text} (hname : IsName label)
    (hfound : heredocEnd? label (closedBy t v) = some n) (hn : n ≤ t.length) (w : Text) :
    heredocEnd? label (closedBy t w) = some n := by
  rw [heredocEnd?, closingLabel?_closedBy hname] at hfound ⊢
  cases hclose : closingLabel? label t with
  | some m =>
      rw [hclose] at hfound
      exact hfound
  | none =>
      rw [hclose] at hfound
      exact heredocEndInLine?_closedBy hname hfound hn w

/-- A token of the first code point and at most so many more. -/
def Lexeme.EndsWithin (n : Nat) : Lexeme → Prop
  | .token _ more => more ≤ n
  | .unterminated _ => False

theorem heredocLexeme?_closedBy
    (hwithin : ∀ lexeme, heredocLexeme? (closedBy t v) = some lexeme → lexeme.EndsWithin t.length)
    (w : Text) : heredocLexeme? (closedBy t w) = heredocLexeme? (closedBy t v) := by
  match t with
  | [] => rfl
  | [b] =>
      have hmark : ¬(b = '<' ∧ CodePoint.ofChar '?' = '<') := fun hopen => absurd hopen.2 (by decide)
      rw [closedBy_cons, closedBy_cons, closedBy_nil, closedBy_nil, heredocLexeme?, heredocLexeme?,
        if_neg hmark, if_neg hmark]
  | b :: c :: t =>
      simp only [closedBy_cons, heredocLexeme?, heredocStart?_closedBy] at hwithin ⊢
      by_cases hopen : b = '<' ∧ c = '<'
      · simp only [if_pos hopen] at hwithin ⊢
        cases hstart : heredocStart? t with
        | none => rfl
        | some start =>
            obtain ⟨label, opener⟩ := start
            obtain ⟨opened, rest, rfl, rfl, -, -, -, -, -, hname, -⟩ := heredocStart?_opens hstart
            have hbody (x : Text) : (closedBy (opened ++ rest) x).drop opened.length = closedBy rest x := by
              rw [← closedBy_append, List.drop_left]
            simp only [hstart, hbody] at hwithin ⊢
            cases hend : heredocEnd? label (closedBy rest v) with
            | none =>
                rw [hend] at hwithin
                exact absurd (hwithin _ rfl) id
            | some n =>
                rw [hend] at hwithin
                have hmore : 2 + opened.length + n ≤ (b :: c :: (opened ++ rest)).length := hwithin _ rfl
                simp only [List.length_cons, List.length_append] at hmore
                rw [heredocEnd?_closedBy hname hend (by omega) w]
      · rw [if_neg hopen, if_neg hopen]

/-! ## Quoted literals and operators -/

theorem quotedLexeme_closedBy {quote : CodePoint} {kind : Text → TokenKind} {missing : Unterminated}
    (hwithin : (quotedLexeme quote kind missing (closedBy t v)).EndsWithin t.length) (w : Text) :
    quotedLexeme quote kind missing (closedBy t w) = quotedLexeme quote kind missing (closedBy t v) := by
  rw [quotedLexeme] at hwithin ⊢
  cases hclose : closingQuote? quote (closedBy t v) with
  | none =>
      rw [hclose] at hwithin
      exact absurd hwithin id
  | some n =>
      rw [hclose] at hwithin
      have hn : n ≤ t.length := hwithin
      have hbody (x : Text) : (closedBy t x).take (n - 1) = t.take (n - 1) :=
        take_closedBy (Nat.le_trans (Nat.sub_le n 1) hn)
      rw [quotedLexeme, closingQuote?_closedBy hclose hn w, hclose]
      dsimp only
      rw [hbody, hbody]

/-- No operator is longer than one code point and a close tag. -/
theorem operatorRest_closedBy (c : CodePoint) (t v w : Text) :
    operatorRest (c :: closedBy t w) = operatorRest (c :: closedBy t v) := by
  have hlength : ∀ operator ∈ operators, operator.length ≤ 3 := by decide
  have hfront (x : Text) : c :: closedBy t x = c :: closedBy t [] ++ x := by
    rw [List.cons_append, append_closedBy, List.nil_append]
  have hsame : ∀ operator ∈ operators, (Text.ofChars operator).isPrefixOf (c :: closedBy t w) =
      (Text.ofChars operator).isPrefixOf (c :: closedBy t v) := by
    intro operator hmem
    have hshort : (Text.ofChars operator).length ≤ (c :: closedBy t []).length := by
      have hoperator := hlength operator hmem
      simp only [Text.ofChars, closedBy, List.length_map, List.length_cons, List.length_append]
      omega
    have hprefix (x : Text) : Text.ofChars operator <+: c :: closedBy t [] ++ x ↔
        Text.ofChars operator <+: c :: closedBy t [] :=
      ⟨fun h => List.prefix_of_prefix_length_le h (List.prefix_append _ _) hshort,
        fun h => h.trans (List.prefix_append _ _)⟩
    rw [Bool.eq_iff_iff, List.isPrefixOf_iff_prefix, List.isPrefixOf_iff_prefix, hfront w, hfront v,
      hprefix, hprefix]
  rw [operatorRest, operatorRest, List.find?_congr hsame]

/-! ## Open tags -/

theorem openTagRest?_eq_none {q p : CodePoint} (hshort : p ≠ '=') (hlong : p.asciiLower ≠ 'p') (cs : Text) :
    openTagRest? (q :: p :: cs) = none := by
  unfold openTagRest?
  grind

/-- The recogniser looks at no more than the five code points of the longer tag and the one behind them, so
the cases are those of a text with so many before the close tag. -/
theorem openTag?_closedBy (t v w : Text) : openTag? (closedBy t w) = openTag? (closedBy t v) := by
  have hmark : (CodePoint.ofChar '?').asciiLower ≠ 'h' ∧ (CodePoint.ofChar '?').asciiLower ≠ 'p' := by decide
  rcases t with _ | ⟨a, _ | ⟨q, _ | ⟨p, _ | ⟨h, _ | ⟨r, rest⟩⟩⟩⟩⟩
  · rfl
  · have hnone (x : Text) := openTagRest?_eq_none (q := '?') (p := '>') (by decide) (by decide) x
    simp only [closedBy_cons, closedBy_nil, openTag?, hnone]
  · have hnone (x : Text) := openTagRest?_eq_none (q := q) (p := '?') (by decide) (by decide) x
    simp only [closedBy_cons, closedBy_nil, openTag?, hnone]
  · simp [closedBy_cons, closedBy_nil, openTag?, openTagRest?, hmark.1]
  · simp [closedBy_cons, closedBy_nil, openTag?, openTagRest?, hmark.2]
  · cases rest with
    | nil => rfl
    | cons next rest => rfl

theorem htmlLength_closedBy (hn : htmlLength (closedBy t v) ≤ t.length) (w : Text) :
    htmlLength (closedBy t w) = htmlLength (closedBy t v) := by
  induction t with
  | nil =>
      have htag : ¬(openTag? (CodePoint.ofChar '?' :: CodePoint.ofChar '>' :: v)).isSome = true :=
        Bool.noConfusion
      rw [closedBy_nil, htmlLength, if_neg htag] at hn
      exact absurd hn (Nat.not_succ_le_zero _)
  | cons c t ih =>
      have htag := openTag?_closedBy (c :: t) v w
      rw [closedBy_cons, closedBy_cons] at htag
      rw [closedBy_cons, htmlLength] at hn
      rw [closedBy_cons, closedBy_cons, htmlLength, htmlLength, htag]
      split
      · rfl
      · next hnone =>
          rw [if_neg hnone] at hn
          rw [ih (Nat.le_of_succ_le_succ hn)]

/-! ## The recognisers of the two modes -/

theorem opensDocComment_closedBy : opensDocComment (closedBy t v) = opensDocComment (closedBy t w) := by
  match t with
  | [] => rfl
  | [c] => rfl
  | _ :: _ :: _ => rfl

theorem codeLexeme_closedBy {c : CodePoint}
    (hwithin : (codeLexeme c (closedBy t v)).EndsWithin t.length) (w : Text) :
    codeLexeme c (closedBy t w) = codeLexeme c (closedBy t v) := by
  have hnext (d : Char) (hd : CodePoint.ofChar d ≠ '?') (x : Text) :
      ((closedBy t x).head? = some (CodePoint.ofChar d)) = (t.head? = some (CodePoint.ofChar d)) :=
    propext (head?_closedBy_eq_some_iff hd)
  have hblanks (x : Text) := runLength_closedBy (t := t) (v := x) (p := CodePoint.isBlank) (by decide)
  simp only [codeLexeme, hnext '>' (by decide), hnext '*' (by decide), hnext '[' (by decide),
    hnext '/' (by decide), decide_eq_true_eq, hblanks, lineCommentLength_closedBy] at hwithin ⊢
  by_cases hblank : c.isBlank = true
  · rw [if_pos hblank, if_pos hblank]
  simp only [if_neg hblank] at hwithin ⊢
  by_cases htag : c = '?' ∧ t.head? = some (CodePoint.ofChar '>')
  · obtain ⟨rest, rfl⟩ := List.head?_eq_some_iff.mp htag.2
    simp only [if_pos htag, closedBy_cons, List.drop_succ_cons, List.drop_zero, lineBreakLength_closedBy]
  simp only [if_neg htag] at hwithin ⊢
  by_cases hblock : c = '/' ∧ t.head? = some (CodePoint.ofChar '*')
  · obtain ⟨rest, rfl⟩ := List.head?_eq_some_iff.mp hblock.2
    simp only [if_pos hblock, closedBy_cons, List.drop_succ_cons, List.drop_zero] at hwithin ⊢
    cases hend : blockEnd? (closedBy rest v) with
    | none =>
        rw [hend] at hwithin
        exact absurd hwithin id
    | some n =>
        rw [hend] at hwithin
        have hmore : 1 + n ≤ (CodePoint.ofChar '*' :: rest).length := hwithin
        rw [List.length_cons] at hmore
        rw [blockEnd?_closedBy hend (by omega) w, opensDocComment_closedBy (v := w) (w := v)]
  simp only [if_neg hblock] at hwithin ⊢
  by_cases hattribute : c = '#' ∧ t.head? = some (CodePoint.ofChar '[')
  · rw [if_pos hattribute, if_pos hattribute]
  simp only [if_neg hattribute] at hwithin ⊢
  by_cases hline : c = '#' ∨ c = '/' ∧ t.head? = some (CodePoint.ofChar '/')
  · rw [if_pos hline, if_pos hline]
  simp only [if_neg hline] at hwithin ⊢
  by_cases hsingle : c = '\''
  · rw [if_pos hsingle] at hwithin
    rw [if_pos hsingle, if_pos hsingle, quotedLexeme_closedBy hwithin w]
  rw [if_neg hsingle] at hwithin
  rw [if_neg hsingle, if_neg hsingle]
  by_cases hdouble : c = '"'
  · rw [if_pos hdouble] at hwithin
    rw [if_pos hdouble, if_pos hdouble, quotedLexeme_closedBy hwithin w]
  rw [if_neg hdouble] at hwithin
  rw [if_neg hdouble, if_neg hdouble]
  by_cases hshell : c.val = 0x60
  · rw [if_pos hshell] at hwithin
    rw [if_pos hshell, if_pos hshell, quotedLexeme_closedBy hwithin w]
  rw [if_neg hshell] at hwithin
  rw [if_neg hshell, if_neg hshell]
  have hheredoc : (if c = '<' then heredocLexeme? (closedBy t w) else none) =
      if c = '<' then heredocLexeme? (closedBy t v) else none := by
    split
    · next hangle =>
        rw [if_pos hangle] at hwithin
        refine heredocLexeme?_closedBy (fun lexeme hlexeme => ?_) w
        rw [hlexeme] at hwithin
        exact hwithin
    · rfl
  rw [hheredoc]
  cases hfound : (if c = '<' then heredocLexeme? (closedBy t v) else none) with
  | some lexeme => rfl
  | none =>
      rw [hfound] at hwithin
      dsimp only at hwithin ⊢
      by_cases hdollar : c = '$'
      · rw [if_pos hdollar, if_pos hdollar]
        cases t with
        | nil => rfl
        | cons d t =>
            simp only [closedBy_cons, runLength_closedBy (p := CodePoint.isNamePart) (by decide)]
      rw [if_neg hdollar, if_neg hdollar]
      by_cases hname : c.isNameStart = true
      · rw [if_pos hname, if_pos hname, runLength_closedBy (by decide), runLength_closedBy (by decide)]
      rw [if_neg hname, if_neg hname]
      have hdigit (x : Text) :=
        any_head?_closedBy (t := t) (v := x) (p := CodePoint.isDigit) (by decide)
      rw [hdigit, hdigit, numberRest?_closedBy, numberRest?_closedBy, operatorRest_closedBy c t v w]

theorem htmlLexeme_closedBy {c : CodePoint}
    (hwithin : (htmlLexeme c (closedBy t v)).EndsWithin t.length) (w : Text) :
    htmlLexeme c (closedBy t w) = htmlLexeme c (closedBy t v) := by
  have htag := openTag?_closedBy (c :: t) v w
  rw [closedBy_cons, closedBy_cons] at htag
  rw [htmlLexeme, htmlLexeme, htag]
  cases hopen : openTag? (c :: closedBy t v) with
  | some n => rfl
  | none =>
      rw [htmlLexeme, hopen] at hwithin
      rw [htmlLength_closedBy hwithin w]

/-- A token that ends before a close tag is found whatever follows that tag. -/
theorem lexeme_closedBy {mode : Mode} {c : CodePoint}
    (hwithin : (mode.lexeme c (closedBy t v)).EndsWithin t.length) (w : Text) :
    mode.lexeme c (closedBy t w) = mode.lexeme c (closedBy t v) := by
  cases mode with
  | code => exact codeLexeme_closedBy hwithin w
  | html => exact htmlLexeme_closedBy hwithin w

end HookAtlas.Php
