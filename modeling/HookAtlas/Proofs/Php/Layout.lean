/-
# What may stand between the parts of a call

White space and complete block comments separate the parts of a call and mean nothing.  The statement
here is that the lexer passes over such a layout with trivia only and then goes on with what follows it,
as if it had started there.  It goes on in code, and on the line that the layout leads to.

The text that follows must not start with white space, because a run of white space is one token and the
run would go on into that text.
-/

import HookAtlas.Php.CallSite
import HookAtlas.Proofs.Php.Extent
import HookAtlas.Proofs.Php.Lossless
import HookAtlas.Proofs.Php.Quoting

namespace HookAtlas.Php

/-! ## The answers of the recogniser for code -/

/-- A search finds a first stop where there is one. -/
theorem Finds.eq_some {stop : Text → Text → Prop} {width : Text → Nat} {start body after : Text}
    {found : Option Nat} (hfinds : Finds stop width start (body ++ after) found)
    (hstop : FirstStop stop start body after) : found = some (body.length + width after) := by
  cases found with
  | none => exact absurd hstop.holds (hfinds body after rfl)
  | some n =>
      obtain ⟨other, left, hsplit, hn, hother⟩ := hfinds
      rcases List.append_eq_append_iff.mp hsplit with ⟨more, rfl, rfl⟩ | ⟨more, rfl, rfl⟩
      · cases more with
        | nil => rw [hn, List.append_nil, List.nil_append]
        | cons c more =>
            exact absurd hstop.holds (hother.first body (c :: more) rfl (List.cons_ne_nil c more))
      · cases more with
        | nil => rw [hn, List.append_nil, List.nil_append]
        | cons c more =>
            exact absurd hother.holds (hstop.first other (c :: more) rfl (List.cons_ne_nil c more))

theorem codeLexeme_blank {c : CodePoint} (hblank : c.isBlank = true) (cs : Text) :
    codeLexeme c cs = .token .whitespace (Text.runLength CodePoint.isBlank cs) := by
  rw [codeLexeme.eq_def]
  extract_lets next
  rw [if_pos hblank]

/-- A block comment is complete in itself: its terminator does not depend on what follows it. -/
theorem IsBlockComment.extend {comment : Text} (hcomment : IsBlockComment comment []) (rest : Text) :
    IsBlockComment comment rest := by
  obtain ⟨body, rfl, hstop⟩ := hcomment
  refine ⟨body, rfl, ⟨List.prefix_append _ _, ?_⟩⟩
  intro shorter more hbody hmore hclose
  refine hstop.first shorter more hbody hmore ?_
  rw [ClosesBlock, ← List.append_assoc] at hclose
  rw [List.append_nil]
  refine List.prefix_of_prefix_length_le hclose (List.prefix_append _ _) ?_
  rw [List.length_append]
  exact Nat.le_add_left _ _

/-- A complete block comment is one comment token, whatever follows it. -/
theorem codeLexeme_blockComment {comment : Text} (hcomment : IsBlockComment comment []) (rest : Text) :
    ∃ c cs kind, comment = c :: cs ∧ c = '/' ∧ kind.isTrivia = true ∧
      codeLexeme c (cs ++ rest) = .token kind cs.length := by
  obtain ⟨body, rfl, hstop⟩ := hcomment.extend rest
  have hend := (blockEnd?_finds (body ++ (Text.ofChars ['*', '/'] ++ rest))
    (Text.ofChars ['/', '*'])).eq_some hstop
  refine ⟨CodePoint.ofChar '/', CodePoint.ofChar '*' :: (body ++ Text.ofChars ['*', '/']),
    if opensDocComment (body ++ (Text.ofChars ['*', '/'] ++ rest)) then .docComment else .comment,
    rfl, rfl, ?_, ?_⟩
  · split
    · rfl
    · rfl
  · rw [codeLexeme.eq_def]
    extract_lets next
    have hnext : CodePoint.ofChar '/' = '/' ∧ next '*' = true := ⟨rfl, decide_eq_true rfl⟩
    rw [if_neg (by decide), if_neg (fun hmark => absurd hmark.1 (by decide)), if_pos hnext]
    rw [List.cons_append, List.drop_one, List.tail_cons, List.append_assoc, hend]
    dsimp only
    rw [List.length_cons, List.length_append, Nat.add_comm]
    rfl

/-- A PHP name that does not start with white space is one identifier, up to the first code point that
cannot stand in a name. -/
theorem codeLexeme_name {c : CodePoint} (hblank : c.isBlank = false) (hstart : c.isNameStart = true)
    (cs : Text) :
    codeLexeme c cs = .token .identifier (Text.runLength CodePoint.isNamePart cs) := by
  have hne (d : Char) (hmark : CodePoint.isNameStart d = false) : c ≠ d := by
    rintro rfl
    rw [hstart] at hmark
    cases hmark
  have hbacktick : c.val ≠ 0x60 := by
    intro hval
    simp [CodePoint.isNameStart, CodePoint.isAsciiLetter, hval] at hstart
  rw [codeLexeme.eq_def]
  extract_lets next
  rw [if_neg (by rw [hblank]; decide), if_neg (fun hmark => hne '?' (by decide) hmark.1),
    if_neg (fun hmark => hne '/' (by decide) hmark.1),
    if_neg (fun hmark => hne '#' (by decide) hmark.1),
    if_neg (not_or.mpr ⟨hne '#' (by decide), fun hmark => hne '/' (by decide) hmark.1⟩),
    if_neg (hne '\'' (by decide)), if_neg (hne '"' (by decide)), if_neg hbacktick,
    if_neg (hne '<' (by decide))]
  dsimp only
  rw [if_neg (hne '$' (by decide)), if_pos hstart]

/-- An identifier never starts with white space, because white space is looked for first. -/
theorem isBlank_eq_false_of_identifier {c : CodePoint} {cs : Text} {more : Nat}
    (hlexeme : codeLexeme c cs = .token .identifier more) : c.isBlank = false := by
  cases hblank : c.isBlank with
  | false => rfl
  | true =>
      rw [codeLexeme_blank hblank] at hlexeme
      cases hlexeme

/-- The punctuation marks of a call. -/
def IsCallMark (c : CodePoint) : Prop :=
  c = '(' ∨ c = ',' ∨ c = ')'

/-- No operator begins with a mark of a call, so each is a token of its own. -/
theorem codeLexeme_callMark {c : CodePoint} (hmark : IsCallMark c) (cs : Text) :
    codeLexeme c cs = .token .punct 0 := by
  rcases hmark with rfl | rfl | rfl
  · rfl
  · rfl
  · rfl

/-- A written literal is one plain string, whatever follows it. -/
theorem codeLexeme_literal (quoting : Quoting) (s rest : Text) :
    codeLexeme quoting.quote (quoting.escape s ++ [quoting.quote] ++ rest) =
      .token .string (quoting.escape s ++ [quoting.quote]).length := by
  rw [List.append_assoc, List.length_append]
  cases quoting with
  | single => exact Quoting.quotedLexeme_literal .single (fun _ => .string) .stringLiteral s rest rfl
  | double =>
      refine Quoting.quotedLexeme_literal .double
        (fun body => if hasInterpolation body then .template else .string) .stringLiteral s rest ?_
      rw [Quoting.hasInterpolation_escape]
      rfl

/-! ## Steps of a run in code -/

/-- One step of a run in code, by the text of its token. -/
theorem tokens_of_codeLexeme {kind : TokenKind} {c : CodePoint} {cs rest : Text}
    (hlexeme : codeLexeme c (cs ++ rest) = .token kind cs.length) (hstay : kind ≠ .closeTag)
    (line : Int) :
    (lexFrom .code line (c :: cs ++ rest)).tokens =
      ⟨kind, c :: cs, line⟩ ::
        (lexFrom .code (line + Text.lineFeeds (c :: cs)) rest).tokens := by
  have hstep : Mode.code.lexeme c (cs ++ rest) = .token kind cs.length := hlexeme
  have hmode : Mode.code.after kind = .code := by
    cases kind with
    | closeTag => exact absurd rfl hstay
    | _ => rfl
  rw [List.cons_append, lexFrom_of_token hstep, List.take_left, List.drop_left,
    hmode]

/-- The lexer passes over a text before another with trivia only. -/
def IsPassed (w rest : Text) : Prop :=
  ∀ line : Int, ∃ trivia : List Token, (∀ token ∈ trivia, token.isTrivia = true) ∧
    (lexFrom .code line (w ++ rest)).tokens =
      trivia ++ (lexFrom .code (line + w.lineFeeds) rest).tokens

theorem IsPassed.nil (rest : Text) : IsPassed [] rest := by
  intro line
  refine ⟨[], fun _ hmem => absurd hmem List.not_mem_nil, ?_⟩
  simp

/-- What is passed piece by piece is passed as a whole. -/
theorem IsPassed.append {w v rest : Text} (hfirst : IsPassed w (v ++ rest))
    (hsecond : IsPassed v rest) : IsPassed (w ++ v) rest := by
  intro line
  obtain ⟨first, htrivia, heq⟩ := hfirst line
  obtain ⟨second, hmore, hnext⟩ := hsecond (line + w.lineFeeds)
  refine ⟨first ++ second, ?_, ?_⟩
  · intro token hmem
    rcases List.mem_append.mp hmem with hmem | hmem
    · exact htrivia token hmem
    · exact hmore token hmem
  · rw [List.append_assoc, heq, hnext, Text.lineFeeds_append, List.append_assoc]
    push_cast
    rw [Int.add_assoc]

/-- A run of white space is one token of white space. -/
theorem isPassed_blanks {run rest : Text} (hblanks : ∀ c ∈ run, c.isBlank = true)
    (hrest : Text.StartsOutside CodePoint.isBlank rest) : IsPassed run rest := by
  cases run with
  | nil => exact .nil rest
  | cons c run =>
      intro line
      have hlexeme := codeLexeme_blank (hblanks c List.mem_cons_self) (run ++ rest)
      rw [Text.runLength_append (fun d hmem => hblanks d (List.mem_cons_of_mem c hmem)) hrest]
        at hlexeme
      refine ⟨[⟨.whitespace, c :: run, line⟩], fun token hmem => ?_,
        tokens_of_codeLexeme hlexeme (by decide) line⟩
      rw [List.mem_singleton.mp hmem]
      rfl

theorem isPassed_comment {comment : Text} (hcomment : IsBlockComment comment []) (rest : Text) :
    IsPassed comment rest := by
  obtain ⟨c, cs, kind, rfl, -, htrivia, hlexeme⟩ := codeLexeme_blockComment hcomment rest
  intro line
  refine ⟨[⟨kind, c :: cs, line⟩], fun token hmem => ?_, tokens_of_codeLexeme hlexeme ?_ line⟩
  · rw [List.mem_singleton.mp hmem]
    exact htrivia
  · rintro rfl
    cases htrivia

/-! ## Layouts -/

/-- White space of ASCII and complete block comments, in any order and number.  White space beyond ASCII
is left out, because a name may go on with it. -/
inductive IsLayout : Text → Prop
  | nil : IsLayout []
  | blank {c : CodePoint} {w : Text} (hblank : c.isBlank = true) (hascii : c.val < 0x80)
      (hrest : IsLayout w) : IsLayout (c :: w)
  | comment {comment w : Text} (hcomment : IsBlockComment comment []) (hrest : IsLayout w) :
      IsLayout (comment ++ w)

/-- A layout is passed.  The induction carries the run of white space that was read so far, since the
lexer takes neighbouring white space as one token. -/
theorem isPassed_of_blanks_isLayout {w : Text} (hlayout : IsLayout w) (run : Text) {rest : Text}
    (hblanks : ∀ c ∈ run, c.isBlank = true) (hrest : Text.StartsOutside CodePoint.isBlank rest) :
    IsPassed (run ++ w) rest := by
  induction hlayout generalizing run with
  | nil =>
      rw [List.append_nil]
      exact isPassed_blanks hblanks hrest
  | @blank c w hblank hascii hlayout ih =>
      rw [← List.singleton_append, ← List.append_assoc]
      refine ih (run ++ [c]) fun d hmem => ?_
      rcases List.mem_append.mp hmem with hmem | hmem
      · exact hblanks d hmem
      · rw [List.mem_singleton.mp hmem]
        exact hblank
  | @comment comment w hcomment hlayout ih =>
      have hslash : Text.StartsOutside CodePoint.isBlank (comment ++ w ++ rest) := by
        obtain ⟨c, cs, kind, rfl, rfl, -⟩ := codeLexeme_blockComment hcomment []
        exact Text.startsOutside_cons.mpr (by decide)
      refine (isPassed_blanks hblanks hslash).append ?_
      exact (isPassed_comment hcomment (w ++ rest)).append
        (ih [] fun _ hmem => absurd hmem List.not_mem_nil)

/-- The lexer passes over a layout before a text that does not start with white space. -/
theorem IsLayout.isPassed {w rest : Text} (hlayout : IsLayout w)
    (hrest : Text.StartsOutside CodePoint.isBlank rest) : IsPassed w rest :=
  isPassed_of_blanks_isLayout hlayout [] (fun _ hmem => absurd hmem List.not_mem_nil) hrest

/-- No name goes on into a layout. -/
theorem IsLayout.startsOutside_isNamePart {w rest : Text} (hlayout : IsLayout w)
    (hrest : Text.StartsOutside CodePoint.isNamePart rest) :
    Text.StartsOutside CodePoint.isNamePart (w ++ rest) := by
  cases hlayout with
  | nil => exact hrest
  | @blank c w hblank hascii hlayout =>
      refine Text.startsOutside_cons.mpr ?_
      simp only [CodePoint.isBlank, CodePoint.isUnicodeSpace, Bool.or_eq_true, Bool.and_eq_true,
        decide_eq_true_eq, beq_iff_eq] at hblank
      simp only [CodePoint.isNamePart, CodePoint.isNameStart, CodePoint.isAsciiLetter,
        CodePoint.isAsciiDigit, Bool.or_eq_false_iff, Bool.and_eq_false_iff,
        decide_eq_false_iff_not, beq_eq_false_iff_ne]
      omega
  | @comment comment w hcomment hlayout =>
      obtain ⟨c, cs, kind, rfl, rfl, -⟩ := codeLexeme_blockComment hcomment []
      exact Text.startsOutside_cons.mpr (by decide)

end HookAtlas.Php
