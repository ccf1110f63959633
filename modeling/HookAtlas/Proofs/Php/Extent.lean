/-
# Where opaque tokens end

The extent of an opaque token is described without reference to the recognisers: a token runs from its
opener to the first place at which a condition on the text before and behind that place holds.  The
conditions are those of the language: an unescaped quote, a comment terminator, a closing heredoc line,
the end of a line or an open tag.

Each search of the recognisers walks over the text code point by code point.  `Finds` is what such a
search has to answer, and its three rules follow the walk, so that every search is related to its
condition by one induction along its own recursion.
-/

import HookAtlas.Php.Lexer
import HookAtlas.Proofs.Text.Run

namespace HookAtlas

namespace Text

/-- How many backslashes stand at the end of a text. -/
def trailingBackslashes (t : Text) : Nat :=
  runLength (fun c : CodePoint => c = '\\') t.reverse

theorem trailingBackslashes_append_singleton (t : Text) (c : CodePoint) :
    (t ++ [c]).trailingBackslashes = if c = '\\' then t.trailingBackslashes + 1 else 0 := by
  simp [trailingBackslashes, runLength]

end Text

namespace Php

/-! ## The first place at which a condition holds -/

/-- What follows `start` up to the first place at which `stop` holds is `body`.  The condition sees the
text from the beginning of `start` to the place, and the text behind it. -/
structure FirstStop (stop : Text → Text → Prop) (start body after : Text) : Prop where
  /-- The condition holds behind `body`. -/
  holds : stop (start ++ body) after
  /-- It holds nowhere before. -/
  first : ∀ shorter more, body = shorter ++ more → more ≠ [] →
    ¬ stop (start ++ shorter) (more ++ after)

/-- The condition holds nowhere in what follows `start`, its end included. -/
def NeverStops (stop : Text → Text → Prop) (start rest : Text) : Prop :=
  ∀ body after, rest = body ++ after → ¬ stop (start ++ body) after

/-- What a search for a stop answers: the number of code points through the terminator at the first
stop, or none where there is no stop.  The terminator is a number of code points behind the stop that
`width` reads off. -/
def Finds (stop : Text → Text → Prop) (width : Text → Nat) (start rest : Text) :
    Option Nat → Prop
  | some n => ∃ body after, rest = body ++ after ∧ n = body.length + width after ∧
      FirstStop stop start body after
  | none => NeverStops stop start rest

namespace Finds

variable {stop : Text → Text → Prop} {width : Text → Nat} {start rest : Text}

/-- The condition holds at once. -/
theorem here (hstop : stop start rest) : Finds stop width start rest (some (width rest)) := by
  refine ⟨[], rest, rfl, by simp, ⟨by simpa using hstop, ?_⟩⟩
  intro shorter more hempty hmore
  exact absurd (List.append_eq_nil_iff.mp hempty.symm).2 hmore

/-- The text ends and the condition does not hold there. -/
theorem atEnd (hstop : ¬ stop start []) : Finds stop width start [] none := by
  intro body after hempty
  obtain ⟨rfl, rfl⟩ := List.append_eq_nil_iff.mp hempty.symm
  simpa using hstop

/-- The condition does not hold here, and the search goes on behind the next code point. -/
theorem later {c : CodePoint} {found : Option Nat} (hstop : ¬ stop start (c :: rest))
    (hfound : Finds stop width (start ++ [c]) rest found) :
    Finds stop width start (c :: rest) (found.map (· + 1)) := by
  cases found with
  | some n =>
      obtain ⟨body, after, rfl, rfl, hfirst⟩ := hfound
      refine ⟨c :: body, after, rfl, ?_, ⟨?_, ?_⟩⟩
      · show body.length + width after + 1 = body.length + 1 + width after
        omega
      · simpa using hfirst.holds
      · intro shorter more hbody hmore
        cases shorter with
        | nil =>
            rw [List.nil_append] at hbody
            rw [← hbody, List.append_nil]
            exact hstop
        | cons d shorter =>
            rw [List.cons_append, List.cons.injEq] at hbody
            obtain ⟨rfl, rfl⟩ := hbody
            simpa using hfirst.first shorter more rfl hmore
  | none =>
      intro body after hrest
      cases body with
      | nil =>
          rw [List.nil_append] at hrest
          rw [← hrest, List.append_nil]
          exact hstop
      | cons d body =>
          rw [List.cons_append, List.cons.injEq] at hrest
          obtain ⟨rfl, rfl⟩ := hrest
          simpa using hfound body after rfl

/-- The search that always answers goes on in the same way. -/
theorem later_some {c : CodePoint} {n : Nat} (hstop : ¬ stop start (c :: rest))
    (hfound : Finds stop width (start ++ [c]) rest (some n)) :
    Finds stop width start (c :: rest) (some (n + 1)) :=
  later hstop hfound

end Finds

/-! ## Quoted strings -/

/-- An unescaped quote follows: the backslashes directly before it are even in number. -/
def ClosesQuote (quote : CodePoint) (before after : Text) : Prop :=
  after.head? = some quote ∧ before.trailingBackslashes % 2 = 0

/-- The marks that quote a literal. -/
def IsQuote (c : CodePoint) : Prop :=
  c = '\'' ∨ c = '"' ∨ c.val = 0x60

/-- A text that opens with a quote and ends with the first unescaped one behind it. -/
def IsQuoted (text after : Text) : Prop :=
  ∃ quote body, IsQuote quote ∧ text = quote :: body ++ [quote] ∧
    FirstStop (ClosesQuote quote) [quote] body (quote :: after)

/-- The search for the closing quote, continued behind a text that escapes nothing.  A backslash and the
code point behind it are passed together, which keeps the number of backslashes even. -/
theorem closingQuote?_finds (quote : CodePoint) (cs start : Text)
    (heven : start.trailingBackslashes % 2 = 0) :
    Finds (ClosesQuote quote) (fun _ => 1) start cs (closingQuote? quote cs) := by
  fun_induction closingQuote? quote cs generalizing start with
  | case1 => exact .atEnd fun hstop => nomatch hstop.1
  | case2 cs => exact .here ⟨rfl, heven⟩
  | case3 hother =>
      refine .later (fun hstop => hother (Option.some.inj hstop.1)) (.atEnd ?_)
      exact fun hstop => nomatch hstop.1
  | case4 d rest hother ih =>
      have hodd : (start ++ [CodePoint.ofChar '\\']).trailingBackslashes % 2 = 1 := by
        rw [Text.trailingBackslashes_append_singleton, if_pos rfl]
        omega
      have hnext : ((start ++ [CodePoint.ofChar '\\']) ++ [d]).trailingBackslashes % 2 = 0 := by
        rw [Text.trailingBackslashes_append_singleton]
        split <;> omega
      have hfound := Finds.later (fun hstop => hother (Option.some.inj hstop.1))
        (.later (fun hstop => by rw [hstop.2] at hodd; exact absurd hodd (by decide))
          (ih _ hnext))
      rw [Option.map_map] at hfound
      exact hfound
  | case5 c cs hother hplain ih =>
      refine .later (fun hstop => hother (Option.some.inj hstop.1)) (ih _ ?_)
      rw [Text.trailingBackslashes_append_singleton, if_neg hplain]

/-! ## Comments -/

/-- The terminator of a block comment follows. -/
def ClosesBlock (_before after : Text) : Prop :=
  Text.ofChars ['*', '/'] <+: after

/-- A block comment up to its first terminator behind the opener. -/
def IsBlockComment (text after : Text) : Prop :=
  ∃ body, text = Text.ofChars ['/', '*'] ++ body ++ Text.ofChars ['*', '/'] ∧
    FirstStop ClosesBlock (Text.ofChars ['/', '*']) body (Text.ofChars ['*', '/'] ++ after)

theorem closesBlock_cons_iff (before : Text) (c : CodePoint) (cs : Text) :
    ClosesBlock before (c :: cs) ↔ c = '*' ∧ cs.head? = some ('/' : CodePoint) := by
  cases cs with
  | nil => simp [ClosesBlock, Text.ofChars]
  | cons d ds => simp [ClosesBlock, Text.ofChars, eq_comm]

theorem blockEnd?_finds (cs start : Text) :
    Finds ClosesBlock (fun _ => 2) start cs (blockEnd? cs) := by
  fun_induction blockEnd? cs generalizing start with
  | case1 => exact .atEnd (by simp [ClosesBlock, Text.ofChars])
  | case2 c cs hclose => exact .here ((closesBlock_cons_iff start c cs).mpr hclose)
  | case3 c cs hopen ih =>
      exact .later (fun hstop => hopen ((closesBlock_cons_iff start c cs).mp hstop)) (ih _)

/-- A line comment ends where its line or the source ends, or before a close tag. -/
def EndsLine (after : Text) : Prop :=
  after = [] ∨ after.head? = some ('\r' : CodePoint) ∨ after.head? = some ('\n' : CodePoint) ∨
    Text.ofChars ['?', '>'] <+: after

/-- A line comment: it holds no line break and no close tag, and one of them or the end of the source
follows. -/
def IsLineComment (text after : Text) : Prop :=
  (Text.ofChars ['/', '/'] <+: text ∨ Text.ofChars ['#'] <+: text) ∧
    (∀ c ∈ text, c ≠ '\r' ∧ c ≠ '\n') ∧ ¬ Text.ofChars ['?', '>'] <:+: text ∧ EndsLine after

theorem endsLine_cons_iff (c : CodePoint) (cs : Text) :
    EndsLine (c :: cs) ↔
      (c = '\n' ∨ c = '\r') ∨ (c = '?' ∧ cs.head? = some ('>' : CodePoint)) := by
  cases cs with
  | nil => simp [EndsLine, Text.ofChars, or_comm]
  | cons d ds => simp [EndsLine, Text.ofChars, or_assoc, or_left_comm, eq_comm]

theorem lineCommentLength_finds (cs start : Text) :
    Finds (fun _ after => EndsLine after) (fun _ => 0) start cs (some (lineCommentLength cs)) := by
  fun_induction lineCommentLength cs generalizing start with
  | case1 => exact .here (.inl rfl)
  | case2 c cs hbreak => exact .here ((endsLine_cons_iff c cs).mpr (.inl hbreak))
  | case3 c cs hbreak htag => exact .here ((endsLine_cons_iff c cs).mpr (.inr htag))
  | case4 c cs hbreak htag ih =>
      refine .later_some ?_ (ih _)
      rw [endsLine_cons_iff]
      exact not_or.mpr ⟨hbreak, htag⟩

/-! ## Heredocs -/

/-- A PHP name. -/
def IsName (t : Text) : Prop :=
  ∃ c cs, t = c :: cs ∧ c.isNameStart = true ∧ ∀ d ∈ cs, d.isNamePart = true

theorem isSpaceOrTab_eq_false_of_isNameStart {c : CodePoint} (hstart : c.isNameStart = true) :
    c.isSpaceOrTab = false := by
  simp only [CodePoint.isNameStart, CodePoint.isAsciiLetter, CodePoint.isSpaceOrTab,
    Bool.or_eq_true, Bool.and_eq_true, decide_eq_true_eq, beq_iff_eq, Bool.or_eq_false_iff,
    beq_eq_false_iff_ne] at hstart ⊢
  omega

/-- The opening of a heredoc: three angle brackets, the label in quotes of either sort or in none, and
the end of the line. -/
def OpensHeredoc (label opener : Text) : Prop :=
  ∃ blanks mark lineBreak,
    opener = Text.ofChars ['<', '<', '<'] ++ blanks ++ mark ++ label ++ mark ++ lineBreak ∧
    (∀ c ∈ blanks, c.isSpaceOrTab = true) ∧ IsName label ∧
    mark ∈ [[], Text.ofChars ['"'], Text.ofChars ['\'']] ∧
    lineBreak ∈ [Text.ofChars ['\n'], Text.ofChars ['\r', '\n']]

/-- A closing line starts here: spaces and tabs, the label, and no further name character. -/
def ClosesHeredoc (label before after : Text) : Prop :=
  before.getLast? = some ('\n' : CodePoint) ∧
    ∃ blanks rest, after = blanks ++ label ++ rest ∧ (∀ c ∈ blanks, c.isSpaceOrTab = true) ∧
      Text.StartsOutside CodePoint.isNamePart rest

/-- A heredoc from its opening through the label of the first closing line. -/
def IsHeredoc (text after : Text) : Prop :=
  ∃ label opener body blanks, OpensHeredoc label opener ∧
    text = opener ++ body ++ (blanks ++ label) ∧ (∀ c ∈ blanks, c.isSpaceOrTab = true) ∧
    Text.StartsOutside CodePoint.isNamePart after ∧
    FirstStop (ClosesHeredoc label) opener body (blanks ++ label ++ after)

/-- How far a closing line goes through its label. -/
def closingWidth (label after : Text) : Nat :=
  Text.runLength CodePoint.isSpaceOrTab after + label.length

/-- The test for a closing line, at a place where a line starts. -/
theorem closingLabel?_eq {label before : Text} (hname : IsName label)
    (hstart : before.getLast? = some ('\n' : CodePoint)) (line : Text) :
    (ClosesHeredoc label before line ∧ closingLabel? label line = some (closingWidth label line)) ∨
      (¬ ClosesHeredoc label before line ∧ closingLabel? label line = none) := by
  have houtside (rest : Text) : Text.StartsOutside CodePoint.isSpaceOrTab (label ++ rest) := by
    obtain ⟨c, cs, rfl, hfirst, -⟩ := hname
    exact Text.startsOutside_cons.mpr (isSpaceOrTab_eq_false_of_isNameStart hfirst)
  have hclose (rest : Text) :
      (rest.head?.all fun c => !c.isNamePart) = true ↔
        Text.StartsOutside CodePoint.isNamePart rest := by
    cases rest <;> simp
  rw [closingLabel?]
  split
  · next hfound =>
      rw [Bool.and_eq_true, List.isPrefixOf_iff_prefix] at hfound
      obtain ⟨⟨rest, hrest⟩, hnext⟩ := hfound
      rw [← hrest, List.drop_left, hclose] at hnext
      refine .inl ⟨⟨hstart, line.take (Text.runLength CodePoint.isSpaceOrTab line), rest, ?_,
        fun c hmem => Text.mem_take_runLength hmem, hnext⟩, rfl⟩
      rw [List.append_assoc, hrest, List.take_append_drop]
  · next hmissing =>
      refine .inr ⟨?_, rfl⟩
      rintro ⟨-, blanks, rest, rfl, hblanks, hnext⟩
      refine hmissing ?_
      rw [List.append_assoc, Text.runLength_append hblanks (houtside rest), List.drop_left,
        Bool.and_eq_true, List.isPrefixOf_iff_prefix, List.drop_left, hclose]
      exact ⟨List.prefix_append label rest, hnext⟩

/-- The search from a place inside a line, where no closing line starts. -/
theorem heredocEndInLine?_finds {label : Text} (hname : IsName label) (cs start : Text)
    (hinside : ¬ ClosesHeredoc label start cs) :
    Finds (ClosesHeredoc label) (closingWidth label) start cs (heredocEndInLine? label cs) := by
  fun_induction heredocEndInLine? label cs generalizing start with
  | case1 => exact .atEnd hinside
  | case2 cs n hfound =>
      rcases closingLabel?_eq hname (List.getLast?_concat (l := start)) cs with
        ⟨hclose, heq⟩ | ⟨-, heq⟩
      · rw [hfound, Option.some.injEq] at heq
        rw [heq]
        exact .later_some hinside (.here hclose)
      · rw [hfound] at heq
        cases heq
  | case3 cs hmissing ih =>
      rcases closingLabel?_eq hname (List.getLast?_concat (l := start)) cs with
        ⟨-, heq⟩ | ⟨hopen, -⟩
      · rw [hmissing] at heq
        cases heq
      · exact .later hinside (ih _ hopen)
  | case4 c cs hother ih =>
      refine .later hinside (ih _ fun hclose => hother ?_)
      have hlast := hclose.1
      rw [List.getLast?_concat, Option.some.injEq] at hlast
      exact hlast

/-- The search from the start of a line. -/
theorem heredocEnd?_finds {label : Text} (hname : IsName label) (body start : Text)
    (hstart : start.getLast? = some ('\n' : CodePoint)) :
    Finds (ClosesHeredoc label) (closingWidth label) start body (heredocEnd? label body) := by
  rcases closingLabel?_eq hname hstart body with ⟨hclose, heq⟩ | ⟨hopen, heq⟩
  · rw [heredocEnd?, heq]
    exact .here hclose
  · rw [heredocEnd?, heq]
    exact heredocEndInLine?_finds hname body start hopen

/-- A line break that is not empty is one of the two. -/
theorem lineBreakLength_cases (t : Text) :
    lineBreakLength t = 0 ∨
      ∃ lineBreak rest, lineBreak ∈ [Text.ofChars ['\n'], Text.ofChars ['\r', '\n']] ∧
        t = lineBreak ++ rest ∧ lineBreakLength t = lineBreak.length := by
  cases t with
  | nil => exact .inl rfl
  | cons c cs =>
      rw [lineBreakLength]
      split
      · next hfeed => exact .inr ⟨Text.ofChars ['\n'], cs, by simp, by simp [Text.ofChars, hfeed], rfl⟩
      · split
        · next hreturn =>
            obtain ⟨rest, rfl⟩ := List.head?_eq_some_iff.mp hreturn.2
            exact .inr ⟨Text.ofChars ['\r', '\n'], rest, by simp, by simp [Text.ofChars, hreturn.1],
              rfl⟩
        · exact .inl rfl

/-- The name at the start of a text, as the recogniser of heredocs takes it. -/
theorem isName_take_runLength {t : Text}
    (hstart : ¬ (t.head?.all fun c => !c.isNameStart) = true) :
    IsName (t.take (Text.runLength CodePoint.isNamePart t)) := by
  cases t with
  | nil => exact absurd rfl hstart
  | cons c cs =>
      have hfirst : c.isNameStart = true := by simpa using hstart
      have hpart : c.isNamePart = true := by simp [CodePoint.isNamePart, hfirst]
      rw [Text.runLength, if_pos hpart, List.take_succ_cons]
      exact ⟨c, _, rfl, hfirst, fun d hmem => Text.mem_take_runLength hmem⟩

/-- The parts of an opening, put together: its blanks, its mark, its label and its line break. -/
theorem opensHeredoc_of_parts {cs blanks label : Text} {n : Nat} (mark tail : Text)
    (hcs : cs = blanks ++ mark ++ label ++ mark ++ tail)
    (hblanks : ∀ c ∈ blanks, c.isSpaceOrTab = true) (hname : IsName label)
    (hmark : mark ∈ [[], Text.ofChars ['"'], Text.ofChars ['\'']])
    (hbreak : lineBreakLength tail ≠ 0)
    (hn : n = blanks.length + mark.length + label.length + mark.length + lineBreakLength tail) :
    ∃ opened rest, cs = opened ++ rest ∧ n = opened.length ∧
      OpensHeredoc label (Text.ofChars ['<', '<', '<'] ++ opened) := by
  obtain hnone | ⟨lineBreak, rest, hmem, rfl, hwidth⟩ := lineBreakLength_cases tail
  · exact absurd hnone hbreak
  · refine ⟨blanks ++ mark ++ label ++ mark ++ lineBreak, rest, ?_, ?_,
      blanks, mark, lineBreak, ?_, hblanks, hname, hmark, hmem⟩
    · rw [hcs]
      simp only [List.append_assoc]
    · rw [hn, hwidth]
      simp only [List.length_append]
    · simp only [List.append_assoc]

/-- What the recogniser takes for the opening of a heredoc is one. -/
theorem heredocStart?_opens {cs label : Text} {n : Nat}
    (hfound : heredocStart? cs = some (label, n)) :
    ∃ opened rest, cs = opened ++ rest ∧ n = opened.length ∧
      OpensHeredoc label (Text.ofChars ['<', '<', '<'] ++ opened) := by
  simp only [heredocStart?] at hfound
  have hblanks : ∀ c ∈ cs.take (Text.runLength CodePoint.isSpaceOrTab cs),
      c.isSpaceOrTab = true := fun c hmem => Text.mem_take_runLength hmem
  have hlength := Text.length_take_runLength CodePoint.isSpaceOrTab cs
  have hcs := (List.take_append_drop (Text.runLength CodePoint.isSpaceOrTab cs) cs).symm
  split at hfound
  · cases hfound
  · next c rest hrest =>
      rw [hrest] at hcs
      split at hfound
      · next hquoted =>
          have hsize := Text.length_take_runLength CodePoint.isNamePart rest
          have hbody := (List.take_append_drop (Text.runLength CodePoint.isNamePart rest) rest).symm
          split at hfound
          · cases hfound
          · next hstart =>
              split at hfound
              · next hclose =>
                  obtain ⟨tail, htail⟩ := List.head?_eq_some_iff.mp hclose
                  rw [htail] at hfound hbody
                  rw [List.drop_one, List.tail_cons] at hfound
                  split at hfound
                  · cases hfound
                  · next hbreak =>
                      rw [Option.some.injEq, Prod.mk.injEq] at hfound
                      obtain ⟨rfl, rfl⟩ := hfound
                      refine opensHeredoc_of_parts [c] tail ?_ hblanks
                        (isName_take_runLength hstart) ?_ hbreak ?_
                      · rw [List.append_assoc, List.append_assoc, List.append_assoc,
                          List.singleton_append, List.singleton_append, ← hbody, ← hcs]
                      · rcases hquoted with rfl | rfl
                        · simp [Text.ofChars]
                        · simp [Text.ofChars]
                      · rw [hlength, hsize, List.length_singleton]
              · cases hfound
      · have hsize := Text.length_take_runLength CodePoint.isNamePart (c :: rest)
        have hbody :=
          (List.take_append_drop (Text.runLength CodePoint.isNamePart (c :: rest)) (c :: rest)).symm
        split at hfound
        · cases hfound
        · next hstart =>
            split at hfound
            · cases hfound
            · next hbreak =>
                rw [Option.some.injEq, Prod.mk.injEq] at hfound
                obtain ⟨rfl, rfl⟩ := hfound
                refine opensHeredoc_of_parts [] _ ?_ hblanks (isName_take_runLength hstart)
                  (by simp) hbreak ?_
                · rw [List.append_nil, List.append_nil, List.append_assoc, ← hbody, ← hcs]
                · rw [hlength, hsize]
                  rfl

/-! ## Text outside tags -/

/-- An open tag starts here: the short one, or the word in any case before white space or the end. -/
def StartsOpenTag (t : Text) : Prop :=
  Text.ofChars ['<', '?', '='] <+: t ∨
    ∃ (p h r : CodePoint) (rest : Text), t = Text.ofChars ['<', '?'] ++ p :: h :: r :: rest ∧
      p.asciiLower = 'p' ∧ h.asciiLower = 'h' ∧ r.asciiLower = 'p' ∧
      ∀ c, rest.head? = some c → c.isBlank = true

/-- Text outside tags ends where the source ends or the next open tag starts. -/
def EndsHtml (_before after : Text) : Prop :=
  after = [] ∨ StartsOpenTag after

/-- A stretch of text outside tags: no open tag starts anywhere in it. -/
def IsInlineHtml (text after : Text) : Prop :=
  FirstStop EndsHtml [] text after

/-- The recogniser looks at no more than the five code points of the longer tag and the one behind
them, so the cases are those of a text with so many. -/
theorem openTag?_isSome_iff (t : Text) : (openTag? t).isSome = true ↔ StartsOpenTag t := by
  have hends (rest : Text) : rest.head?.all CodePoint.isBlank = true ↔
      ∀ c, rest.head? = some c → c.isBlank = true := by
    cases rest <;> simp
  rcases t with _ | ⟨a, _ | ⟨q, _ | ⟨p, _ | ⟨h, _ | ⟨r, rest⟩⟩⟩⟩⟩
  · simp [openTag?, StartsOpenTag, Text.ofChars]
  · simp [openTag?, openTagRest?, StartsOpenTag, Text.ofChars]
  · simp [openTag?, openTagRest?, StartsOpenTag, Text.ofChars]
  · by_cases hangle : a = '<'
    · simp [openTag?, openTagRest?, StartsOpenTag, Text.ofChars, hangle, @eq_comm _ q, @eq_comm _ p]
    · simp [openTag?, StartsOpenTag, Text.ofChars, hangle, Ne.symm hangle]
  · by_cases hangle : a = '<'
    · simp [openTag?, openTagRest?, StartsOpenTag, Text.ofChars, hangle, @eq_comm _ q, @eq_comm _ p]
    · simp [openTag?, StartsOpenTag, Text.ofChars, hangle, Ne.symm hangle]
  · by_cases hangle : a = '<'
    · by_cases hmark : q = '?'
      · by_cases hequals : p = '='
        · simp [openTag?, openTagRest?, StartsOpenTag, Text.ofChars, hangle, hmark, hequals]
        · simp [openTag?, openTagRest?, StartsOpenTag, Text.ofChars, hangle, hmark, hequals, hends,
            Ne.symm hequals, and_assoc]
      · simp [openTag?, openTagRest?, StartsOpenTag, Text.ofChars, hangle, hmark, Ne.symm hmark]
    · simp [openTag?, StartsOpenTag, Text.ofChars, hangle, Ne.symm hangle]

theorem htmlLength_finds (cs start : Text) :
    Finds EndsHtml (fun _ => 0) start cs (some (htmlLength cs)) := by
  induction cs generalizing start with
  | nil => exact .here (.inl rfl)
  | cons c cs ih =>
      rw [htmlLength]
      split
      · next htag => exact .here (.inr ((openTag?_isSome_iff _).mp htag))
      · next hnone =>
          refine .later_some ?_ (ih _)
          rintro (hempty | htag)
          · cases hempty
          · exact hnone ((openTag?_isSome_iff _).mpr htag)

end Php

end HookAtlas
