/-
# Escapes of double-quoted literals

A double-quoted literal may name code points by their numbers: up to three octal digits, up to two hexadecimal
ones, or any number of them in braces.  `NumericEscape` describes what is written behind the backslash and where
it ends, without reference to the decoder.

Whether a backslash opens an escape depends on the backslashes directly before it: it does where they are even
in number.  Decoding splits at such a place, so what an escape stands for depends neither on what is before it
nor on what is behind it.
-/

import HookAtlas.Php.Literal
import HookAtlas.Proofs.Php.Extent
import Mathlib.Data.List.Induction

namespace HookAtlas

/-- The numbers of the code points that a well-formed text may hold. -/
def CodePoint.IsScalarValue (n : Nat) : Prop :=
  n < 0xD800 ∨ 0xDFFF < n ∧ n ≤ 0x10FFFF

instance (n : Nat) : Decidable (CodePoint.IsScalarValue n) :=
  inferInstanceAs (Decidable (_ ∨ _))

namespace Text

/-- Behind an even number of backslashes the count starts anew. -/
theorem trailingBackslashes_append_mod {s : Text} (heven : s.trailingBackslashes % 2 = 0) (t : Text) :
    (s ++ t).trailingBackslashes % 2 = t.trailingBackslashes % 2 := by
  induction t using List.reverseRecOn with
  | nil =>
      rw [List.append_nil, heven]
      rfl
  | append_singleton t c ih =>
      rw [← List.append_assoc, trailingBackslashes_append_singleton,
        trailingBackslashes_append_singleton]
      split
      · omega
      · rfl

end Text

namespace Php

/-! ## What is written -/

/-- Digits between braces. -/
def inBraces (digits : Text) : Text :=
  CodePoint.ofChar '{' :: (digits ++ [CodePoint.ofChar '}'])

/-- The escapes that name a code point by its number: what is written behind the backslash, the number, and what
follows.  Octal and hexadecimal digits without braces go on as far as they can. -/
inductive NumericEscape : Text → Nat → Text → Prop
  /-- Up to three octal digits; of the number that they stand for only the last byte counts. -/
  | octal {digits rest : Text} (hsome : digits ≠ []) (hfew : digits.length ≤ 3)
      (hdigits : ∀ c ∈ digits, c.isOctalDigit = true)
      (hend : digits.length = 3 ∨ Text.StartsOutside CodePoint.isOctalDigit rest) :
      NumericEscape digits (octalNumber digits % 256) rest
  /-- Up to two hexadecimal digits. -/
  | hexadecimal {digits rest : Text} (hsome : digits ≠ []) (hfew : digits.length ≤ 2)
      (hdigits : ∀ c ∈ digits, c.isHexDigit = true)
      (hend : digits.length = 2 ∨ Text.StartsOutside CodePoint.isHexDigit rest) :
      NumericEscape (CodePoint.ofChar 'x' :: digits) (hexNumber digits) rest
  /-- Any number of hexadecimal digits in braces. -/
  | braced {digits rest : Text} (hsome : digits ≠ [])
      (hdigits : ∀ c ∈ digits, c.isHexDigit = true) :
      NumericEscape (CodePoint.ofChar 'u' :: inBraces digits) (hexNumber digits) rest

/-- What a numeric escape stands for: the code point of its number, or where no well-formed text may hold that
one, the escape as it is written. -/
def namedText (written : Text) (number : Nat) : Text :=
  if CodePoint.IsScalarValue number then [CodePoint.ofNat number]
  else CodePoint.ofChar '\\' :: written

/-! ## The digits of an escape -/

theorem leadingDigits_append {p : CodePoint → Bool} {digits rest : Text} {limit : Nat}
    (hfew : digits.length ≤ limit) (hdigits : ∀ c ∈ digits, p c = true)
    (hend : digits.length = limit ∨ Text.StartsOutside p rest) :
    leadingDigits p limit (digits ++ rest) = digits := by
  have hsize : min limit (Text.runLength p (digits ++ rest)) = digits.length := by
    rcases hend with hfull | houtside
    · rw [Text.runLength_append_of_all hdigits]
      omega
    · rw [Text.runLength_append hdigits houtside]
      omega
  rw [leadingDigits, hsize, List.take_left]

/-- The leading digits are in their class, no more than the limit, and as many as there can be. -/
theorem leadingDigits_split (p : CodePoint → Bool) (limit : Nat) (t : Text) :
    ∃ rest, t = leadingDigits p limit t ++ rest ∧ (leadingDigits p limit t).length ≤ limit ∧
      (∀ c ∈ leadingDigits p limit t, p c = true) ∧
      ((leadingDigits p limit t).length = limit ∨ Text.StartsOutside p rest) := by
  have hrun := Text.runLength_le_length p t
  refine ⟨t.drop (min limit (Text.runLength p t)), (List.take_append_drop _ t).symm, ?_, ?_, ?_⟩
  · rw [leadingDigits, List.length_take]
    omega
  · intro c hmem
    exact Text.mem_take_runLength (List.take_subset_take_left t (Nat.min_le_right _ _) hmem)
  · rcases Nat.le_total limit (Text.runLength p t) with hmore | hfewer
    · left
      rw [leadingDigits, List.length_take]
      omega
    · right
      rw [Nat.min_eq_right hfewer]
      exact Text.startsOutside_drop_runLength p t

theorem hexNumber_lt {digits : Text} (hfew : digits.length ≤ 2)
    (hdigits : ∀ c ∈ digits, c.isHexDigit = true) : hexNumber digits < 256 := by
  have hvalue (c : CodePoint) : c.hexValue?.getD 0 < 16 := by
    rw [CodePoint.hexValue?]
    repeat' split
    all_goals
      rw [Option.getD]
      omega
  match digits with
  | [] => decide
  | [a] =>
      have ha := hvalue a
      show 0 * 16 + a.hexValue?.getD 0 < 256
      omega
  | [a, b] =>
      have ha := hvalue a
      have hb := hvalue b
      show (0 * 16 + a.hexValue?.getD 0) * 16 + b.hexValue?.getD 0 < 256
      omega
  | _ :: _ :: _ :: _ =>
      simp only [List.length_cons] at hfew
      omega

theorem namedText_of_lt {number : Nat} (hbyte : number < 256) (written : Text) :
    namedText written number = [CodePoint.ofNat number] := by
  rw [namedText, if_pos]
  exact .inl (by omega)

/-- A digit stands for itself behind a backslash only as a number. -/
theorem simpleEscape?_of_isOctalDigit {c : CodePoint} (hdigit : c.isOctalDigit = true) :
    simpleEscape? c = none := by
  have hne (mark : CodePoint) (hmark : mark.isOctalDigit = false) : c ≠ mark := by
    rintro rfl
    rw [hdigit] at hmark
    cases hmark
  simp only [simpleEscape?, hne 'n' (by decide), hne 't' (by decide), hne 'r' (by decide),
    hne 'v' (by decide), hne 'e' (by decide), hne 'f' (by decide), hne '\\' (by decide),
    hne '$' (by decide), hne '"' (by decide), or_self, if_false]

/-! ## Digits in braces -/

theorem length_inBraces (digits : Text) : (inBraces digits).length = digits.length + 2 := by
  rw [inBraces, List.length_cons, List.length_append, List.length_singleton]

theorem inBraces_append (digits rest : Text) :
    inBraces digits ++ rest = CodePoint.ofChar '{' :: (digits ++ CodePoint.ofChar '}' :: rest) := by
  rw [inBraces, List.cons_append, List.append_assoc, List.singleton_append]

theorem bracedDigits?_inBraces {digits : Text} (hsome : digits ≠ [])
    (hdigits : ∀ c ∈ digits, c.isHexDigit = true) (rest : Text) :
    bracedDigits? (inBraces digits ++ rest) = some (digits, (inBraces digits).length) := by
  have hsize : Text.runLength CodePoint.isHexDigit (digits ++ CodePoint.ofChar '}' :: rest) =
      digits.length :=
    Text.runLength_append hdigits (Text.startsOutside_cons.mpr (by decide))
  have hlength : digits.length ≠ 0 := fun hzero => hsome (List.length_eq_zero_iff.mp hzero)
  simp only [inBraces_append, bracedDigits?, hsize, List.drop_left, List.take_left, length_inBraces]
  exact if_pos ⟨trivial, hlength, rfl⟩

/-- What is read between braces are hexadecimal digits, and no brace is missing. -/
theorem bracedDigits?_eq_some {cs digits : Text} {used : Nat}
    (hread : bracedDigits? cs = some (digits, used)) :
    ∃ rest, cs = inBraces digits ++ rest ∧ used = (inBraces digits).length ∧ digits ≠ [] ∧
      ∀ c ∈ digits, c.isHexDigit = true := by
  cases cs with
  | nil => cases hread
  | cons c cs =>
      simp only [bracedDigits?] at hread
      split at hread
      · next hbraces =>
          obtain ⟨rfl, hsize, hclose⟩ := hbraces
          obtain ⟨rest, hrest⟩ := List.head?_eq_some_iff.mp hclose
          have hlength := Text.length_take_runLength CodePoint.isHexDigit cs
          rw [Option.some.injEq, Prod.mk.injEq] at hread
          obtain ⟨rfl, rfl⟩ := hread
          refine ⟨rest, ?_, by rw [length_inBraces, hlength], ?_,
            fun c hmem => Text.mem_take_runLength hmem⟩
          · rw [inBraces_append, ← hrest, List.take_append_drop]
          · intro hnil
            rw [hnil, List.length_nil] at hlength
            exact hsize hlength.symm
      · cases hread

/-! ## Reading an escape -/

/-- A numeric escape is read to its end. -/
theorem doubleEscape?_of_numericEscape {written rest : Text} {number : Nat}
    (hescape : NumericEscape written number rest) :
    doubleEscape? (written ++ rest) = some (namedText written number, written.length) := by
  cases hescape with
  | @octal digits rest hsome hfew hdigits hend =>
      obtain ⟨d, ds, rfl⟩ := List.exists_cons_of_ne_nil hsome
      have hdigit := hdigits d List.mem_cons_self
      have hleading := leadingDigits_append hfew hdigits hend
      rw [List.cons_append] at hleading
      rw [List.cons_append, doubleEscape?, simpleEscape?_of_isOctalDigit hdigit]
      dsimp only
      rw [if_pos hdigit, hleading, namedText_of_lt (Nat.mod_lt _ (by decide))]
  | @hexadecimal digits rest hsome hfew hdigits hend =>
      obtain ⟨d, ds, rfl⟩ := List.exists_cons_of_ne_nil hsome
      have hleading := leadingDigits_append hfew hdigits hend
      have hsimple : simpleEscape? 'x' = none := by decide
      rw [List.cons_append, doubleEscape?, hsimple]
      dsimp only
      rw [if_neg (by decide), if_pos rfl, hleading,
        namedText_of_lt (hexNumber_lt hfew hdigits), List.length_cons, Nat.add_comm]
  | @braced digits rest hsome hdigits =>
      have hsimple : simpleEscape? 'u' = none := by decide
      rw [List.cons_append, doubleEscape?, hsimple]
      dsimp only
      rw [if_neg (by decide), if_neg (by decide), if_pos rfl, bracedDigits?_inBraces hsome hdigits]
      dsimp only
      rw [List.take_left, namedText, List.length_cons, Nat.add_comm]
      by_cases hscalar : CodePoint.IsScalarValue (hexNumber digits)
      · rw [if_pos hscalar, if_neg]
        rw [CodePoint.IsScalarValue] at hscalar
        omega
      · rw [if_neg hscalar, if_pos]
        rw [CodePoint.IsScalarValue] at hscalar
        omega

/-- What is read behind a backslash is a single mark or a numeric escape. -/
theorem doubleEscape?_eq_some {cs value : Text} {used : Nat}
    (hread : doubleEscape? cs = some (value, used)) :
    ∃ written rest, cs = written ++ rest ∧ used = written.length ∧
      ((∃ mark meant, written = [mark] ∧ simpleEscape? mark = some meant ∧ value = [meant]) ∨
        ∃ number, NumericEscape written number rest ∧ value = namedText written number) := by
  -- A numeric escape that stands here is read to its end, so it gives the value.
  have hnumeric {written rest : Text} {number : Nat} (hcs : cs = written ++ rest)
      (hescape : NumericEscape written number rest) :
      ∃ written rest, cs = written ++ rest ∧ used = written.length ∧
        ((∃ mark meant, written = [mark] ∧ simpleEscape? mark = some meant ∧ value = [meant]) ∨
          ∃ number, NumericEscape written number rest ∧ value = namedText written number) := by
    rw [hcs, doubleEscape?_of_numericEscape hescape, Option.some.injEq, Prod.mk.injEq] at hread
    exact ⟨written, rest, hcs, hread.2.symm, .inr ⟨number, hescape, hread.1.symm⟩⟩
  cases cs with
  | nil => cases hread
  | cons c cs =>
      have hread' := hread
      rw [doubleEscape?] at hread'
      split at hread'
      · next meant hsimple =>
          rw [Option.some.injEq, Prod.mk.injEq] at hread'
          exact ⟨[c], cs, rfl, hread'.2.symm, .inl ⟨c, meant, rfl, hsimple, hread'.1.symm⟩⟩
      split at hread'
      · next hoctal =>
          obtain ⟨rest, hsplit, hfew, hdigits, hend⟩ :=
            leadingDigits_split CodePoint.isOctalDigit 3 (c :: cs)
          refine hnumeric hsplit (.octal ?_ hfew hdigits hend)
          intro hnil
          rw [hnil, List.nil_append] at hsplit
          rw [hnil, ← hsplit] at hend
          rcases hend with hfull | houtside
          · cases hfull
          · rw [Text.startsOutside_cons.mp houtside] at hoctal
            cases hoctal
      split at hread'
      · next hx =>
          obtain ⟨rest, hsplit, hfew, hdigits, hend⟩ :=
            leadingDigits_split CodePoint.isHexDigit 2 cs
          split at hread'
          · cases hread'
          · next digits hsome =>
              refine hnumeric (congrArg₂ List.cons hx hsplit) (.hexadecimal ?_ hfew hdigits hend)
              exact hsome
      split at hread'
      · next hu =>
          split at hread'
          · cases hread'
          · next digits size hbraced =>
              obtain ⟨rest, hsplit, -, hsome, hdigits⟩ := bracedDigits?_eq_some hbraced
              exact hnumeric (congrArg₂ List.cons hu hsplit) (.braced hsome hdigits)
      · cases hread'

/-! ## Decoding splits before an escape -/

/-- No class of digits goes on behind a backslash. -/
theorem leadingDigits_append_of_startsOutside {p : CodePoint → Bool} (limit : Nat) (cs : Text)
    {rest : Text} (houtside : Text.StartsOutside p rest) :
    leadingDigits p limit (cs ++ rest) = leadingDigits p limit cs := by
  have hrun := Text.runLength_le_length p cs
  rw [leadingDigits, Text.runLength_append_of_startsOutside cs houtside,
    List.take_append_of_le_length (by omega), leadingDigits]

theorem bracedDigits?_append_backslash (cs rest : Text) :
    bracedDigits? (cs ++ CodePoint.ofChar '\\' :: rest) = bracedDigits? cs := by
  have houtside : Text.StartsOutside CodePoint.isHexDigit (CodePoint.ofChar '\\' :: rest) :=
    Text.startsOutside_cons.mpr (by decide)
  cases cs with
  | nil =>
      have hbrace : CodePoint.ofChar '\\' ≠ CodePoint.ofChar '{' := by decide
      simp only [List.nil_append, bracedDigits?, hbrace, false_and, if_false]
  | cons c cs =>
      have hrun := Text.runLength_le_length CodePoint.isHexDigit cs
      have hclose : ((cs ++ CodePoint.ofChar '\\' :: rest).drop
            (Text.runLength CodePoint.isHexDigit cs)).head? = some (CodePoint.ofChar '}') ↔
          (cs.drop (Text.runLength CodePoint.isHexDigit cs)).head? = some (CodePoint.ofChar '}') := by
        rw [List.drop_append_of_le_length hrun]
        cases cs.drop (Text.runLength CodePoint.isHexDigit cs) with
        | nil =>
            refine iff_of_false (fun heq => absurd (Option.some.inj heq) (by decide)) fun heq => ?_
            cases heq
        | cons d ds => rfl
      simp only [List.cons_append, bracedDigits?, Text.runLength_append_of_startsOutside cs houtside,
        hclose, List.take_append_of_le_length hrun]

/-- An escape does not go on behind the next backslash. -/
theorem doubleEscape?_append_backslash {cs : Text} (hsome : cs ≠ []) (rest : Text) :
    doubleEscape? (cs ++ CodePoint.ofChar '\\' :: rest) = doubleEscape? cs := by
  have hhex : Text.StartsOutside CodePoint.isHexDigit (CodePoint.ofChar '\\' :: rest) :=
    Text.startsOutside_cons.mpr (by decide)
  have hoctal : Text.StartsOutside CodePoint.isOctalDigit (CodePoint.ofChar '\\' :: rest) :=
    Text.startsOutside_cons.mpr (by decide)
  obtain ⟨c, cs, rfl⟩ := List.exists_cons_of_ne_nil hsome
  have hdigits := leadingDigits_append_of_startsOutside 3 (c :: cs) hoctal
  rw [List.cons_append] at hdigits
  rw [List.cons_append, doubleEscape?, doubleEscape?, hdigits,
    leadingDigits_append_of_startsOutside 2 cs hhex, bracedDigits?_append_backslash]
  -- The text of an escape in braces that is kept is taken from what follows it.
  cases hbraced : bracedDigits? cs with
  | none => rfl
  | some found =>
      obtain ⟨digits, used⟩ := found
      obtain ⟨tail, rfl, rfl, -, -⟩ := bracedDigits?_eq_some hbraced
      dsimp only
      rw [List.append_assoc, List.take_left, List.take_left]

/-- What is read behind a backslash leaves an even number of backslashes. -/
theorem trailingBackslashes_of_doubleEscape? {cs value : Text} {used : Nat}
    (hread : doubleEscape? cs = some (value, used)) :
    Text.trailingBackslashes (CodePoint.ofChar '\\' :: cs.take used) % 2 = 0 := by
  obtain ⟨written, rest, rfl, rfl, hkind⟩ := doubleEscape?_eq_some hread
  rw [List.take_left]
  -- A digit or a brace at the end is no backslash, and a single mark may be one.
  have hlast (before : Text) {c : CodePoint} (hc : c ≠ CodePoint.ofChar '\\') :
      Text.trailingBackslashes (before ++ [c]) % 2 = 0 := by
    rw [Text.trailingBackslashes_append_singleton, if_neg hc]
  have hdigit (before : Text) {digits : Text} (hsome : digits ≠ []) {p : CodePoint → Bool}
      (hdigits : ∀ c ∈ digits, p c = true) (hp : p '\\' = false) :
      Text.trailingBackslashes (before ++ digits) % 2 = 0 := by
    rw [← List.dropLast_concat_getLast hsome, ← List.append_assoc]
    refine hlast _ fun heq => ?_
    have hmem := hdigits _ (List.getLast_mem hsome)
    rw [heq, hp] at hmem
    cases hmem
  rcases hkind with ⟨mark, meant, rfl, -, -⟩ | ⟨number, hescape, -⟩
  · by_cases hmark : mark = CodePoint.ofChar '\\'
    · rw [hmark]
      decide
    · exact hlast [CodePoint.ofChar '\\'] hmark
  · cases hescape with
    | octal hsome _ hdigits _ => exact hdigit [CodePoint.ofChar '\\'] hsome hdigits (by decide)
    | hexadecimal hsome _ hdigits _ =>
        exact hdigit [CodePoint.ofChar '\\', CodePoint.ofChar 'x'] hsome hdigits (by decide)
    | @braced digits _ _ _ =>
        exact hlast (CodePoint.ofChar '\\' :: CodePoint.ofChar 'u' :: CodePoint.ofChar '{' :: digits)
          (by decide)

/-- Decoding splits before a backslash behind an even number of them. -/
theorem decodeDouble_append_backslash {front : Text} (heven : front.trailingBackslashes % 2 = 0)
    (rest : Text) :
    decodeDouble (front ++ CodePoint.ofChar '\\' :: rest) =
      decodeDouble front ++ decodeDouble (CodePoint.ofChar '\\' :: rest) := by
  fun_induction decodeDouble front with
  | case1 => rw [List.nil_append, List.nil_append]
  | case2 cs value used hread ih =>
      obtain ⟨written, tail, hcs, hused, -⟩ := doubleEscape?_eq_some hread
      have hescape := trailingBackslashes_of_doubleEscape? hread
      have hsome : cs ≠ [] := by
        rintro rfl
        cases hread
      have hle : used ≤ cs.length := by
        rw [hcs, hused, List.length_append]
        omega
      have hsplit : CodePoint.ofChar '\\' :: cs =
          (CodePoint.ofChar '\\' :: cs.take used) ++ cs.drop used := by
        rw [List.cons_append, List.take_append_drop]
      rw [hsplit, Text.trailingBackslashes_append_mod hescape] at heven
      rw [List.cons_append, decodeDouble, if_pos rfl, doubleEscape?_append_backslash hsome, hread]
      dsimp only
      rw [List.drop_append_of_le_length hle, ih heven, List.append_assoc]
  | case3 cs hread ih =>
      cases cs with
      | nil => exact absurd heven (by decide)
      | cons c cs =>
          have hplain : c ≠ CodePoint.ofChar '\\' := by
            rintro rfl
            exact absurd hread nofun
          have hfirst (before : Text) : (before ++ [c]).trailingBackslashes % 2 = 0 := by
            rw [Text.trailingBackslashes_append_singleton, if_neg hplain]
          have hsame := Text.trailingBackslashes_append_mod (hfirst [CodePoint.ofChar '\\']) cs
          have hrest := Text.trailingBackslashes_append_mod (hfirst []) cs
          rw [List.cons_append, decodeDouble, if_pos rfl,
            doubleEscape?_append_backslash (List.cons_ne_nil c cs), hread]
          dsimp only
          rw [ih (hrest.trans (hsame.symm.trans heven)), List.cons_append]
  | case4 c cs hplain ih =>
      have hfirst : Text.trailingBackslashes [c] % 2 = 0 := by
        rw [← List.nil_append [c], Text.trailingBackslashes_append_singleton, if_neg hplain]
      have hsame := Text.trailingBackslashes_append_mod hfirst cs
      rw [List.cons_append, decodeDouble, if_neg hplain, ih (hsame.symm.trans heven),
        List.cons_append]

end Php
end HookAtlas
