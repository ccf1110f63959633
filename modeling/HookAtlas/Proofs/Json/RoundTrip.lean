/-
# JSON values read back

A value that was written is read back, unless it holds a double, a surrogate in a text, or a field twice:
doubles are rounded by the reader, two surrogates in a row are joined, and a repeated field is kept once.
`IsExact` rules these out, and whole numbers that are too long to be written and read.

The reader spends fuel on every call.  `ReadsValues`, `ReadsItems` and `ReadsFields` say that an amount
of fuel suffices for everything that is short enough for it; each step of the reader gives them for one
more from what the others have for one less, and the induction is on the fuel.
-/

import HookAtlas.Proofs.Json.StringText
import HookAtlas.Proofs.Text.Run

namespace HookAtlas.Json

/-! ## Exact values -/

mutual

/-- A value that the reader gets back from its text. -/
def IsExact : Json → Prop
  | .null | .bool _ => True
  | .int n => n.natAbs < Nat.pow 10 Number.maxDigits
  | .float _ => False
  | .text t => t.isScalar = true
  | .list items => AreExact items
  | .object fields => (fields.map Prod.fst).Nodup ∧ HasExactFields fields

/-- All items are exact. -/
def AreExact : List Json → Prop
  | [] => True
  | item :: items => IsExact item ∧ AreExact items

/-- All names are well-formed and all values are exact. -/
def HasExactFields : List (Text × Json) → Prop
  | [] => True
  | (name, value) :: fields => name.isScalar = true ∧ IsExact value ∧ HasExactFields fields

end

/-! ## Numbers -/

/-- The code points with which a number may go on. -/
def continuesNumber (c : CodePoint) : Bool :=
  c.isAsciiDigit || c = '.' || c = 'e' || c = 'E'

theorem splitDigits_append {digits rest : Text} (hdigits : ∀ c ∈ digits, c.isAsciiDigit = true)
    (hrest : Text.StartsOutside CodePoint.isAsciiDigit rest) :
    splitDigits (digits ++ rest) = (digits, rest) := by
  have hnone : rest.takeWhile CodePoint.isAsciiDigit = [] ∧
      rest.dropWhile CodePoint.isAsciiDigit = rest := by
    cases rest with
    | nil => exact ⟨rfl, rfl⟩
    | cons c cs =>
        have hc := Text.startsOutside_cons.mp hrest
        rw [List.takeWhile_cons, List.dropWhile_cons, hc]
        exact ⟨rfl, rfl⟩
  rw [splitDigits, List.takeWhile_append_of_pos hdigits, List.dropWhile_append_of_pos hdigits,
    hnone.1, hnone.2, List.append_nil]

/-- A number ends before a text that does not go on with it. -/
theorem splitFraction_of_ends {rest : Text} (hrest : Text.StartsOutside continuesNumber rest) :
    splitFraction rest = (none, rest) := by
  cases rest with
  | nil => rfl
  | cons c cs =>
      have hc := Text.startsOutside_cons.mp hrest
      rw [splitFraction]
      dsimp only
      rw [if_neg]
      rintro ⟨rfl, -⟩
      exact absurd hc (by decide)

theorem splitExponent_of_ends {rest : Text} (hrest : Text.StartsOutside continuesNumber rest) :
    splitExponent rest = (none, rest) := by
  cases rest with
  | nil => rfl
  | cons c cs =>
      have hc := Text.startsOutside_cons.mp hrest
      have hletter : ¬ (c = 'e' ∨ c = 'E') := by
        rintro (rfl | rfl)
        · exact absurd hc (by decide)
        · exact absurd hc (by decide)
      rw [splitExponent.eq_def]
      dsimp only
      rw [if_neg fun hexponent => hletter hexponent.1]

/-- The digits of a number are read back.  The reader takes a zero in front for the whole number, and
only zero itself is written with one. -/
theorem parseMagnitude?_natText (negative : Bool) (n : Nat) (hshort : n < Nat.pow 10 Number.maxDigits)
    {rest : Text} (hrest : Text.StartsOutside continuesNumber rest) :
    parseMagnitude? negative (Number.natText n ++ rest) =
      some (.int (if negative then -(n : Int) else n), rest) := by
  have houtside : Text.StartsOutside CodePoint.isAsciiDigit rest := by
    intro c hhead
    have hc := hrest c hhead
    simp only [continuesNumber, Bool.or_eq_false_iff] at hc
    exact hc.1.1.1
  have hdigits := @Number.isAsciiDigit_of_mem_natText n
  obtain ⟨c, cs, hcons⟩ := List.exists_cons_of_ne_nil (Number.natText_ne_nil n)
  have hwhole : (if c = '0' then ([c], cs ++ rest) else splitDigits (c :: (cs ++ rest))) =
      (Number.natText n, rest) := by
    by_cases hzero : c = '0'
    · have hn : n = 0 := Number.natText_eq_of_head?_zero (by rw [hcons, hzero]; rfl)
      have htext : Number.natText n = [CodePoint.ofDigit 0] := by
        rw [hn, Number.natText]
        rfl
      rw [htext, List.cons.injEq] at hcons
      rw [if_pos hzero, htext, ← hcons.1, ← hcons.2, List.nil_append]
    · rw [if_neg hzero, ← List.cons_append, ← hcons, splitDigits_append hdigits houtside]
  have hvalue : digitsValue (Number.natText n) = n := Number.decimalValue_natText n
  have hlength : (Number.natText n).length ≤ Number.maxDigits :=
    Number.length_natText_le (by decide) hshort
  have hfirst : c.isAsciiDigit = true := hdigits c (by rw [hcons]; exact List.mem_cons_self)
  rw [hcons, List.cons_append, parseMagnitude?, hfirst, Bool.not_true, if_neg Bool.false_ne_true,
    hwhole]
  dsimp only
  rw [splitFraction_of_ends hrest]
  dsimp only
  rw [splitExponent_of_ends hrest, hvalue]
  rw [Option.isNone_none, Option.isNone_none, Bool.and_self, if_pos rfl,
    if_neg (Nat.not_lt_of_le hlength)]
  rfl

/-! ## Words and numbers -/

/-- A word is not taken off a text that starts with another code point. -/
theorem takeWord?_eq_none {first : Char} {word : List Char} {c : CodePoint} (hfirst : c ≠ first)
    (cs : Text) : takeWord? (first :: word) (c :: cs) = none := by
  rw [takeWord?, if_neg]
  rw [List.isPrefixOf_iff_prefix, Text.ofChars, List.map_cons, List.cons_prefix_cons]
  exact fun hprefix => hfirst hprefix.1.symm

/-- A word that a text starts with is taken off. -/
theorem takeWord?_append (word : List Char) (rest : Text) :
    takeWord? word (Text.ofChars word ++ rest) = some rest := by
  have hlength : word.length = (Text.ofChars word).length := (List.length_map _).symm
  rw [takeWord?, if_pos, hlength, List.drop_left]
  rw [List.isPrefixOf_iff_prefix]
  exact List.prefix_append _ _

/-- Where no word is taken off, a number is read. -/
theorem parseScalar?_of_noWord {c : CodePoint} {cs : Text}
    (hletter : c ≠ 'n' ∧ c ≠ 't' ∧ c ≠ 'f' ∧ c ≠ 'N' ∧ c ≠ 'I')
    (hminus : takeWord? ['-', 'I', 'n', 'f', 'i', 'n', 'i', 't', 'y'] (c :: cs) = none) :
    parseScalar? (c :: cs) =
      if c = '-' then parseMagnitude? true cs else parseMagnitude? false (c :: cs) := by
  rw [parseScalar?, takeWord?_eq_none hletter.1, takeWord?_eq_none hletter.2.1,
    takeWord?_eq_none hletter.2.2.1, takeWord?_eq_none hletter.2.2.2.1,
    takeWord?_eq_none hletter.2.2.2.2, hminus]
  rfl

theorem ne_of_isAsciiDigit {c : CodePoint} (hdigit : c.isAsciiDigit = true) {mark : Char}
    (hmark : CodePoint.isAsciiDigit mark = false) : c ≠ mark := by
  rintro rfl
  rw [hdigit] at hmark
  cases hmark

/-- An integer is read back. -/
theorem parseScalar?_intText {n : Int} (hshort : n.natAbs < Nat.pow 10 Number.maxDigits) {rest : Text}
    (hrest : Text.StartsOutside continuesNumber rest) :
    parseScalar? (Number.intText n ++ rest) = some (.int n, rest) := by
  cases n with
  | ofNat n =>
      obtain ⟨c, cs, hcons⟩ := List.exists_cons_of_ne_nil (Number.natText_ne_nil n)
      have hdigit : c.isAsciiDigit = true :=
        Number.isAsciiDigit_of_mem_natText c (by rw [hcons]; exact List.mem_cons_self)
      have hother {mark : Char} := @ne_of_isAsciiDigit c hdigit mark
      rw [Number.intText, hcons, List.cons_append, parseScalar?_of_noWord
        ⟨hother (by decide), hother (by decide), hother (by decide), hother (by decide),
          hother (by decide)⟩ (takeWord?_eq_none (hother (by decide)) _),
        if_neg (hother (by decide)), ← List.cons_append, ← hcons, parseMagnitude?_natText false n hshort hrest]
      rfl
  | negSucc n =>
      obtain ⟨c, cs, hcons⟩ := List.exists_cons_of_ne_nil (Number.natText_ne_nil (n + 1))
      have hdigit : c.isAsciiDigit = true :=
        Number.isAsciiDigit_of_mem_natText c (by rw [hcons]; exact List.mem_cons_self)
      have hword : takeWord? ['-', 'I', 'n', 'f', 'i', 'n', 'i', 't', 'y']
          (CodePoint.ofChar '-' :: (Number.natText (n + 1) ++ rest)) = none := by
        rw [takeWord?, if_neg]
        rw [hcons, List.isPrefixOf_iff_prefix, Text.ofChars, List.map_cons, List.map_cons,
          List.cons_prefix_cons, List.cons_append, List.cons_prefix_cons]
        exact fun hprefix => ne_of_isAsciiDigit hdigit (by decide) hprefix.2.1.symm
      rw [Number.intText, List.cons_append, parseScalar?_of_noWord (by decide) hword, if_pos rfl,
        parseMagnitude?_natText true (n + 1) hshort hrest]
      rfl

/-! ## White space and first code points -/

theorem skipSpace_cons {c : CodePoint} (hspace : isSpace c = false) (cs : Text) :
    skipSpace (c :: cs) = c :: cs := by
  rw [skipSpace, List.dropWhile_cons, hspace]
  rfl

/-- A blank after a comma or a colon is skipped. -/
theorem skipSpace_blank {c : CodePoint} (hspace : isSpace c = false) (cs : Text) :
    skipSpace (CodePoint.ofChar ' ' :: c :: cs) = c :: cs :=
  skipSpace_cons hspace cs

/-- An integer starts with a digit or with its sign. -/
theorem intText_eq_cons (n : Int) :
    ∃ c cs, Number.intText n = c :: cs ∧ (c.isAsciiDigit = true ∨ c = '-') := by
  cases n with
  | ofNat n =>
      obtain ⟨c, cs, hcons⟩ := List.exists_cons_of_ne_nil (Number.natText_ne_nil n)
      refine ⟨c, cs, hcons, .inl ?_⟩
      exact Number.isAsciiDigit_of_mem_natText c (by rw [hcons]; exact List.mem_cons_self)
  | negSucc n => exact ⟨_, _, rfl, .inr rfl⟩

/-- A value starts with something else than white space and the mark that closes a list. -/
theorem print_eq_cons {value : Json} (hexact : value.IsExact) :
    ∃ c cs, value.print = c :: cs ∧ isSpace c = false ∧ c ≠ ']' := by
  cases value with
  | null => exact ⟨_, _, rfl, by decide, by decide⟩
  | bool value =>
      cases value with
      | true => exact ⟨_, _, rfl, by decide, by decide⟩
      | false => exact ⟨_, _, rfl, by decide, by decide⟩
  | int n =>
      obtain ⟨c, cs, hcons, hfirst⟩ := intText_eq_cons n
      refine ⟨c, cs, hcons, ?_⟩
      rcases hfirst with hdigit | rfl
      · refine ⟨?_, ne_of_isAsciiDigit hdigit (by decide)⟩
        simp only [CodePoint.isAsciiDigit, Bool.and_eq_true, decide_eq_true_eq] at hdigit
        simp only [isSpace, Bool.or_eq_false_iff, beq_eq_false_iff_ne]
        omega
      · decide
  | float x => exact hexact.elim
  | text t => exact ⟨_, _, rfl, by decide, by decide⟩
  | list items => exact ⟨_, _, rfl, by decide, by decide⟩
  | object fields => exact ⟨_, _, rfl, by decide, by decide⟩

theorem printItems_eq_cons {item : Json} (hexact : item.IsExact) (items : List Json) :
    ∃ c cs, printItems (item :: items) = c :: cs ∧ isSpace c = false ∧ c ≠ ']' := by
  obtain ⟨c, cs, hprint, hfirst⟩ := print_eq_cons hexact
  cases items with
  | nil => exact ⟨c, cs, hprint, hfirst⟩
  | cons next items =>
      rw [printItems, hprint]
      exact ⟨c, _, rfl, hfirst⟩

theorem printFields_eq_cons (field : Text × Json) (fields : List (Text × Json)) :
    ∃ cs, printFields (field :: fields) = CodePoint.ofChar '"' :: cs := by
  cases fields with
  | nil => exact ⟨_, rfl⟩
  | cons next fields => exact ⟨_, rfl⟩

/-! ## Steps of the reader -/

/-- So much fuel suffices for every value that is short enough for it. -/
def ReadsValues (fuel : Nat) : Prop :=
  ∀ value rest, IsExact value → Text.StartsOutside continuesNumber rest →
    2 * value.print.length ≤ fuel → parseValue? fuel (value.print ++ rest) = some (value, rest)

/-- So much fuel suffices for the items of every list that is short enough for it. -/
def ReadsItems (fuel : Nat) : Prop :=
  ∀ item items rest, AreExact (item :: items) → 2 * (printItems (item :: items)).length + 1 ≤ fuel →
    parseItems? fuel (printItems (item :: items) ++ CodePoint.ofChar ']' :: rest) =
      some (item :: items, rest)

/-- So much fuel suffices for the fields of every object that is short enough for it. -/
def ReadsFields (fuel : Nat) : Prop :=
  ∀ before field fields rest, ((before ++ field :: fields).map Prod.fst).Nodup →
    HasExactFields (field :: fields) → 2 * (printFields (field :: fields)).length + 1 ≤ fuel →
    parseFields? fuel before (printFields (field :: fields) ++ CodePoint.ofChar '}' :: rest) =
      some (before ++ field :: fields, rest)

theorem readsItems_succ {fuel : Nat} (hvalues : ReadsValues fuel) (hitems : ReadsItems fuel) :
    ReadsItems (fuel + 1) := by
  intro item items rest hexact hfuel
  obtain ⟨hitem, hothers⟩ := hexact
  cases items with
  | nil =>
      rw [printItems] at hfuel ⊢
      rw [parseItems?, hvalues item _ hitem (Text.startsOutside_cons.mpr (by decide)) (by omega)]
      dsimp only
      rw [skipSpace_cons (by decide)]
      dsimp only
      rw [if_pos rfl]
  | cons next items =>
      obtain ⟨c, cs, hnext, hspace, -⟩ := printItems_eq_cons hothers.1 items
      have hseparator : (Text.ofChars [',', ' ']).length = 2 := rfl
      rw [printItems, List.length_append, List.length_append, hseparator] at hfuel
      have htext : printItems (item :: next :: items) ++ CodePoint.ofChar ']' :: rest =
          item.print ++ (CodePoint.ofChar ',' :: CodePoint.ofChar ' ' ::
            (printItems (next :: items) ++ CodePoint.ofChar ']' :: rest)) := by
        rw [printItems, List.append_assoc, List.append_assoc]
        rfl
      rw [htext, parseItems?,
        hvalues item _ hitem (Text.startsOutside_cons.mpr (by decide)) (by omega)]
      dsimp only
      rw [skipSpace_cons (by decide)]
      dsimp only
      rw [if_neg (by decide), if_pos rfl, hnext, List.cons_append, skipSpace_blank hspace,
        ← List.cons_append, ← hnext, hitems next items rest hothers (by omega)]
      rfl

/-- A field with a new name goes to the end. -/
theorem putField_of_not_mem {name : Text} {value : Json} {fields : List (Text × Json)}
    (hnew : name ∉ fields.map Prod.fst) : putField name value fields = fields ++ [(name, value)] := by
  induction fields with
  | nil => rfl
  | cons field fields ih =>
      rw [List.map_cons, List.mem_cons, not_or] at hnew
      rw [putField, if_neg fun heq => hnew.1 heq.symm, ih hnew.2]
      rfl

/-- The name and the value of a field are read back, and the reader goes on behind the value. -/
theorem parseFields?_field {fuel : Nat} {name : Text} {value : Json} {after : Text}
    (hname : name.isScalar = true) (hexact : value.IsExact)
    (hvalue : parseValue? fuel (value.print ++ after) = some (value, after))
    (before : List (Text × Json)) :
    parseFields? (fuel + 1) before
        (printText name ++ Text.ofChars [':', ' '] ++ value.print ++ after) =
      match skipSpace after with
      | [] => none
      | c :: cs =>
        if c = '}' then some (putField name value before, cs)
        else if c = ',' then parseFields? fuel (putField name value before) (skipSpace cs)
        else none := by
  obtain ⟨c, cs, hprint, hspace, -⟩ := print_eq_cons hexact
  have htext : printText name ++ Text.ofChars [':', ' '] ++ value.print ++ after =
      CodePoint.ofChar '"' :: (name.flatMap printCodePoint ++ CodePoint.ofChar '"' ::
        CodePoint.ofChar ':' :: CodePoint.ofChar ' ' :: (value.print ++ after)) := by
    simp only [printText, Text.ofChars, List.map_cons, List.map_nil, List.append_assoc,
      List.cons_append, List.nil_append]
  rw [htext, parseFields?, if_pos rfl, parseString?_printText hname]
  dsimp only
  rw [skipSpace_cons (by decide)]
  dsimp only
  rw [if_pos rfl, hprint, List.cons_append, skipSpace_blank hspace, ← List.cons_append, ← hprint]
  generalize parseValue? fuel (value.print ++ after) = read at hvalue ⊢
  subst hvalue
  rfl

theorem readsFields_succ {fuel : Nat} (hvalues : ReadsValues fuel) (hfields : ReadsFields fuel) :
    ReadsFields (fuel + 1) := by
  intro before field fields rest hnodup hexact hfuel
  obtain ⟨name, value⟩ := field
  obtain ⟨hname, hvalue, hothers⟩ := hexact
  have hput : putField name value before = before ++ [(name, value)] := by
    refine putField_of_not_mem fun hmem => ?_
    rw [List.map_append, List.nodup_append] at hnodup
    exact hnodup.2.2 name hmem name List.mem_cons_self rfl
  cases fields with
  | nil =>
      rw [printFields] at hfuel ⊢
      rw [List.length_append] at hfuel
      rw [parseFields?_field hname hvalue
          (hvalues value _ hvalue (Text.startsOutside_cons.mpr (by decide)) (by omega)),
        skipSpace_cons (by decide)]
      dsimp only
      rw [if_pos rfl, hput]
  | cons next fields =>
      obtain ⟨cs, hnext⟩ := printFields_eq_cons next fields
      have hseparator : (Text.ofChars [',', ' ']).length = 2 := rfl
      rw [printFields, List.length_append, List.length_append, List.length_append,
        hseparator] at hfuel
      have htext : printFields ((name, value) :: next :: fields) ++ CodePoint.ofChar '}' :: rest =
          printText name ++ Text.ofChars [':', ' '] ++ value.print ++
            (CodePoint.ofChar ',' :: CodePoint.ofChar ' ' ::
              (printFields (next :: fields) ++ CodePoint.ofChar '}' :: rest)) := by
        rw [printFields, List.append_assoc, List.append_assoc]
        rfl
      rw [htext, parseFields?_field hname hvalue
          (hvalues value _ hvalue (Text.startsOutside_cons.mpr (by decide)) (by omega)),
        skipSpace_cons (by decide)]
      dsimp only
      rw [if_neg (by decide), if_pos rfl, hput, hnext, List.cons_append, skipSpace_blank (by decide),
        ← List.cons_append, ← hnext, hfields _ next fields rest ?_ hothers (by omega)]
      · rw [List.append_assoc]
        rfl
      · rw [List.append_assoc]
        exact hnodup

/-- What opens neither a string nor a list nor an object is a word or a number. -/
theorem parseValue?_scalar {c : CodePoint} (hmark : c ≠ '"' ∧ c ≠ '[' ∧ c ≠ '{') (fuel : Nat)
    (cs : Text) : parseValue? (fuel + 1) (c :: cs) = parseScalar? (c :: cs) := by
  rw [parseValue?, if_neg hmark.1, if_neg hmark.2.1, if_neg hmark.2.2]

theorem readsValues_succ {fuel : Nat} (hitems : ReadsItems fuel) (hfields : ReadsFields fuel) :
    ReadsValues (fuel + 1) := by
  intro value rest hexact hrest hfuel
  cases value with
  | null =>
      have htext : print .null ++ rest =
          CodePoint.ofChar 'n' :: (Text.ofChars ['u', 'l', 'l'] ++ rest) := rfl
      have hword : takeWord? ['n', 'u', 'l', 'l']
          (CodePoint.ofChar 'n' :: (Text.ofChars ['u', 'l', 'l'] ++ rest)) = some rest :=
        takeWord?_append ['n', 'u', 'l', 'l'] rest
      rw [htext, parseValue?_scalar (by decide), parseScalar?, hword]
      rfl
  | bool value =>
      cases value with
      | true =>
          have htext : print (.bool true) ++ rest =
              CodePoint.ofChar 't' :: (Text.ofChars ['r', 'u', 'e'] ++ rest) := rfl
          have hword : takeWord? ['t', 'r', 'u', 'e']
              (CodePoint.ofChar 't' :: (Text.ofChars ['r', 'u', 'e'] ++ rest)) = some rest :=
            takeWord?_append ['t', 'r', 'u', 'e'] rest
          rw [htext, parseValue?_scalar (by decide), parseScalar?, takeWord?_eq_none (by decide),
            hword]
          rfl
      | false =>
          have htext : print (.bool false) ++ rest =
              CodePoint.ofChar 'f' :: (Text.ofChars ['a', 'l', 's', 'e'] ++ rest) := rfl
          have hword : takeWord? ['f', 'a', 'l', 's', 'e']
              (CodePoint.ofChar 'f' :: (Text.ofChars ['a', 'l', 's', 'e'] ++ rest)) = some rest :=
            takeWord?_append ['f', 'a', 'l', 's', 'e'] rest
          rw [htext, parseValue?_scalar (by decide), parseScalar?, takeWord?_eq_none (by decide),
            takeWord?_eq_none (by decide), hword]
          rfl
  | int n =>
      have hread := parseScalar?_intText hexact hrest
      obtain ⟨c, cs, hcons, hfirst⟩ := intText_eq_cons n
      have hmark : c ≠ '"' ∧ c ≠ '[' ∧ c ≠ '{' := by
        rcases hfirst with hdigit | rfl
        · exact ⟨ne_of_isAsciiDigit hdigit (by decide), ne_of_isAsciiDigit hdigit (by decide),
            ne_of_isAsciiDigit hdigit (by decide)⟩
        · decide
      rw [hcons, List.cons_append] at hread
      rw [print, hcons, List.cons_append, parseValue?_scalar hmark, hread]
  | float x => exact hexact.elim
  | text t =>
      have htext : print (.text t) ++ rest =
          CodePoint.ofChar '"' :: (t.flatMap printCodePoint ++ CodePoint.ofChar '"' :: rest) := by
        rw [print, printText, List.cons_append, List.append_assoc]
        rfl
      rw [htext, parseValue?, if_pos rfl, parseString?_printText hexact]
      rfl
  | list items =>
      cases items with
      | nil =>
          have htext : print (.list []) ++ rest =
              CodePoint.ofChar '[' :: CodePoint.ofChar ']' :: rest := rfl
          rw [htext, parseValue?, if_neg (by decide), if_pos rfl, skipSpace_cons (by decide)]
          dsimp only
          rw [if_pos rfl]
      | cons item items =>
          obtain ⟨c, cs, hcons, hspace, hbracket⟩ := printItems_eq_cons hexact.1 items
          rw [print, List.length_cons, List.length_append] at hfuel
          have htext : print (.list (item :: items)) ++ rest = CodePoint.ofChar '[' ::
              (printItems (item :: items) ++ CodePoint.ofChar ']' :: rest) := by
            rw [print, List.cons_append, List.append_assoc]
            rfl
          have hread := hitems item items rest hexact (by omega)
          rw [hcons, List.cons_append] at hread htext
          rw [htext, parseValue?, if_neg (by decide), if_pos rfl, skipSpace_cons hspace]
          dsimp only
          rw [if_neg hbracket, hread]
          rfl
  | object fields =>
      cases fields with
      | nil =>
          have htext : print (.object []) ++ rest =
              CodePoint.ofChar '{' :: CodePoint.ofChar '}' :: rest := rfl
          rw [htext, parseValue?, if_neg (by decide), if_neg (by decide), if_pos rfl,
            skipSpace_cons (by decide)]
          dsimp only
          rw [if_pos rfl]
      | cons field fields =>
          obtain ⟨cs, hcons⟩ := printFields_eq_cons field fields
          rw [print, List.length_cons, List.length_append] at hfuel
          have htext : print (.object (field :: fields)) ++ rest = CodePoint.ofChar '{' ::
              (printFields (field :: fields) ++ CodePoint.ofChar '}' :: rest) := by
            rw [print, List.cons_append, List.append_assoc]
            rfl
          have hread := hfields [] field fields rest hexact.1 hexact.2 (by omega)
          rw [hcons, List.cons_append] at hread htext
          rw [htext, parseValue?, if_neg (by decide), if_neg (by decide), if_pos rfl,
            skipSpace_cons (by decide)]
          dsimp only
          rw [if_neg (by decide), hread]
          rfl

/-! ## Whole texts -/

/-- Every amount of fuel suffices for what is short enough for it. -/
theorem reads_of_fuel (fuel : Nat) : ReadsValues fuel ∧ ReadsItems fuel ∧ ReadsFields fuel := by
  induction fuel with
  | zero =>
      refine ⟨?_, ?_, ?_⟩
      · intro value rest hexact hrest hfuel
        obtain ⟨c, cs, hcons, -⟩ := print_eq_cons hexact
        rw [hcons, List.length_cons] at hfuel
        omega
      · intro item items rest hexact hfuel
        omega
      · intro before field fields rest hnodup hexact hfuel
        omega
  | succ fuel ih =>
      obtain ⟨hvalues, hitems, hfields⟩ := ih
      exact ⟨readsValues_succ hitems hfields, readsItems_succ hvalues hitems,
        readsFields_succ hvalues hfields⟩

/-- An exact value is read back from its text. -/
theorem parse?_print {value : Json} (hexact : value.IsExact) : parse? value.print = some value := by
  obtain ⟨c, cs, hcons, hspace, -⟩ := print_eq_cons hexact
  have hread := (reads_of_fuel (2 * value.print.length + 2)).1 value [] hexact
    Text.startsOutside_nil (by omega)
  have hskip : skipSpace value.print = value.print := by
    rw [hcons, skipSpace_cons hspace]
  rw [List.append_nil] at hread
  rw [parse?, hskip, hread]
  rfl

end HookAtlas.Json
