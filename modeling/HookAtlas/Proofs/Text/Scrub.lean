/-
# What scrubbing keeps

The bytes that escaped surrogates stand for are decoded together with the bytes of their neighbours, so a
sequence that is cut off might swallow what follows it.  It does not: the first byte of a code point continues
no sequence, and the decoder closes an open sequence before it reads such a byte.  Decoding therefore splits
before every ordinary code point, whatever state the bytes before it have led to, and with it scrubbing does.

A text with any other surrogate is not decoded at all, and nothing is said here about how its parts would be
scrubbed alone.
-/

import HookAtlas.Proofs.Text.Utf8

namespace HookAtlas

theorem CodePoint.isSurrogate_eq_false_iff (c : CodePoint) :
    c.isSurrogate = false ↔ c.val < 0xD800 ∨ 0xDFFF < c.val := by
  simp only [isSurrogate, Bool.and_eq_false_iff, decide_eq_false_iff_not, Nat.not_le]

namespace Utf8

variable {invalid : List Nat → Text}

/-! ## Bytes that continue a sequence -/

/-- A byte that may stand in a sequence behind its first byte. -/
def IsContinuation (b : Nat) : Prop :=
  0x80 ≤ b ∧ b ≤ 0xBF

/-- The bounds of the next byte of a sequence admit continuation bytes only. -/
def Sequence.IsContinued (s : Sequence) : Prop :=
  0x80 ≤ s.low ∧ s.high ≤ 0xBF

theorem isContinued_start {b : Nat} {s : Sequence} (hstate : (start invalid b).state = some s) :
    s.IsContinued := by
  rw [start] at hstate
  repeat' split at hstate
  all_goals
    cases hstate
    all_goals exact ⟨by simp, by simp⟩

/-- No step opens or goes on with a sequence of other bounds. -/
theorem isContinued_step {state : Option Sequence} {b : Nat} {s : Sequence}
    (hstate : (step invalid state b).state = some s) : s.IsContinued := by
  cases state with
  | none => exact isContinued_start hstate
  | some q =>
      simp only [step] at hstate
      split at hstate
      · split at hstate
        · cases hstate
        · cases hstate
          exact ⟨Nat.le_refl _, Nat.le_refl _⟩
      · exact isContinued_start hstate

/-- A byte that continues no sequence closes the one that is open, and is read between sequences. -/
theorem decodeFrom_leading {state : Option Sequence}
    (hcontinued : ∀ s, state = some s → s.IsContinued) {b : Nat} (hleading : ¬ IsContinuation b)
    (bs : List Nat) :
    decodeFrom invalid state (b :: bs) =
      decodeFrom invalid state [] ++ decodeFrom invalid none (b :: bs) := by
  cases state with
  | none => rfl
  | some s =>
      obtain ⟨hlow, hhigh⟩ := hcontinued s rfl
      have houtside : ¬ (s.low ≤ b ∧ b ≤ s.high) := fun hinside =>
        hleading ⟨Nat.le_trans hlow hinside.1, Nat.le_trans hinside.2 hhigh⟩
      rw [decodeFrom.eq_def]
      simp only [step, if_neg houtside]
      exact List.append_assoc _ _ _

/-- Decoding splits before a byte that continues no sequence.  The induction is on the bytes before it, for
every state that they may be read in. -/
theorem decodeFrom_append {state : Option Sequence}
    (hcontinued : ∀ s, state = some s → s.IsContinued) {b : Nat} (hleading : ¬ IsContinuation b)
    (front back : List Nat) :
    decodeFrom invalid state (front ++ b :: back) =
      decodeFrom invalid state front ++ decodeFrom invalid none (b :: back) := by
  induction front generalizing state with
  | nil => exact decodeFrom_leading hcontinued hleading back
  | cons a front ih =>
      rw [List.cons_append, decodeFrom, decodeFrom, List.append_assoc]
      exact congrArg ((step invalid state a).output ++ ·) (ih fun s => isContinued_step)

/-- The bytes of a code point start with one that continues no sequence. -/
theorem encodeCodePoint_eq_cons (c : CodePoint) :
    ∃ b bs, encodeCodePoint c = b :: bs ∧ ¬ IsContinuation b := by
  have hlt := c.isLt
  rw [encodeCodePoint]
  split
  · exact ⟨_, _, rfl, by rw [IsContinuation]; omega⟩
  split
  · exact ⟨_, _, rfl, by rw [IsContinuation]; omega⟩
  split
  · exact ⟨_, _, rfl, by rw [IsContinuation]; omega⟩
  · exact ⟨_, _, rfl, by rw [IsContinuation]; omega⟩

/-- An ordinary code point is decoded in its place, whatever the bytes around its own. -/
theorem decode_append_encodeCodePoint {c : CodePoint} (hordinary : c.isSurrogate = false)
    (front back : List Nat) :
    decode (front ++ (encodeCodePoint c ++ back)) = decode front ++ c :: decode back := by
  obtain ⟨b, bs, hcons, hleading⟩ := encodeCodePoint_eq_cons c
  calc
    decode (front ++ (encodeCodePoint c ++ back)) =
        decode front ++ decode (encodeCodePoint c ++ back) := by
      rw [hcons, List.cons_append]
      exact decodeFrom_append (fun _ hnone => by cases hnone) hleading front (bs ++ back)
    _ = decode front ++ c :: decode back :=
      congrArg (decode front ++ ·) (decodeFrom_encodeCodePoint hordinary back)

end Utf8

namespace Text

/-- Every surrogate of a text stands for a byte. -/
def HoldsEscapedBytes (t : Text) : Prop :=
  ∀ c ∈ t, c.isSurrogate = true → c.isEscapedByte = true

theorem scrub_of_holdsEscapedBytes {t : Text} (hbytes : t.HoldsEscapedBytes) :
    t.scrub = Utf8.decode t.fileBytes := by
  rw [scrub, if_pos]
  refine List.all_eq_true.mpr fun c hmem => ?_
  cases hkind : c.isSurrogate with
  | false => rfl
  | true => exact hbytes c hmem hkind

theorem fileBytesOf_of_ordinary {c : CodePoint} (hordinary : c.isSurrogate = false) :
    fileBytesOf c = Utf8.encodeCodePoint c := by
  have hscalar : Text.isScalar [c] = true := by
    rw [isScalar, List.all_cons, hordinary]
    rfl
  have hbytes := fileBytes_of_isScalar hscalar
  rw [fileBytes, Utf8.encode, List.flatMap_singleton, List.flatMap_singleton] at hbytes
  exact hbytes

/-- A text is well-formed if every code point of it lies beside the surrogates. -/
theorem isScalar_iff (t : Text) :
    t.isScalar = true ↔ ∀ c ∈ t, c.val < 0xD800 ∨ 0xDFFF < c.val := by
  rw [isScalar, List.all_eq_true]
  refine forall₂_congr fun c _ => ?_
  rw [Bool.not_eq_true', c.isSurrogate_eq_false_iff]

theorem fileBytes_append_cons {c : CodePoint} (hordinary : c.isSurrogate = false)
    (front back : Text) :
    (front ++ c :: back).fileBytes =
      front.fileBytes ++ (Utf8.encodeCodePoint c ++ back.fileBytes) := by
  rw [fileBytes, List.flatMap_append, List.flatMap_cons, fileBytesOf_of_ordinary hordinary]
  rfl

/-- An ordinary code point keeps its place among surrogates that stand for bytes. -/
theorem scrub_append_cons {front back : Text} {c : CodePoint} (hordinary : c.isSurrogate = false)
    (hbytes : (front ++ c :: back).HoldsEscapedBytes) :
    (front ++ c :: back).scrub = front.scrub ++ c :: back.scrub := by
  have hfront : front.HoldsEscapedBytes := fun d hmem =>
    hbytes d (List.mem_append_left _ hmem)
  have hback : back.HoldsEscapedBytes := fun d hmem =>
    hbytes d (List.mem_append_right _ (List.mem_cons_of_mem c hmem))
  rw [scrub_of_holdsEscapedBytes hbytes, scrub_of_holdsEscapedBytes hfront,
    scrub_of_holdsEscapedBytes hback, fileBytes_append_cons hordinary,
    Utf8.decode_append_encodeCodePoint hordinary]

theorem scrub_eq_self_iff (t : Text) : t.scrub = t ↔ t.isScalar = true := by
  constructor
  · intro hsame
    rw [← hsame]
    exact t.isScalar_scrub
  · exact scrub_of_isScalar

/-- Scrubbing makes every text well-formed and harms nothing else.  It changes nothing exactly in the texts
that are well-formed, so scrubbing again changes nothing more; and in a text whose surrogates all stand for
bytes every ordinary code point keeps its place: what is before it and what is behind it are scrubbed as if they
stood alone. -/
theorem scrub_keeps_ordinary :
    (∀ t : Text, ∀ c ∈ t.scrub, c.val < 0xD800 ∨ 0xDFFF < c.val) ∧
    (∀ t : Text, t.scrub = t ↔ ∀ c ∈ t, c.val < 0xD800 ∨ 0xDFFF < c.val) ∧
    (∀ t : Text, t.scrub.scrub = t.scrub) ∧
    ∀ (front back : Text) (c : CodePoint), (c.val < 0xD800 ∨ 0xDFFF < c.val) →
      (∀ d ∈ front ++ c :: back, 0xD800 ≤ d.val → d.val ≤ 0xDFFF →
        0xDC80 ≤ d.val ∧ d.val ≤ 0xDCFF) →
      (front ++ c :: back).scrub = front.scrub ++ c :: back.scrub := by
  refine ⟨fun t => (isScalar_iff _).mp t.isScalar_scrub,
    fun t => (scrub_eq_self_iff t).trans (isScalar_iff t),
    fun t => scrub_of_isScalar t.isScalar_scrub, ?_⟩
  intro front back c hordinary hbytes
  refine scrub_append_cons ?_ ?_
  · exact c.isSurrogate_eq_false_iff.mpr hordinary
  · intro d hmem hsurrogate
    simp only [CodePoint.isSurrogate, CodePoint.isEscapedByte, Bool.and_eq_true,
      decide_eq_true_eq] at hsurrogate ⊢
    exact hbytes d hmem hsurrogate.1 hsurrogate.2

/-- Two bytes of a euro sign before a euro sign, and its last byte behind it: each stretch becomes one
replacement character, and the sign between them stays. -/
theorem scrub_keeps_ordinary_euro :
    let euro := CodePoint.ofNat 0x20AC
    let front := [CodePoint.ofNat 0xDCE2, CodePoint.ofNat 0xDC82]
    let back := [CodePoint.ofNat 0xDCAC]
    (∀ d ∈ front ++ euro :: back, 0xD800 ≤ d.val → d.val ≤ 0xDFFF →
      0xDC80 ≤ d.val ∧ d.val ≤ 0xDCFF) ∧
    scrub (front ++ euro :: back) = [.replacement, euro, .replacement] := by
  intro euro front back
  have hbytes : ∀ d ∈ front ++ euro :: back, 0xD800 ≤ d.val → d.val ≤ 0xDFFF →
      0xDC80 ≤ d.val ∧ d.val ≤ 0xDCFF := by decide
  refine ⟨hbytes, ?_⟩
  rw [scrub_keeps_ordinary.2.2.2 front back euro (by decide) hbytes]
  decide

end Text

end HookAtlas
