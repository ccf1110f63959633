/-
# What a filter says in its clause

A filter reaches the store as a clause, which is text, and the values of its placeholders, which are not part
of the text.  `IsTrueOf` reads a clause from left to right and hands each placeholder the next value.  No
condition starts as another one does, so a clause can be read in one way only.

The clause of a filter is made of the conditions that were asked for and of nothing else.  Each of them is
pushed together with its value, so every placeholder gets the value that belongs to it.
-/

import HookAtlas.Proofs.Catalogue.Filter
import HookAtlas.Proofs.Catalogue.Search

namespace HookAtlas

namespace FilterRequest

/-- The condition that a request adds unless it is ignored. -/
def condition : FilterRequest → FilterCondition
  | .search _ => .nameMatches
  | .column kind _ => .equals kind

/-- Absent and empty values are ignored, and so is a search for white space. -/
def isIgnored : FilterRequest → Bool
  | .search query => query.all fun text => text.trim = []
  | .column _ value => value.all fun text => text = []

/-- What can be seen of a request in a clause: which condition it adds, if it adds it. -/
def outline (request : FilterRequest) : FilterCondition × Bool :=
  (request.condition, request.isIgnored)

/-- A row is what a request asks for: the text occurs in the name, in lower case and without the white space
around it, or the column has the value. -/
def IsSatisfiedBy (subject : FilterSubject) : FilterRequest → Prop
  | .search query => ∃ text, query = some text ∧
      text.trim.map CodePoint.lower <:+: subject.hookName.map CodePoint.lower
  | .column kind value => value = some (subject.value kind)

theorem admits_iff (request : FilterRequest) (subject : FilterSubject) :
    request.admits subject = true ↔ (request.isIgnored = false → request.IsSatisfiedBy subject) := by
  cases request with
  | search query =>
      cases query with
      | none => simp [admits, isIgnored]
      | some text =>
          have hmatches := Like.keepsSpecials_lower.matchesUnder_containing_iff text.trim subject.hookName
          by_cases hblank : text.trim = []
          · simp [admits, isIgnored, hblank]
          · simp [admits, isIgnored, IsSatisfiedBy, hblank, hmatches]
  | column column value =>
      cases value with
      | none => simp [admits, isIgnored]
      | some text =>
          by_cases hempty : text = []
          · simp [admits, isIgnored, hempty]
          · simp [admits, isIgnored, IsSatisfiedBy, hempty, eq_comm]

end FilterRequest

namespace HookFilter

variable {filter : HookFilter}

theorem join_cons_cons (separator s t : Text) (texts : List Text) :
    Text.join separator (s :: t :: texts) = s ++ separator ++ Text.join separator (t :: texts) :=
  rfl

/-! ## Reading a clause -/

/-- A clause with values for its placeholders is true of a row.  Each condition takes the next value, and no
value is left over. -/
inductive IsTrueOf (subject : FilterSubject) : Text → List Text → Prop
  | always : IsTrueOf subject (Text.ofString "TRUE") []
  | condition (condition : FilterCondition) {param : Text} :
      holds condition param subject = true → IsTrueOf subject condition.text [param]
  | and (condition : FilterCondition) {param rest : Text} {params : List Text} :
      holds condition param subject = true → IsTrueOf subject rest params →
      IsTrueOf subject (condition.text ++ Text.ofString " AND " ++ rest) (param :: params)

/-- Conditions differ within their first six code points. -/
theorem eq_of_take_text {first second : FilterCondition}
    (htake : first.text.take 6 = second.text.take 6) : first = second := by
  revert htake
  rcases first with _ | _ | _ | _ <;> rcases second with _ | _ | _ | _ <;> decide +kernel

theorem length_text_le (condition : FilterCondition) : 13 ≤ condition.text.length := by
  rcases condition with _ | _ | _ | _ <;> decide +kernel

/-- A text starts with one condition at most. -/
theorem text_append_inj {first second : FilterCondition} {s t : Text}
    (heq : first.text ++ s = second.text ++ t) : first = second ∧ s = t := by
  have hfirst := length_text_le first
  have hsecond := length_text_le second
  have htake : (first.text ++ s).take 6 = (second.text ++ t).take 6 := congrArg _ heq
  rw [List.take_append_of_le_length (by omega), List.take_append_of_le_length (by omega)] at htake
  obtain rfl := eq_of_take_text htake
  exact ⟨rfl, List.append_cancel_left heq⟩

variable {subject : FilterSubject} {condition : FilterCondition} {params : List Text} {t : Text}

/-- What starts with a condition is true if the condition holds of the first value and what the clause adds to
it is true with the others. -/
theorem isTrueOf_text_append_iff :
    IsTrueOf subject (condition.text ++ t) params ↔
      ∃ param others, params = param :: others ∧ holds condition param subject = true ∧
        (t = [] ∧ others = [] ∨
          ∃ rest, t = Text.ofString " AND " ++ rest ∧ IsTrueOf subject rest others) := by
  constructor
  · intro htrue
    generalize hclause : condition.text ++ t = clause at htrue
    cases htrue with
    | always =>
        have hlength := congrArg List.length hclause
        have hlong := length_text_le condition
        have htrue : (Text.ofString "TRUE").length = 4 := by decide +kernel
        rw [List.length_append, htrue] at hlength
        omega
    | condition other hholds =>
        rw [← List.append_nil other.text] at hclause
        obtain ⟨rfl, rfl⟩ := text_append_inj hclause
        exact ⟨_, [], rfl, hholds, .inl ⟨rfl, rfl⟩⟩
    | and other hholds hrest =>
        rw [List.append_assoc] at hclause
        obtain ⟨rfl, rfl⟩ := text_append_inj hclause
        exact ⟨_, _, rfl, hholds, .inr ⟨_, rfl, hrest⟩⟩
  · rintro ⟨param, others, rfl, hholds, ⟨rfl, rfl⟩ | ⟨rest, rfl, hrest⟩⟩
    · rw [List.append_nil]
      exact .condition condition hholds
    · rw [← List.append_assoc]
      exact .and condition hholds hrest

/-- Conditions with as many values are read back one after the other, by induction on the conditions. -/
theorem isTrueOf_join_iff (condition : FilterCondition) (conditions : List FilterCondition)
    {params : List Text} (hpaired : (condition :: conditions).length = params.length) :
    IsTrueOf subject
        (Text.join (Text.ofString " AND ") ((condition :: conditions).map FilterCondition.text)) params ↔
      allHold (condition :: conditions) params subject = true := by
  induction conditions generalizing condition params with
  | nil =>
      obtain ⟨param, rfl⟩ := List.length_eq_one_iff.mp hpaired.symm
      have hseparator : Text.ofString " AND " ≠ [] := by decide +kernel
      rw [List.map_singleton, Text.join, ← List.append_nil condition.text, isTrueOf_text_append_iff]
      simp [allHold, hseparator, and_assoc]
  | cons next conditions ih =>
      obtain ⟨param, others, rfl⟩ := List.exists_cons_of_length_eq_add_one hpaired.symm
      have hrest := ih next (Nat.succ.inj hpaired)
      rw [List.map_cons, List.map_cons, join_cons_cons, ← List.map_cons, List.append_assoc,
        isTrueOf_text_append_iff, allHold, Bool.and_eq_true, ← hrest]
      constructor
      · rintro ⟨_, _, hparams, hholds, ⟨hnil, -⟩ | ⟨rest, hclause, htrue⟩⟩
        · cases (List.append_eq_nil_iff.mp hnil).1
        · cases hparams
          rw [List.append_cancel_left hclause]
          exact ⟨hholds, htrue⟩
      · rintro ⟨hholds, htrue⟩
        exact ⟨param, others, rfl, hholds, .inr ⟨_, rfl, htrue⟩⟩

/-- The clause of a filter with the values of the filter is true of the rows that the filter accepts. -/
theorem isTrueOf_whereText_iff (hpaired : filter.IsPaired) (subject : FilterSubject) :
    IsTrueOf subject filter.whereText filter.params ↔ filter.accepts subject = true := by
  obtain ⟨conditions, params⟩ := filter
  cases conditions with
  | nil =>
      obtain rfl := List.length_eq_zero_iff.mp hpaired.symm
      exact iff_of_true .always rfl
  | cons condition conditions => exact isTrueOf_join_iff condition conditions hpaired

/-! ## Building a clause -/

theorem isPaired_foldl_add (requests : List FilterRequest) (hpaired : filter.IsPaired) :
    (requests.foldl add filter).IsPaired := by
  induction requests generalizing filter with
  | nil => exact hpaired
  | cons request requests ih => exact ih (accepts_add hpaired request).1

theorem conditions_add (filter : HookFilter) (request : FilterRequest) :
    (filter.add request).conditions =
      filter.conditions ++ if request.isIgnored then [] else [request.condition] := by
  rcases request with (_ | text) | ⟨kind, _ | text⟩
  · simp [add, FilterRequest.isIgnored]
  · by_cases hblank : text.trim = []
    · simp [add, FilterRequest.isIgnored, hblank]
    · simp [add, FilterRequest.isIgnored, FilterRequest.condition, push, hblank]
  · simp [add, FilterRequest.isIgnored]
  · by_cases hempty : text = []
    · simp [add, FilterRequest.isIgnored, hempty]
    · simp [add, FilterRequest.isIgnored, FilterRequest.condition, push, hempty]

/-- The conditions are those of the requests that are not ignored, whatever the values are. -/
theorem conditions_foldl_add (requests : List FilterRequest) (filter : HookFilter) :
    (requests.foldl add filter).conditions =
      filter.conditions ++
        requests.flatMap fun request => if request.isIgnored then [] else [request.condition] := by
  induction requests generalizing filter with
  | nil => simp
  | cons request requests ih =>
      rw [List.foldl_cons, ih, conditions_add, List.flatMap_cons, List.append_assoc]

/-! ## Counting placeholders -/

/-- Texts in which a code point occurs once each, joined by something in which it does not occur. -/
theorem count_join {separator : Text} {c : CodePoint} (hother : separator.count c = 0)
    {texts : List Text} (honce : ∀ t ∈ texts, t.count c = 1) :
    (Text.join separator texts).count c = texts.length := by
  induction texts with
  | nil => rfl
  | cons s texts ih =>
      obtain ⟨hfirst, hrest⟩ := List.forall_mem_cons.mp honce
      cases texts with
      | nil => exact hfirst
      | cons t texts =>
          rw [join_cons_cons, List.count_append, List.count_append, hother, hfirst, ih hrest, Nat.add_zero,
            Nat.add_comm]
          rfl

theorem count_text (condition : FilterCondition) :
    condition.text.count (CodePoint.ofChar '?') = 1 := by
  rcases condition with _ | _ | _ | _ <;> decide +kernel

/-- A clause has one placeholder for each of its conditions. -/
theorem count_whereText (filter : HookFilter) :
    filter.whereText.count (CodePoint.ofChar '?') = filter.conditions.length := by
  have hseparator : (Text.ofString " AND ").count (CodePoint.ofChar '?') = 0 := by decide +kernel
  unfold whereText
  split
  · next hnone =>
      rw [hnone]
      decide +kernel
  · rw [count_join hseparator (List.forall_mem_map.mpr fun condition _ => count_text condition),
      List.length_map]

/-! ## The clause of requests -/

theorem isPaired_ofRequests (requests : List FilterRequest) : (ofRequests requests).IsPaired :=
  isPaired_foldl_add requests rfl

/-- The clause of requests is made from their outlines, so no value of a request gets into it. -/
theorem whereText_ofRequests_congr {requests others : List FilterRequest}
    (houtline : others.map FilterRequest.outline = requests.map FilterRequest.outline) :
    (ofRequests others).whereText = (ofRequests requests).whereText := by
  have hconditions : ∀ list : List FilterRequest, (ofRequests list).conditions =
      (list.map FilterRequest.outline).flatMap fun seen => if seen.2 then [] else [seen.1] := by
    intro list
    rw [ofRequests, conditions_foldl_add, List.flatMap_map]
    rfl
  unfold whereText
  rw [hconditions others, houtline, ← hconditions requests]

/-- Requests of any number, in any order and with any values.  The clause has as many placeholders as there are
values; with the values in their order it is true of a row exactly if the row satisfies all requests that are
not ignored, which are the rows that a listing shows; and requests of one outline have one clause. -/
theorem ofRequests_binds (requests : List FilterRequest) :
    (ofRequests requests).whereText.count (CodePoint.ofChar '?') = (ofRequests requests).params.length ∧
      (∀ subject,
        (IsTrueOf subject (ofRequests requests).whereText (ofRequests requests).params ↔
          ∀ request ∈ requests, request.isIgnored = false → request.IsSatisfiedBy subject) ∧
        ((ofRequests requests).accepts subject = true ↔
          IsTrueOf subject (ofRequests requests).whereText (ofRequests requests).params)) ∧
      ∀ others : List FilterRequest,
        others.map FilterRequest.outline = requests.map FilterRequest.outline →
          (ofRequests others).whereText = (ofRequests requests).whereText := by
  have hpaired := isPaired_ofRequests requests
  refine ⟨?_, fun subject => ⟨?_, ?_⟩, fun others => whereText_ofRequests_congr⟩
  · exact (count_whereText _).trans hpaired
  · rw [isTrueOf_whereText_iff hpaired, accepts_ofRequests, List.all_eq_true]
    simp only [FilterRequest.admits_iff]
  · exact (isTrueOf_whereText_iff hpaired subject).symm

/-- Values with quotes and question marks, between requests that are ignored. -/
def quotedRequests : List FilterRequest :=
  [.search (some " it's? "), .column .hookType none, .column .sourceType (some "x' OR '1'='1"),
    .search (some "  "), .column .sourceType (some "?")]

/-- Requests with the outline of `quotedRequests` and plain values. -/
def plainRequests : List FilterRequest :=
  [.search (some "init"), .column .hookType (some []), .column .sourceType (some "core"),
    .search none, .column .sourceType (some "core")]

theorem ofRequests_binds_quoted :
    plainRequests.map FilterRequest.outline = quotedRequests.map FilterRequest.outline ∧
      (ofRequests quotedRequests).whereText = (ofRequests plainRequests).whereText ∧
      (ofRequests quotedRequests).whereText =
        Text.ofString "hook_name ILIKE ? ESCAPE '\\' AND source_type = ? AND source_type = ?" ∧
      (ofRequests quotedRequests).params.length = 3 ∧
      ∀ subject, IsTrueOf subject (ofRequests quotedRequests).whereText
        (ofRequests quotedRequests).params → FilterRequest.IsSatisfiedBy subject (.search (some " it's? ")) := by
  have houtline : plainRequests.map FilterRequest.outline = quotedRequests.map FilterRequest.outline := by
    decide +kernel
  obtain ⟨hcount, htrue, hcongr⟩ := ofRequests_binds quotedRequests
  refine ⟨houtline, (hcongr plainRequests houtline).symm, by decide +kernel, ?_, ?_⟩
  · rw [← hcount]
    decide +kernel
  · intro subject hclause
    exact (htrue subject).1.mp hclause _ List.mem_cons_self (by decide +kernel)

end HookFilter

end HookAtlas
