/-
# What a filter accepts

Conditions and the values of their placeholders are kept in two lists, and a filter is evaluated by walking
both.  As long as every condition is pushed together with its value the lists stay paired, so a filter
accepts a row exactly if each of the requests it was built from admits it.
-/

import HookAtlas.Catalogue.Filter

namespace HookAtlas

namespace FilterRequest

/-- Whether a row satisfies one request.  Absent and empty values, and a search for white space, ask for
nothing. -/
def admits : FilterRequest → FilterSubject → Bool
  | .search none, _ => true
  | .search (some query), subject =>
    query.trim = [] ||
      Like.matchesUnder CodePoint.lower (Like.containing query.trim) subject.hookName
  | .column _ none, _ => true
  | .column kind (some value), subject => value = [] || subject.value kind = value

end FilterRequest

namespace HookFilter

variable {filter : HookFilter}

/-- Every condition has a value for its placeholder, and there are no other values. -/
def IsPaired (filter : HookFilter) : Prop :=
  filter.conditions.length = filter.params.length

theorem allHold_append {conditions : List FilterCondition} {params : List Text}
    (hpaired : conditions.length = params.length) (more : List FilterCondition) (others : List Text)
    (subject : FilterSubject) :
    allHold (conditions ++ more) (params ++ others) subject =
      (allHold conditions params subject && allHold more others subject) := by
  induction conditions generalizing params with
  | nil =>
      rw [List.length_eq_zero_iff.mp hpaired.symm]
      simp [allHold]
  | cons condition conditions ih =>
      cases params with
      | nil => cases hpaired
      | cons param params =>
          have hrest := ih (Nat.succ.inj hpaired)
          simp [allHold, hrest, Bool.and_assoc]

theorem accepts_push (hpaired : filter.IsPaired) (condition : FilterCondition) (param : Text)
    (subject : FilterSubject) :
    (filter.push condition param).accepts subject =
      (filter.accepts subject && holds condition param subject) := by
  have happend := allHold_append hpaired [condition] [param] subject
  simpa [accepts, push, allHold] using happend

theorem isPaired_push (hpaired : filter.IsPaired) (condition : FilterCondition) (param : Text) :
    (filter.push condition param).IsPaired := by
  simpa [IsPaired, push] using hpaired

/-- Adding a request keeps the lists paired and restricts the filter by that request. -/
theorem accepts_add (hpaired : filter.IsPaired) (request : FilterRequest) :
    (filter.add request).IsPaired ∧ ∀ subject,
      (filter.add request).accepts subject = (filter.accepts subject && request.admits subject) := by
  cases request with
  | search query =>
      cases query with
      | none => simpa [add, FilterRequest.admits] using hpaired
      | some query =>
          by_cases hblank : query.trim = []
          · simpa [add, FilterRequest.admits, hblank] using hpaired
          · simp only [add, FilterRequest.admits, hblank, decide_false, Bool.false_or, if_false]
            exact ⟨isPaired_push hpaired _ _, accepts_push hpaired _ _⟩
  | column column value =>
      cases value with
      | none => simpa [add, FilterRequest.admits] using hpaired
      | some value =>
          by_cases hempty : value = []
          · simpa [add, FilterRequest.admits, hempty] using hpaired
          · simp only [add, FilterRequest.admits, hempty, decide_false, Bool.false_or, if_false]
            exact ⟨isPaired_push hpaired _ _, accepts_push hpaired _ _⟩

theorem accepts_foldl_add (requests : List FilterRequest) (hpaired : filter.IsPaired)
    (subject : FilterSubject) :
    (requests.foldl add filter).accepts subject =
      (filter.accepts subject && requests.all fun request => request.admits subject) := by
  induction requests generalizing filter with
  | nil => simp
  | cons request requests ih =>
      obtain ⟨hadded, haccepts⟩ := accepts_add hpaired request
      rw [List.foldl_cons, ih hadded, haccepts, List.all_cons, Bool.and_assoc]

/-- A filter accepts what all of its requests admit. -/
theorem accepts_ofRequests (requests : List FilterRequest) (subject : FilterSubject) :
    (ofRequests requests).accepts subject = requests.all fun request => request.admits subject := by
  have hempty : empty.IsPaired := rfl
  rw [ofRequests, accepts_foldl_add requests hempty]
  rfl

end HookFilter

end HookAtlas
