/-
# Call sites are windows of four tokens

From every name of a configured function the search for call sites looks ahead three times, and passes over
trivia as it goes.  A simpler search finds the same: delete the trivia, and slide a window of four tokens
over what is left.

The window only sees significant tokens, so trivia may be inserted or deleted anywhere.  It sees four of them,
so a list of tokens that breaks off shows a first part of the call sites.
-/

import HookAtlas.Php.CallSite
import Mathlib.Data.List.Infix

namespace HookAtlas.Php

/-- The tokens that are no trivia. -/
def significant (tokens : List Token) : List Token :=
  tokens.filter fun token => !token.isTrivia

/-- What a token is, wherever it stands. -/
def Token.content (token : Token) : TokenKind × Text :=
  (token.kind, token.text)

/-- What a call site is, wherever it stands. -/
def CallSite.content (site : CallSite) : Text × Text × HookType :=
  (site.callee, site.hookName, site.hookType)

/-- The value of the argument that the first three tokens spell: an opening parenthesis, a plain string, and
a comma or the closing parenthesis. -/
def windowArgument? : List (TokenKind × Text) → Option Text
  | paren :: argument :: mark :: _ =>
    if paren = (.punct, [('(' : CodePoint)]) ∧ argument.1 = .string ∧
        (mark = (.punct, [(',' : CodePoint)]) ∨ mark = (.punct, [(')' : CodePoint)])) then
      some (literalValue argument.2)
    else none
  | _ => none

/-- The call site that the first four tokens spell: the name of a configured function and its argument. -/
def windowSite? (callees : Callees) : List Token → Option CallSite
  | [] => none
  | callee :: tokens =>
    match callee.kind, callees.hookType? callee.text, windowArgument? (tokens.map Token.content) with
    | .identifier, some hookType, some hookName => some ⟨callee.text, hookName, hookType, callee.line⟩
    | _, _, _ => none

/-- The call sites of all windows, from the first to the last. -/
def windowSites (callees : Callees) (tokens : List Token) : List CallSite :=
  tokens.tails.filterMap (windowSite? callees)

variable (callees : Callees) {token : Token} {tokens others : List Token}

/-! ## Significant tokens -/

theorem significant_cons_of_isTrivia (htrivia : token.isTrivia = true) (tokens : List Token) :
    significant (token :: tokens) = significant tokens := by
  rw [significant, List.filter_cons_of_neg (by rw [htrivia]; decide), significant]

theorem significant_cons_of_not_isTrivia (hsignificant : token.isTrivia = false)
    (tokens : List Token) : significant (token :: tokens) = token :: significant tokens := by
  rw [significant, List.filter_cons_of_pos (by rw [hsignificant]; decide), significant]

/-- Looking ahead finds the first significant token, and leaves the others. -/
theorem nextSignificant?_cases (tokens : List Token) :
    (significant tokens = [] ∧ nextSignificant? tokens = none) ∨
      ∃ token rest, significant tokens = token :: significant rest ∧
        nextSignificant? tokens = some (token, rest) := by
  induction tokens with
  | nil => exact .inl ⟨rfl, rfl⟩
  | cons token tokens ih =>
      by_cases htrivia : token.isTrivia = true
      · rw [significant_cons_of_isTrivia htrivia, nextSignificant?, if_pos htrivia]
        exact ih
      · have hsignificant : token.isTrivia = false := by simpa using htrivia
        refine .inr ⟨token, tokens, significant_cons_of_not_isTrivia hsignificant tokens, ?_⟩
        rw [nextSignificant?, if_neg htrivia]

/-! ## Looking ahead is looking at a window -/

/-- A name is no trivia. -/
theorem isTrivia_of_identifier (hkind : token.kind = .identifier) : token.isTrivia = false := by
  rw [Token.isTrivia, hkind]
  rfl

theorem windowSite?_eq_none_of_kind (hkind : token.kind ≠ .identifier) (tokens : List Token) :
    windowSite? callees (token :: tokens) = none := by
  rw [windowSite?]
  split
  · next hidentifier _ _ => exact absurd hidentifier hkind
  · rfl

theorem isPunct_iff (token : Token) (mark : Char) :
    token.isPunct mark = true ↔ token.content = (.punct, [(mark : CodePoint)]) := by
  rw [Token.isPunct, Token.content, Bool.and_eq_true, decide_eq_true_iff, decide_eq_true_iff,
    Prod.mk.injEq]

/-- The first argument of a call is the one of the window behind the function. -/
theorem literalArgument?_eq_windowArgument? (tokens : List Token) :
    literalArgument? tokens = windowArgument? ((significant tokens).map Token.content) := by
  rw [literalArgument?]
  rcases nextSignificant?_cases tokens with ⟨hnone, hnext⟩ | ⟨paren, afterParen, hsome, hnext⟩
  · rw [hnone, hnext]
    rfl
  rw [hsome, hnext]
  dsimp only
  rcases nextSignificant?_cases afterParen with
    ⟨hnone, hnext⟩ | ⟨argument, afterArgument, hsome, hnext⟩
  · rw [hnone, hnext]
    exact ite_self _
  rw [hsome, hnext]
  dsimp only
  rcases nextSignificant?_cases afterArgument with ⟨hnone, hnext⟩ | ⟨mark, rest, hsome, hnext⟩
  · rw [hnone, hnext]
    dsimp only
    rw [ite_self, ite_self]
    rfl
  rw [hsome, hnext, List.map_cons, List.map_cons, List.map_cons, windowArgument?]
  simp only [Bool.or_eq_true, isPunct_iff, Bool.not_eq_true', ← Bool.not_eq_true]
  by_cases hparen : paren.content = (.punct, [('(' : CodePoint)])
  · by_cases hargument : argument.kind = .string
    · have hcontent : argument.content.1 = .string := hargument
      rw [if_neg (not_not_intro hparen), if_neg (not_not_intro hargument)]
      simp only [hparen, hcontent, true_and]
      rfl
    · rw [if_neg (not_not_intro hparen), if_pos hargument, if_neg fun h => hargument h.2.1]
  · rw [if_pos hparen, if_neg fun h => hparen h.1]

/-- The call site that starts with a token is the one of the window that starts with it. -/
theorem callSiteAt?_eq_windowSite? (token : Token) (tokens : List Token) :
    callSiteAt? callees token tokens = windowSite? callees (token :: significant tokens) := by
  by_cases hkind : token.kind = .identifier
  · rw [callSiteAt?, if_neg (not_not_intro hkind), literalArgument?_eq_windowArgument?, windowSite?,
      hkind]
    cases callees.hookType? token.text with
    | none => rfl
    | some hookType =>
        cases windowArgument? ((significant tokens).map Token.content) with
        | none => rfl
        | some hookName => rfl
  · rw [callSiteAt?, if_pos hkind, windowSite?_eq_none_of_kind callees hkind]

theorem windowSites_cons (token : Token) (tokens : List Token) :
    windowSites callees (token :: tokens) =
      (windowSite? callees (token :: tokens)).toList ++ windowSites callees tokens := by
  rw [windowSites, List.tails_cons, List.filterMap_cons]
  split
  · next hnone => rw [hnone]; rfl
  · next hsome => rw [hsome]; rfl

theorem callSites_eq_windowSites (tokens : List Token) :
    callSites callees tokens = windowSites callees (significant tokens) := by
  induction tokens with
  | nil => rfl
  | cons token tokens ih =>
      rw [callSites, ih, callSiteAt?_eq_windowSite?]
      by_cases htrivia : token.isTrivia = true
      · have hkind : token.kind ≠ .identifier := by
          intro hkind
          rw [isTrivia_of_identifier hkind] at htrivia
          cases htrivia
        rw [significant_cons_of_isTrivia htrivia, windowSite?_eq_none_of_kind callees hkind]
        rfl
      · rw [significant_cons_of_not_isTrivia (by simpa using htrivia), windowSites_cons]

/-! ## What a window does not see -/

/-- A window sees what its tokens are, and the line of the first. -/
theorem windowSite?_congr (hcontent : tokens.map Token.content = others.map Token.content) :
    (windowSite? callees tokens).map CallSite.content =
      (windowSite? callees others).map CallSite.content := by
  cases tokens with
  | nil => rw [List.map_eq_nil_iff.mp hcontent.symm]
  | cons callee tokens =>
      cases others with
      | nil => cases hcontent
      | cons other others =>
          obtain ⟨hcallee, hrest⟩ := List.cons.inj hcontent
          obtain ⟨hkind, htext⟩ := Prod.mk.inj hcallee
          rw [windowSite?, windowSite?, hkind, htext, hrest]
          split
          · rfl
          · rfl

theorem windowSites_congr (hcontent : tokens.map Token.content = others.map Token.content) :
    (windowSites callees tokens).map CallSite.content =
      (windowSites callees others).map CallSite.content := by
  induction tokens generalizing others with
  | nil =>
      rw [List.map_eq_nil_iff.mp hcontent.symm]
  | cons token tokens ih =>
      cases others with
      | nil => cases hcontent
      | cons other others =>
          rw [windowSites_cons, windowSites_cons, List.map_append, List.map_append,
            ih (List.cons.inj hcontent).2, ← Option.toList_map, ← Option.toList_map,
            windowSite?_congr callees hcontent]

/-! ## Where the tokens break off -/

/-- A window needs four tokens. -/
theorem windowSite?_eq_none_of_length (hshort : tokens.length < 4) :
    windowSite? callees tokens = none := by
  have hargument (tokens : List Token) (hfew : tokens.length < 3) :
      windowArgument? (tokens.map Token.content) = none := by
    match tokens with
    | [] | [_] | [_, _] => rfl
    | _ :: _ :: _ :: _ => simp only [List.length_cons] at hfew; omega
  cases tokens with
  | nil => rfl
  | cons callee tokens =>
      rw [windowSite?, hargument tokens (Nat.lt_of_succ_lt_succ hshort)]
      split
      · next heq => cases heq
      · rfl

theorem windowSites_eq_nil_of_length (hshort : tokens.length < 4) :
    windowSites callees tokens = [] := by
  rw [windowSites, List.filterMap_eq_nil_iff]
  intro window hmem
  have hlength := ((List.mem_tails _ _).mp hmem).length_le
  exact windowSite?_eq_none_of_length callees (Nat.lt_of_le_of_lt hlength hshort)

/-- Tokens behind a full window change nothing. -/
theorem windowSite?_append (hlong : 4 ≤ tokens.length) (more : List Token) :
    windowSite? callees (tokens ++ more) = windowSite? callees tokens := by
  match tokens with
  | _ :: _ :: _ :: _ :: _ => rfl

/-- More tokens add call sites behind the others. -/
theorem windowSites_prefix_append (tokens more : List Token) :
    windowSites callees tokens <+: windowSites callees (tokens ++ more) := by
  induction tokens with
  | nil => exact List.nil_prefix
  | cons token tokens ih =>
      by_cases hshort : (token :: tokens).length < 4
      · rw [windowSites_eq_nil_of_length callees hshort]
        exact List.nil_prefix
      · have hsame := windowSite?_append callees (Nat.le_of_not_lt hshort) more
        rw [List.cons_append] at hsame ⊢
        rw [windowSites_cons, windowSites_cons, hsame, List.prefix_append_right_inj]
        exact ih

theorem callSites_take_prefix (tokens : List Token) (count : Nat) :
    callSites callees (tokens.take count) <+: callSites callees tokens := by
  have happend : significant tokens =
      significant (tokens.take count) ++ significant (tokens.drop count) := by
    rw [significant, significant, significant, ← List.filter_append, List.take_append_drop]
  rw [callSites_eq_windowSites, callSites_eq_windowSites, happend]
  exact windowSites_prefix_append callees _ _

/-! ## The search as a whole -/

/-- The call sites of a list of tokens are those of the windows over its significant tokens.  So they do not
depend on the trivia; but for their lines, they depend on what the significant tokens are only; and the call
sites of a first part of the tokens are a first part of the call sites. -/
theorem callSites_eq_windows (tokens : List Token) :
    callSites callees tokens = (significant tokens).tails.filterMap (windowSite? callees) ∧
      (∀ others, significant others = significant tokens →
        callSites callees others = callSites callees tokens) ∧
      (∀ others, (significant others).map Token.content = (significant tokens).map Token.content →
        (callSites callees others).map CallSite.content =
          (callSites callees tokens).map CallSite.content) ∧
      ∀ count, callSites callees (tokens.take count) <+: callSites callees tokens := by
  refine ⟨callSites_eq_windowSites callees tokens, ?_, ?_, callSites_take_prefix callees tokens⟩
  · intro others hsame
    rw [callSites_eq_windowSites, callSites_eq_windowSites, hsame]
  · intro others hcontent
    rw [callSites_eq_windowSites, callSites_eq_windowSites]
    exact windowSites_congr callees hcontent

end HookAtlas.Php
