/-
# Where a path leads

`Leads` says where parts lead from a place, and how many links are followed on the way.  Following a path within
a number of links computes this, if there are no more links on the way.

The real path is computed otherwise: each link is resolved once, and what it leads to is remembered.  Where a path
leads somewhere within the links that are followed, its real path is the place that it leads to.  For a link
that is under way again would lead back to itself, and following it would not end.  The converse fails: a path
that leads nowhere has a real path, too, and this may be that of a file.
-/

import HookAtlas.Proofs.Files.Places

namespace HookAtlas

theorem Path.IsName.ne_current {part : Text} (hname : Path.IsName part) : part ≠ Path.current := by
  rintro rfl
  exact absurd hname.1 (by decide)

namespace FileTree

variable {tree : FileTree} {here mid place other rest names : List Text} {name : Text} {target : Path}
  {links cost before after : Nat}

/-- From a place some parts lead to another one, and so many links are followed on the way. -/
inductive Leads (tree : FileTree) : List Text → List Text → Nat → List Text → Prop
  | nil (here : List Text) : Leads tree here [] 0 here
  | up {here names place : List Text} {cost : Nat} : tree.HasDirectory here →
      Leads tree here.dropLast names cost place → Leads tree here (Path.parent :: names) cost place
  | stay {here names place : List Text} {cost : Nat} : tree.HasDirectory here →
      Leads tree here names cost place → Leads tree here (Path.current :: names) cost place
  | down {here names place : List Text} {name : Text} {node : FileNode} {cost : Nat} :
      name ≠ Path.parent → name ≠ Path.current → tree.nodeAt? (here ++ [name]) = some node →
      tree.linkAt? (here ++ [name]) = none → Leads tree (here ++ [name]) names cost place →
      Leads tree here (name :: names) cost place
  | link {here mid names place : List Text} {name : Text} {target : Path} {before after : Nat} :
      name ≠ Path.parent → name ≠ Path.current → tree.linkAt? (here ++ [name]) = some target →
      Leads tree (linkStart here target) target.parts before mid → Leads tree mid names after place →
      Leads tree here (name :: names) (before + after + 1) place

theorem parent_ne_current : Path.parent ≠ Path.current := by
  decide

namespace Leads

/-- Parts lead from a place to at most one other, and over one number of links. -/
theorem deterministic (hleads : Leads tree here rest cost place)
    (hother : Leads tree here rest links other) : cost = links ∧ place = other := by
  induction hleads generalizing links other with
  | nil here =>
      cases hother
      exact ⟨rfl, rfl⟩
  | up _ _ ih =>
      cases hother with
      | up _ hrest => exact ih hrest
      | down hup => exact absurd rfl hup
      | link hup => exact absurd rfl hup
  | stay _ _ ih =>
      cases hother with
      | stay _ hrest => exact ih hrest
      | down _ hstay => exact absurd rfl hstay
      | link _ hstay => exact absurd rfl hstay
  | down hup hstay _ hnone _ ih =>
      cases hother with
      | up => exact absurd rfl hup
      | stay => exact absurd rfl hstay
      | down _ _ _ _ hrest => exact ih hrest
      | link _ _ hlink =>
          rw [hnone] at hlink
          cases hlink
  | link hup hstay hlink _ _ ihTarget ihNames =>
      cases hother with
      | up => exact absurd rfl hup
      | stay => exact absurd rfl hstay
      | down _ _ _ hnone =>
          rw [hlink] at hnone
          cases hnone
      | link _ _ hlink' htarget hnames =>
          rw [hlink, Option.some.injEq] at hlink'
          subst hlink'
          obtain ⟨rfl, rfl⟩ := ihTarget htarget
          obtain ⟨rfl, rfl⟩ := ihNames hnames
          exact ⟨rfl, rfl⟩

theorem append (hfirst : Leads tree here rest before mid) (hsecond : Leads tree mid names after place) :
    Leads tree here (rest ++ names) (before + after) place := by
  induction hfirst with
  | nil here => simpa using hsecond
  | up hdirectory _ ih => exact .up hdirectory (ih hsecond)
  | stay hdirectory _ ih => exact .stay hdirectory (ih hsecond)
  | down hup hstay hnode hnone _ ih => exact .down hup hstay hnode hnone (ih hsecond)
  | @link here _ others _ name target first second hup hstay hlink htarget _ _ ih =>
      have hcost : first + second + 1 + after = first + (second + after) + 1 := by omega
      rw [hcost]
      exact .link hup hstay hlink htarget (ih hsecond)

/-- Parts lead first along the first of them, and from there along the others. -/
theorem split (hleads : Leads tree here (rest ++ names) cost place) :
    ∃ before after mid, Leads tree here rest before mid ∧ Leads tree mid names after place ∧
      cost = before + after := by
  induction rest generalizing here cost with
  | nil => exact ⟨0, cost, here, .nil here, hleads, (Nat.zero_add cost).symm⟩
  | cons name rest ih =>
      cases hleads with
      | up hdirectory hrest =>
          obtain ⟨before, after, mid, hfirst, hsecond, hcost⟩ := ih hrest
          exact ⟨before, after, mid, .up hdirectory hfirst, hsecond, hcost⟩
      | stay hdirectory hrest =>
          obtain ⟨before, after, mid, hfirst, hsecond, hcost⟩ := ih hrest
          exact ⟨before, after, mid, .stay hdirectory hfirst, hsecond, hcost⟩
      | down hup hstay hnode hnone hrest =>
          obtain ⟨before, after, mid, hfirst, hsecond, hcost⟩ := ih hrest
          exact ⟨before, after, mid, .down hup hstay hnode hnone hfirst, hsecond, hcost⟩
      | link hup hstay hlink htarget hrest =>
          obtain ⟨before, after, mid, hfirst, hsecond, rfl⟩ := ih hrest
          exact ⟨_, after, mid, .link hup hstay hlink htarget hfirst, hsecond, by omega⟩

/-- The place that names lead to is one of names. -/
theorem isName (htree : tree.IsNamed) (hleads : Leads tree here rest cost place)
    (hhere : ∀ part ∈ here, Path.IsName part) : ∀ part ∈ place, Path.IsName part := by
  induction hleads with
  | nil here => exact hhere
  | up _ _ ih => exact ih fun part hmem => hhere part (List.mem_of_mem_dropLast hmem)
  | stay _ _ ih => exact ih hhere
  | down _ _ hnode _ _ ih => exact ih (isName_of_nodeAt? htree hnode)
  | @link here mid names place name target before after _ _ hlink _ _ ihTarget ihNames =>
      refine ihNames (ihTarget ?_)
      rw [linkStart]
      split
      · exact hhere
      · exact fun part hmem => absurd hmem List.not_mem_nil

/-- Names lead down to the directory that they name. -/
theorem of_names (hnames : ∀ part ∈ names, Path.IsName part)
    (hdirectory : tree.HasDirectory (here ++ names)) : Leads tree here names 0 (here ++ names) := by
  induction names generalizing here with
  | nil =>
      rw [List.append_nil]
      exact .nil here
  | cons name names ih =>
      obtain ⟨hname, hrest⟩ := List.forall_mem_cons.mp hnames
      rw [List.append_cons] at hdirectory ⊢
      obtain ⟨entries, hentries⟩ : tree.HasDirectory (here ++ [name]) := by
        cases names with
        | nil => simpa using hdirectory
        | cons next names =>
            obtain ⟨entries, hentries⟩ := hdirectory
            exact hasDirectory_of_nodeAt?_append (List.cons_ne_nil next names) hentries
      have hnone : tree.linkAt? (here ++ [name]) = none := by rw [linkAt?, hentries]
      exact .down hname.2 hname.ne_current hentries hnone (ih hrest hdirectory)

/-- A name leads somewhere only where there is an entry of that name. -/
theorem exists_nodeAt? (hname : Path.IsName name) (hleads : Leads tree here (name :: rest) cost place) :
    ∃ node, tree.nodeAt? (here ++ [name]) = some node := by
  cases hleads with
  | up => exact absurd rfl hname.2
  | stay => exact absurd rfl hname.ne_current
  | down _ _ hnode => exact ⟨_, hnode⟩
  | link _ _ hlink => exact ⟨_, nodeAt?_of_linkAt? hlink⟩

end Leads

/-! ## Following a path -/

theorem follow?_up (hdirectory : tree.HasDirectory here) :
    tree.follow? links here (Path.parent :: names) = tree.follow? links here.dropLast names := by
  obtain ⟨entries, hentries⟩ := hdirectory
  rw [follow?, hentries]
  rfl

theorem follow?_stay (hdirectory : tree.HasDirectory here) :
    tree.follow? links here (Path.current :: names) = tree.follow? links here names := by
  obtain ⟨entries, hentries⟩ := hdirectory
  rw [follow?, hentries]
  rfl

theorem follow?_down (hup : name ≠ Path.parent) (hstay : name ≠ Path.current) {node : FileNode}
    (hnode : tree.nodeAt? (here ++ [name]) = some node) (hnone : tree.linkAt? (here ++ [name]) = none) :
    tree.follow? links here (name :: names) = tree.follow? links (here ++ [name]) names := by
  obtain ⟨entries, hentries⟩ := hasDirectory_of_nodeAt?_append (List.cons_ne_nil name []) hnode
  rw [follow?, hentries]
  dsimp only
  rw [if_neg hup, if_neg hstay, ← nodeAt?_concat hentries, hnode]
  cases node with
  | file content => rfl
  | directory entries => rfl
  | link target =>
      rw [linkAt?, hnode] at hnone
      cases hnone

theorem follow?_link (hup : name ≠ Path.parent) (hstay : name ≠ Path.current)
    (hlink : tree.linkAt? (here ++ [name]) = some target) :
    tree.follow? (links + 1) here (name :: names) =
      tree.follow? links (linkStart here target) (target.parts ++ names) := by
  have hnode := nodeAt?_of_linkAt? hlink
  obtain ⟨entries, hentries⟩ := hasDirectory_of_nodeAt?_append (List.cons_ne_nil name []) hnode
  rw [follow?, hentries]
  dsimp only
  rw [if_neg hup, if_neg hstay, ← nodeAt?_concat hentries, hnode]

/-- Following parts follows those first that lead somewhere. -/
theorem follow?_append_of_leads (hleads : Leads tree here rest cost mid) (links : Nat)
    (names : List Text) :
    tree.follow? (cost + links) here (rest ++ names) = tree.follow? links mid names := by
  induction hleads generalizing links names with
  | nil here => rw [Nat.zero_add, List.nil_append]
  | up hdirectory _ ih =>
      rw [List.cons_append, follow?_up hdirectory]
      exact ih links names
  | stay hdirectory _ ih =>
      rw [List.cons_append, follow?_stay hdirectory]
      exact ih links names
  | down hup hstay hnode hnone _ ih =>
      rw [List.cons_append, follow?_down hup hstay hnode hnone]
      exact ih links names
  | @link _ _ others _ _ _ before after hup hstay hlink _ _ ihTarget ihNames =>
      have hlinks : before + after + 1 + links = before + (after + links) + 1 := by omega
      rw [List.cons_append, hlinks, follow?_link hup hstay hlink, ihTarget, ihNames]

/-- Following parts within a number of links leads somewhere within these links. -/
theorem leads_of_follow? (hfollow : tree.follow? links here rest = some place) :
    ∃ cost ≤ links, Leads tree here rest cost place := by
  fun_induction follow? tree links here rest with
  | case1 links here =>
      cases hfollow
      exact ⟨0, Nat.zero_le links, .nil _⟩
  | case2 links here names entries hentries ih =>
      obtain ⟨cost, hcost, hleads⟩ := ih hfollow
      exact ⟨cost, hcost, .up ⟨entries, hentries⟩ hleads⟩
  | case3 links here names entries hentries _ ih =>
      obtain ⟨cost, hcost, hleads⟩ := ih hfollow
      exact ⟨cost, hcost, .stay ⟨entries, hentries⟩ hleads⟩
  | case4 => cases hfollow
  | case5 => cases hfollow
  | case6 here name names entries hentries hup hstay target hentry links ih =>
      obtain ⟨cost, hcost, hleads⟩ := ih hfollow
      obtain ⟨before, after, mid, htarget, hnames, rfl⟩ := hleads.split
      have hlink : tree.linkAt? (here ++ [name]) = some target := by
        rw [linkAt?, nodeAt?_concat hentries, hentry]
      exact ⟨before + after + 1, Nat.succ_le_succ hcost, .link hup hstay hlink htarget hnames⟩
  | case7 links here name names entries hentries hup hstay node hnode hentry ih =>
      obtain ⟨cost, hcost, hleads⟩ := ih hfollow
      have hat : tree.nodeAt? (here ++ [name]) = some node := (nodeAt?_concat hentries name).trans hentry
      have hnone : tree.linkAt? (here ++ [name]) = none := by
        rw [linkAt?, hat]
        cases node with
        | file content => rfl
        | directory entries => rfl
        | link target => exact absurd rfl (hnode target)
      exact ⟨cost, hcost, .down hup hstay hat hnone hleads⟩
  | case8 => cases hfollow

theorem follow?_eq_some_iff :
    tree.follow? links here rest = some place ↔ ∃ cost ≤ links, Leads tree here rest cost place := by
  refine ⟨leads_of_follow?, ?_⟩
  rintro ⟨cost, hcost, hleads⟩
  have hfollow := follow?_append_of_leads hleads (links - cost) []
  rw [List.append_nil, Nat.add_sub_cancel' hcost, follow?] at hfollow
  exact hfollow

/-! ## The real path -/

/-- What is remembered of a link. -/
def SeenLinks.lookup (seen : SeenLinks) (place : List Text) : Option (Option (List Text)) :=
  (seen.find? fun entry => entry.1 = place).map Prod.snd

/-- What is remembered of links holds of the tree: a link leads to what is known of it, or it is under way. -/
structure Knows (tree : FileTree) (seen : SeenLinks) (underWay : List (List Text)) : Prop where
  known : ∀ {place known}, seen.lookup place = some (some known) → ∀ {target},
    tree.linkAt? place = some target → ∃ cost, Leads tree (linkStart place.dropLast target) target.parts cost known
  underWay : ∀ {place}, seen.lookup place = some none → place ∈ underWay

/-- Links are under way at different places, and none of them leads anywhere within fewer links than some. -/
structure UnderWay (tree : FileTree) (cost : Nat) (underWay : List (List Text)) : Prop where
  nodup : underWay.Nodup
  links : ∀ place ∈ underWay, ∃ target, tree.linkAt? place = some target ∧
    ∀ links other, Leads tree (linkStart place.dropLast target) target.parts links other → cost ≤ links

theorem SeenLinks.lookup_cons_self (place : List Text) (known : Option (List Text)) (seen : SeenLinks) :
    SeenLinks.lookup ((place, known) :: seen) place = some known := by
  simp [lookup]

theorem SeenLinks.lookup_cons_of_ne (hne : other ≠ place) (known : Option (List Text))
    (seen : SeenLinks) : SeenLinks.lookup ((other, known) :: seen) place = seen.lookup place := by
  simp [lookup, hne]

namespace Knows

variable {seen : SeenLinks} {underWay : List (List Text)}

/-- A link whose resolution begins is under way. -/
theorem begin (hknows : tree.Knows seen underWay) (place : List Text) :
    tree.Knows ((place, none) :: seen) (place :: underWay) where
  known := by
    intro other known hlookup
    by_cases hplace : place = other
    · subst hplace
      rw [SeenLinks.lookup_cons_self] at hlookup
      cases hlookup
    · rw [SeenLinks.lookup_cons_of_ne hplace] at hlookup
      exact hknows.known hlookup
  underWay := by
    intro other hlookup
    by_cases hplace : place = other
    · rw [hplace]
      exact List.mem_cons_self
    · rw [SeenLinks.lookup_cons_of_ne hplace] at hlookup
      exact List.mem_cons_of_mem place (hknows.underWay hlookup)

/-- When its resolution has ended, what it leads to is known. -/
theorem finish (hknows : tree.Knows seen (place :: underWay)) (hlink : tree.linkAt? place = some target)
    (hleads : Leads tree (linkStart place.dropLast target) target.parts cost mid) :
    tree.Knows ((place, some mid) :: seen) underWay where
  known := by
    intro other known hlookup target' hlink'
    by_cases hplace : place = other
    · subst hplace
      rw [SeenLinks.lookup_cons_self] at hlookup
      cases hlookup
      rw [hlink] at hlink'
      cases hlink'
      exact ⟨cost, hleads⟩
    · rw [SeenLinks.lookup_cons_of_ne hplace] at hlookup
      exact hknows.known hlookup hlink'
  underWay := by
    intro other hlookup
    by_cases hplace : place = other
    · subst hplace
      rw [SeenLinks.lookup_cons_self] at hlookup
      cases hlookup
    · rw [SeenLinks.lookup_cons_of_ne hplace] at hlookup
      exact (List.mem_cons.mp (hknows.underWay hlookup)).resolve_left (Ne.symm hplace)

end Knows

namespace UnderWay

variable {underWay : List (List Text)}

theorem mono (hunderWay : tree.UnderWay cost underWay) (hle : links ≤ cost) :
    tree.UnderWay links underWay where
  nodup := hunderWay.nodup
  links := by
    intro place hmem
    obtain ⟨target, hlink, hcost⟩ := hunderWay.links place hmem
    exact ⟨target, hlink, fun other end_ hleads => hle.trans (hcost other end_ hleads)⟩

/-- A link that leads somewhere within fewer links is not under way. -/
theorem not_mem (hunderWay : tree.UnderWay cost underWay) (hlink : tree.linkAt? place = some target)
    (hleads : Leads tree (linkStart place.dropLast target) target.parts links mid) (hlt : links < cost) :
    place ∉ underWay := by
  intro hmem
  obtain ⟨target', hlink', hcost⟩ := hunderWay.links place hmem
  rw [hlink] at hlink'
  cases hlink'
  exact absurd (hcost links mid hleads) (Nat.not_le.mpr hlt)

/-- The resolution of such a link may begin. -/
theorem begin (hunderWay : tree.UnderWay cost underWay) (hlink : tree.linkAt? place = some target)
    (hleads : Leads tree (linkStart place.dropLast target) target.parts links mid) (hlt : links < cost) :
    tree.UnderWay links (place :: underWay) where
  nodup := List.nodup_cons.mpr ⟨hunderWay.not_mem hlink hleads hlt, hunderWay.nodup⟩
  links := by
    rw [List.forall_mem_cons]
    refine ⟨⟨target, hlink, fun other _ hother => ?_⟩, (hunderWay.mono hlt.le).links⟩
    exact (hleads.deterministic hother).1.le

/-- There are at most as many links under way as there are links. -/
theorem length_le (hunderWay : tree.UnderWay cost underWay) :
    underWay.length ≤ linkCount tree.rootNode := by
  refine length_le_linkCount hunderWay.nodup fun place hmem => ?_
  obtain ⟨target, hlink, -⟩ := hunderWay.links place hmem
  exact ⟨target, hlink⟩

end UnderWay

/-- Where parts lead somewhere, resolving them reaches the same place, whatever links are known or under way. -/
theorem resolve_of_leads (hleads : Leads tree here rest cost place) {fuel : Nat} {seen : SeenLinks}
    {underWay : List (List Text)} (hknows : tree.Knows seen underWay)
    (hunderWay : tree.UnderWay cost underWay)
    (hfuel : linkCount tree.rootNode ≤ fuel + underWay.length) :
    ∃ after, tree.resolve fuel seen here rest = ⟨place, true, after⟩ ∧ tree.Knows after underWay := by
  induction hleads generalizing fuel seen underWay with
  | nil here =>
      rw [resolve]
      exact ⟨seen, rfl, hknows⟩
  | up _ _ ih =>
      rw [resolve, if_pos rfl]
      exact ih hknows hunderWay hfuel
  | stay _ _ ih =>
      rw [resolve, if_neg parent_ne_current.symm, if_pos rfl]
      exact ih hknows hunderWay hfuel
  | down hup hstay hnode hnone _ ih =>
      rw [resolve, if_neg hup, if_neg hstay]
      dsimp only
      rw [hnone]
      exact ih hknows hunderWay hfuel
  | @link here mid names place name target before after hup hstay hlink htarget hnames ihTarget ihNames =>
      have hnext : (here ++ [name]).dropLast = here := List.dropLast_concat
      have htarget' : Leads tree (linkStart (here ++ [name]).dropLast target) target.parts before mid := by
        rw [hnext]
        exact htarget
      have hlt : before < before + after + 1 := by omega
      have hafter := hunderWay.mono (show after ≤ before + after + 1 by omega)
      rw [resolve, if_neg hup, if_neg hstay]
      dsimp only
      rw [hlink]
      dsimp only
      cases hfind : seen.find? fun entry => entry.1 = here ++ [name] with
      | some entry =>
          obtain ⟨other, known⟩ := entry
          have hlookup : seen.lookup (here ++ [name]) = some known := by
            rw [SeenLinks.lookup, hfind]
            rfl
          cases known with
          | none => exact absurd (hknows.underWay hlookup) (hunderWay.not_mem hlink htarget' hlt)
          | some known =>
              obtain ⟨links, hknown⟩ := hknows.known hlookup hlink
              obtain ⟨-, rfl⟩ := htarget'.deterministic hknown
              exact ihNames hknows hafter hfuel
      | none =>
          have hbefore := hunderWay.begin hlink htarget' hlt
          cases fuel with
          | zero =>
              -- All links are under way, and yet this one is not.
              have hlength := hbefore.length_le
              rw [List.length_cons] at hlength
              omega
          | succ fuel =>
              have hfuel' : linkCount tree.rootNode ≤ fuel + ((here ++ [name]) :: underWay).length := by
                rw [List.length_cons]
                omega
              obtain ⟨seenAfter, hresolve, hknows'⟩ := ihTarget (hknows.begin _) hbefore hfuel'
              dsimp only
              rw [hresolve]
              exact ihNames (hknows'.finish hlink htarget') hafter hfuel

/-- The real path of a path that leads somewhere is the place that it leads to. -/
theorem realPath_of_leads (htree : tree.IsNamed) {path : Path} (hleads : Leads tree [] path.parts cost place) :
    tree.realPath path = ⟨.root, place⟩ := by
  have hknows : tree.Knows [] [] := by
    constructor
    · rintro place known ⟨⟩
    · rintro place ⟨⟩
  have hunderWay : tree.UnderWay cost [] :=
    ⟨List.nodup_nil, fun place hmem => absurd hmem List.not_mem_nil⟩
  have hfuel : linkCount tree.rootNode ≤ linkCount tree.rootNode + ([] : List (List Text)).length :=
    Nat.le_refl _
  obtain ⟨after, hresolve, -⟩ := resolve_of_leads hleads hknows hunderWay hfuel
  have hnames := hleads.isName htree fun part hmem => absurd hmem List.not_mem_nil
  rw [realPath, hresolve]
  dsimp only
  rw [List.filter_eq_self.mpr fun part hmem => (hnames part hmem).1,
    Path.resolveParts_eq fun part hmem => (hnames part hmem).2]

end FileTree

end HookAtlas
