import Shapewright.Proofs.Plan.Collecting

/-!
# Planning by unbounded search

`claim` looks through as many candidates as can be needed, so that planning is
total by construction. Here names are searched for without a bound: one candidate
after the other, until one is free. A run of such a search is a derivation, which
has an end; a search that goes on for ever has none. But every search ends, and in
one way only, so that planning by it has one result, the same plan.

Main definitions:

* `Naming.Searches`, `Naming.Claims` — the runs of a search, and of claiming a name.
* `Plan.CollectsFields`, `Plan.Plans` — the runs of collecting and planning.

Main results:

* `claims_iff` — claiming a name ends, with the name that `claim` gives.
* `plans_iff` — planning ends, with the plan of `ofShape`.
-/

namespace Shapewright

namespace Naming

variable {r : Reserved} {taken : List String}

/-! ## The search for a name -/

/-- Try `name`, then `stem` with the numbers from `n` on. -/
inductive Searches (r : Reserved) (taken : List String) (stem : String) :
    String → Nat → String → Prop where
  | stop {name : String} {n : Nat} (hfree : isFree r taken name = true) :
      Searches r taken stem name n name
  | next {name found : String} {n : Nat} (hbusy : isFree r taken name = false)
      (hrest : Searches r taken stem (stem ++ toString n) (n + 1) found) :
      Searches r taken stem name n found

/-- `claim` with the unbounded search in the place of the bounded one. -/
inductive Claims (r : Reserved) (taken : List String) (base parent : String) : String → Prop where
  | plain (hfree : isFree r taken (declarable r base) = true) :
      Claims r taken base parent (declarable r base)
  | searched {name : String} (hbusy : isFree r taken (declarable r base) = false)
      (hsearch : Searches r taken (parent ++ declarable r base) (parent ++ declarable r base) 2
        name) :
      Claims r taken base parent name

/-- A search finds one name at most: at each number the name is free, and then it is found, or
it is not, and the search goes on. -/
theorem Searches.unique {stem name found other : String} {n : Nat}
    (h : Searches r taken stem name n found) (hother : Searches r taken stem name n other) :
    found = other := by
  induction h with
  | stop hfree =>
    cases hother with
    | stop _ => rfl
    | next hbusy _ => exact absurd (hbusy.symm.trans hfree) Bool.false_ne_true
  | next hbusy _ ih =>
    cases hother with
    | stop hfree => exact absurd (hbusy.symm.trans hfree) Bool.false_ne_true
    | next _ hrest => exact ih hrest

/-- From any candidate on, the search stops at the first free one, as many steps away as there
are busy ones between. -/
theorem searches_candidate {stem : String} {i : Nat}
    (hfree : isFree r taken (candidate stem i) = true)
    (hfirst : ∀ j < i, isFree r taken (candidate stem j) = false) :
    ∀ (steps j : Nat), j + steps = i →
      Searches r taken stem (candidate stem j) (j + 2) (candidate stem i) := by
  -- by induction on how many candidates there are before the free one
  intro steps
  induction steps with
  | zero =>
    intro j hj
    obtain rfl : j = i := by omega
    exact .stop hfree
  | succ steps ih =>
    intro j hj
    exact .next (hfirst j (by omega)) (ih (j + 1) (by omega))

/-- **The search that may go on for ever finds what the bounded one does.** It comes to an end
because some candidate within the bound is free. -/
theorem searches_iff (h : r.Escapable) {stem name : String} :
    Searches r taken stem stem 2 name ↔ name = firstFree r taken stem := by
  obtain ⟨i, hi, hfree, hfirst⟩ := firstFree_eq h taken stem
  have hends : Searches r taken stem stem 2 (firstFree r taken stem) := by
    rw [hi]
    exact searches_candidate hfree hfirst i 0 (Nat.zero_add i)
  constructor
  · exact fun hname => hname.unique hends
  · rintro rfl
    exact hends

/-- Claiming a name by unbounded search ends, with the name that `claim` gives. The bound of
the computed search is never what stops it. -/
theorem claims_iff (h : r.Escapable) {base parent name : String} :
    Claims r taken base parent name ↔ name = claim r taken base parent := by
  rw [claim]
  constructor
  · intro hclaims
    cases hclaims with
    | plain hfree => rw [if_pos hfree]
    | searched hbusy hsearch =>
      rw [hbusy, if_neg Bool.false_ne_true]
      exact (searches_iff h).mp hsearch
  · rintro rfl
    split
    · next hfree => exact .plain hfree
    · next hbusy => exact .searched (Bool.eq_false_iff.mpr hbusy) ((searches_iff h).mpr rfl)

end Naming

namespace Plan

open Naming Collected

/-! ## Planning -/

mutual

/-- `collectShape` with names searched for without a bound. -/
inductive CollectsShape (r : Reserved) :
    List String → String → String → Bool → Shape → Collected → Prop where
  | array {taken : List String} {parent key : String} {inList : Bool} {item : Shape}
      {c : Collected} (h : CollectsShape r taken parent key true item c) :
      CollectsShape r taken parent key inList (.array item) c
  | object {taken : List String} {parent key name : String} {inList : Bool} {fields : Fields}
      {inner : Collected} (hname : Claims r taken (plainName key inList) parent name)
      (hinner : CollectsFields r (name :: taken) name fields inner) :
      CollectsShape r taken parent key inList (.object fields) (declare key name fields inner)
  | scalar {taken : List String} {parent key : String} {inList : Bool} {s : Shape}
      (harray : ∀ item, s ≠ .array item) (hobject : ∀ fields, s ≠ .object fields) :
      CollectsShape r taken parent key inList s (nothing taken)

/-- `collectFields` with names searched for without a bound. -/
inductive CollectsFields (r : Reserved) : List String → String → Fields → Collected → Prop where
  | nil {taken : List String} {parent : String} : CollectsFields r taken parent [] (nothing taken)
  | cons {taken : List String} {parent key : String} {s : Shape} {rest : Fields}
      {first others : Collected} (hfirst : CollectsShape r taken parent key false s first)
      (hothers : CollectsFields r first.taken parent rest others) :
      CollectsFields r taken parent ((key, s) :: rest) (first.followedBy others)

end

/-- `ofShape` with names searched for without a bound. -/
inductive Plans (r : Reserved) (rootName : String) (s : Shape) : Plan → Prop where
  | plan {name : String} {collected : Collected}
      (hname : Claims r [] (Name.pascalCase rootName) "" name)
      (hcollected : CollectsFields r [name] name (rootFields s) collected) :
      Plans r rootName s {
        nested := collected.found
        root := ⟨name, rootFields s, collected.children⟩
        rootLayers := rootLayersOf s }

/-- A run that is described by what it may do, without bounds, does what the recursion
computes, and nothing else. -/
theorem collectsFields_iff {r : Reserved} (hr : r.Escapable) (taken : List String)
    (parent : String) (fields : Fields) : ∀ c,
    CollectsFields r taken parent fields c ↔ c = collectFields r taken parent fields := by
  -- each rule is one case of the recursion; where two could apply, their conditions exclude it
  apply (collectShape.mutual_induct r
    (fun taken parent key inList s => ∀ c,
      CollectsShape r taken parent key inList s c ↔ c = collectShape r taken parent key inList s)
    (fun taken parent fields => ∀ c,
      CollectsFields r taken parent fields c ↔ c = collectFields r taken parent fields)
    ?_ ?_ ?_ ?_ ?_).2 taken parent fields
  · intro taken parent key inList item ih c
    rw [collectShape_array]
    constructor
    · intro h
      cases h with
      | array h => exact (ih c).mp h
      | scalar harray _ => exact absurd rfl (harray item)
    · exact fun h => .array ((ih c).mpr h)
  · intro taken parent key inList fields name ih c
    rw [collectShape_object]
    constructor
    · intro h
      cases h with
      | object hname hinner =>
        rw [claims_iff hr] at hname
        subst hname
        rw [(ih _).mp hinner]
      | scalar _ hobject => exact absurd rfl (hobject fields)
    · rintro rfl
      exact .object ((claims_iff hr).mpr rfl) ((ih _).mpr rfl)
  · intro s taken parent key inList harray hobject c
    -- scalars have one rule for all of them
    have hnothing : collectShape r taken parent key inList s = nothing taken := by
      cases s with
      | array item => exact absurd rfl (harray item)
      | object fields => exact absurd rfl (hobject fields)
      | _ => rfl
    rw [hnothing]
    constructor
    · intro h
      cases h with
      | array _ => exact absurd rfl (harray _)
      | object _ _ => exact absurd rfl (hobject _)
      | scalar _ _ => rfl
    · rintro rfl
      exact .scalar harray hobject
  · intro taken parent c
    constructor
    · intro h
      cases h with
      | nil => rfl
    · rintro rfl
      exact .nil
  · intro taken parent key s rest first hfirst hothers c
    rw [collectFields_cons]
    constructor
    · intro h
      cases h with
      | cons hshape hrest =>
        rw [hfirst] at hshape
        subst hshape
        rw [(hothers _).mp hrest]
    · rintro rfl
      exact .cons ((hfirst _).mpr rfl) ((hothers _).mpr rfl)

/-- Planning by unbounded search ends, with the plan of `ofShape`. -/
theorem plans_iff {r : Reserved} (hr : r.Escapable) {rootName : String} {s : Shape} {p : Plan} :
    Plans r rootName s p ↔ p = ofShape r rootName s := by
  constructor
  · intro h
    cases h with
    | plan hname hcollected =>
      rw [claims_iff hr] at hname
      subst hname
      rw [(collectsFields_iff hr _ _ _ _).mp hcollected]
      rfl
  · rintro rfl
    exact .plan ((claims_iff hr).mpr rfl) ((collectsFields_iff hr _ _ _ _).mpr rfl)

end Plan
end Shapewright
