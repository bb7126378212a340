import Shapewright.Plan.Basic
import Shapewright.Proofs.Plan.Supply

/-!
# Collecting types

What one step of the collection does to the names in use and to the types found,
and what follows for a whole run. A step either finds nothing, or declares a type
around what is found below it, or puts two results one after the other; a
property that these three keep holds of every run (`collect_induction`).

Main results:

* `collectFields_taken_perm` — the names in use afterwards are those before and
  those of the types found, each once.
* `collectFields_isSupply` — names in use stay distinct and declarable.
-/

namespace Shapewright.Plan

open Naming

/-! ## Steps and runs -/

namespace Collected

/-- Nothing to declare. -/
def nothing (taken : List String) : Collected := ⟨taken, [], []⟩

/-- The type `name` under `key`, around what is found in its fields. -/
def declare (key name : String) (fields : Fields) (inner : Collected) : Collected :=
  ⟨inner.taken, inner.found ++ [⟨name, fields, inner.children⟩], [(key, name)]⟩

/-- One result, then another that starts from its names. -/
def followedBy (first others : Collected) : Collected :=
  ⟨others.taken, first.found ++ others.found, first.children ++ others.children⟩

end Collected

open Collected

/-- Inside a list the member's name says so; nothing else is changed by one more list. -/
theorem collectShape_array (r : Reserved) (taken : List String) (parent key : String)
    (inList : Bool) (item : Shape) :
    collectShape r taken parent key inList (.array item) =
      collectShape r taken parent key true item := rfl

/-- An object claims its name before those inside it do, and is put behind them: names are
claimed from the outside in, and types are found from the inside out. -/
theorem collectShape_object (r : Reserved) (taken : List String) (parent key : String)
    (inList : Bool) (fields : Fields) :
    collectShape r taken parent key inList (.object fields) =
      declare key (claim r taken (plainName key inList) parent) fields
        (collectFields r (claim r taken (plainName key inList) parent :: taken)
          (claim r taken (plainName key inList) parent) fields) := rfl

/-- The members behind the first one start from the names that it leaves. -/
theorem collectFields_cons (r : Reserved) (taken : List String) (parent key : String) (s : Shape)
    (rest : Fields) :
    collectFields r taken parent ((key, s) :: rest) =
      (collectShape r taken parent key false s).followedBy
        (collectFields r (collectShape r taken parent key false s).taken parent rest) := rfl

/-- What the three steps keep holds of every run. The property may speak of the
names in use before, of the containing type and of the result; the type of an
object is declared around the run over its fields. -/
theorem collect_induction {r : Reserved} {P : List String → String → Collected → Prop}
    (hnothing : ∀ taken parent, P taken parent (nothing taken))
    (hdeclare : ∀ taken parent key inList fields name,
      name = claim r taken (plainName key inList) parent →
      P (name :: taken) name (collectFields r (name :: taken) name fields) →
      P taken parent (declare key name fields (collectFields r (name :: taken) name fields)))
    (hfollowed : ∀ taken parent first others,
      P taken parent first → P first.taken parent others →
      P taken parent (first.followedBy others)) :
    (∀ taken parent key inList s, P taken parent (collectShape r taken parent key inList s)) ∧
      ∀ taken parent fields, P taken parent (collectFields r taken parent fields) := by
  -- the two functions are defined by one recursion, of which there are five cases
  apply collectShape.mutual_induct r
    (fun taken parent key inList s => P taken parent (collectShape r taken parent key inList s))
    (fun taken parent fields => P taken parent (collectFields r taken parent fields))
  · intro taken parent key inList item ih
    rw [collectShape_array]
    exact ih
  · intro taken parent key inList fields name ih
    rw [collectShape_object]
    exact hdeclare taken parent key inList fields name rfl ih
  · -- neither a list nor an object
    intro s taken parent key inList harray hobject
    cases s with
    | array item => exact absurd rfl (harray item)
    | object fields => exact absurd rfl (hobject fields)
    | _ => exact hnothing taken parent
  · intro taken parent
    exact hnothing taken parent
  · intro taken parent key s rest first hfirst hothers
    rw [collectFields_cons]
    exact hfollowed taken parent _ _ hfirst hothers

/-! ## Names in use -/

/-- The names of the types found. -/
def Collected.names (c : Collected) : List String := c.found.map Declaration.name

/-- The declared type comes last. -/
@[simp] theorem Collected.names_declare (key name : String) (fields : Fields) (inner : Collected) :
    (declare key name fields inner).names = inner.names ++ [name] := by
  simp [names, declare]

/-- What is found later stands behind. -/
@[simp] theorem Collected.names_followedBy (first others : Collected) :
    (first.followedBy others).names = first.names ++ others.names := by
  simp [names, followedBy]

/-- A run over members takes the names it gives to types and no others, but in another order
than it declares them in. -/
theorem collectFields_taken_perm (r : Reserved) (taken : List String) (parent : String)
    (fields : Fields) :
    (collectFields r taken parent fields).taken.Perm
      ((collectFields r taken parent fields).names ++ taken) := by
  refine (collect_induction (P := fun taken _ c => c.taken.Perm (c.names ++ taken))
    ?_ ?_ ?_).2 taken parent fields
  · intro taken _
    exact List.Perm.refl taken
  · intro taken parent key inList fields name hname ih
    rw [names_declare, List.append_assoc]
    exact ih
  · intro taken parent first others hfirst hothers
    -- the second part starts from the names that the first one leaves
    have hboth : others.taken.Perm (others.names ++ (first.names ++ taken)) :=
      hothers.trans (hfirst.append_left others.names)
    have hswap : (others.names ++ first.names).Perm (first.names ++ others.names) :=
      List.perm_append_comm
    rw [names_followedBy]
    rw [← List.append_assoc] at hboth
    exact hboth.trans (hswap.append_right taken)

/-- Names that can be in use together: no two are the same, and all can be declared. -/
structure IsSupply (r : Reserved) (taken : List String) : Prop where
  nodup      : taken.Nodup
  declarable : ∀ name ∈ taken, r.holds name = false

/-- Before anything is named there is nothing to go wrong. -/
theorem isSupply_nil (r : Reserved) : IsSupply r [] :=
  ⟨List.nodup_nil, fun _ h => absurd h List.not_mem_nil⟩

/-- A claimed name joins the names in use: it was free, so they stay distinct, and it is none
that the target reserves. -/
theorem IsSupply.claim {r : Reserved} {taken : List String} (hr : r.Escapable)
    (h : IsSupply r taken) (base parent : String) :
    IsSupply r (claim r taken base parent :: taken) := by
  obtain ⟨hholds, hnew⟩ := isFree_iff.mp (claim_isFree hr taken base parent)
  refine ⟨List.nodup_cons.mpr ⟨hnew, h.nodup⟩, fun name hname => ?_⟩
  rcases List.mem_cons.mp hname with rfl | hold
  · exact hholds
  · exact h.declarable name hold

/-- **A run over members keeps the names apart.** This is the invariant of the naming: each
step adds one free name, and a free name is neither reserved nor taken. -/
theorem collectFields_isSupply {r : Reserved} {taken : List String} (hr : r.Escapable)
    (h : IsSupply r taken) (parent : String) (fields : Fields) :
    IsSupply r (collectFields r taken parent fields).taken := by
  refine (collect_induction (P := fun taken _ c => IsSupply r taken → IsSupply r c.taken)
    ?_ ?_ ?_).2 taken parent fields h
  · intro taken _ h
    exact h
  · intro taken parent key inList fields name hname ih h
    subst hname
    exact ih (h.claim hr _ _)
  · intro taken parent first others hfirst hothers h
    exact hothers (hfirst h)

end Shapewright.Plan
