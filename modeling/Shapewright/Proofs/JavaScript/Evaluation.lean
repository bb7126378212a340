import Shapewright.Dialect.JavaScript
import Shapewright.Proofs.TypeScript.Pieces

/-!
# What constructors compute

The expressions that constructors are made of, evaluated. A constructor is given a plain
object. Under a key there is its own member, or else the member that all plain objects
inherit under that key, or else `undefined`. What they inherit, and what `new` makes of a
class and an argument, is left open. `new` may throw, as does mapping what is no list;
reading what is no object does not come up, and counts as throwing too.

A constructor takes over what it finds under a key. Where that is null or undefined, and
where the member stands for no class, it is kept as it is; elsewhere every list of every
layer is gone through, and each value inside all of them becomes an instance.

Main definitions:

* `Value`, and `Realm` — what `new` makes, and what plain objects inherit.
* `Realm.property` — what is found under a key.
* `Expr.eval` — the value of an expression.
* `Value.mapLayers?`, `Value.mapLayers` — a function applied inside so many lists.
* `Value.Nests` — lists in lists, with values of a kind inside.

Main results:

* `eval_construct` — what is made of a value, whatever it is.
* `eval_initializer` — what is assigned to a field of a class.
* `Value.mapLayers?_of_nests` — the same where nothing is thrown.
-/

namespace Shapewright

/-- What a slot is inside all its lists. -/
def Slot.innermost : Slot → Slot
  | .list item => item.innermost
  | slot => slot

namespace JavaScript

/-! ## Values -/

inductive Value where
  | undefined
  | null
  | boolean (value : Bool)
  | number (value : Json.Number)
  | string (value : String)
  | array (items : List Value)
  /-- A plain object with its own members. -/
  | object (members : List (String × Value))
  | function (name : String)
  | instanceOf (className : String) (source : Value)
  deriving Inhabited

/-- What there is around a constructor. -/
structure Realm where
  /-- What `new` makes of a class and an argument; none if it throws. -/
  make : String → Value → Option Value
  /-- The members that every plain object has besides its own. -/
  inherited : List (String × Value)
  /-- Whatever is made is an object. -/
  make_ne_undefined : ∀ className argument, make className argument ≠ some .undefined

/-- What is found under a key of a plain object with the given members. Its own member
hides the one that it inherits. -/
def Realm.property (realm : Realm) (key : String) (members : List (String × Value)) : Value :=
  ((Json.Member.get? key members).or (Json.Member.get? key realm.inherited)).getD .undefined

namespace Value

/-- Whether `== null` holds. -/
def isNullish : Value → Bool
  | .undefined | .null => true
  | _ => false

/-- `f` applied to what is inside so many lists; none if it fails anywhere there, or if
there are not so many. -/
def mapLayers? (f : Value → Option Value) : Nat → Value → Option Value
  | 0, v => f v
  | layers + 1, .array items => (items.mapM (mapLayers? f layers)).map .array
  | _ + 1, _ => none

/-- `f` applied to what is inside so many lists. -/
def mapLayers (f : Value → Value) : Nat → Value → Value
  | 0, v => f v
  | layers + 1, .array items => .array (items.map (mapLayers f layers))
  | _ + 1, v => v

/-- Lists in lists, so many deep, with values of a kind inside. -/
inductive Nests (leaf : Value → Prop) : Nat → Value → Prop where
  | leaf {v : Value} : leaf v → Nests leaf 0 v
  | array {layers : Nat} {items : List Value} :
      (∀ item ∈ items, Nests leaf layers item) → Nests leaf (layers + 1) (.array items)

end Value

/-! ## Evaluation -/

/-- The value of an expression with the variables in scope; none if evaluation throws. A
variable that is called like a class hides it, and is no class itself. -/
def Expr.eval (realm : Realm) (scope : List (String × Value)) : Expr → Option Value
  | .variable name => scope.lookup name
  | .property object key =>
    match scope.lookup object with
    | some (.object members) => some (realm.property key members)
    | _ => none
  | .instantiate className argument =>
    -- a variable of that name would be no class
    match scope.lookup className with
    | some _ => none
    | none => (argument.eval realm scope).bind (realm.make className)
  | .mapItems list parameter body =>
    match list.eval realm scope with
    | some (.array items) =>
      (items.mapM fun item => body.eval realm ((parameter, item) :: scope)).map .array
    | _ => none
  | .unlessNull tested built =>
    match tested.eval realm scope with
    | some v => if v.isNullish then some v else built.eval realm scope
    | none => none

variable {realm : Realm} {scope : List (String × Value)}

/-! ## Instances inside lists -/

/-- There are instances to be made exactly if the slot is a class inside its lists. -/
theorem isSome_construct? (source : Expr) (depth : Nat) (slot : Slot) :
    (construct? source depth slot).isSome = true ↔
      ∃ className, slot.innermost = .named className := by
  induction slot generalizing source depth with
  | list item ih => rw [construct?, Option.isSome_map, ih, Slot.innermost]
  | named name => exact ⟨fun _ => ⟨name, rfl⟩, fun _ => rfl⟩
  | _ => simp [construct?, Slot.innermost]

/-- **The value inside all lists becomes an instance.** Every layer of lists is gone
through by one function, which hands its parameter to the next. The induction is on the
slot, with one more parameter in scope for each list; none of them may hide the class,
or there would be no instance at the end. -/
theorem eval_construct {source built : Expr} {depth : Nat} {slot : Slot} {className : String}
    {v : Value} (hslot : slot.innermost = .named className)
    (hparameters : ∀ n, className ≠ itemVariable n) (hscope : scope.lookup className = none)
    (hbuilt : construct? source depth slot = some built)
    (hsource : source.eval realm scope = some v) :
    built.eval realm scope = v.mapLayers? (realm.make className) slot.layers := by
  induction slot generalizing source built depth scope v with
  | list item ih =>
    rw [construct?, Option.map_eq_some_iff] at hbuilt
    obtain ⟨body, hbody, rfl⟩ := hbuilt
    rw [Expr.eval, hsource, Slot.layers]
    cases v with
    | array items =>
      have hitems : (fun x => body.eval realm ((itemVariable depth, x) :: scope)) =
          Value.mapLayers? (realm.make className) item.layers := by
        funext x
        refine ih hslot ?_ hbody List.lookup_cons_self
        -- the new parameter is not called like the class either
        rw [List.lookup_cons, beq_false_of_ne (hparameters depth)]
        exact hscope
      rw [Value.mapLayers?, ← hitems]
    | _ => rfl
  | named name =>
    cases hslot
    cases hbuilt
    rw [Expr.eval, hscope, hsource]
    rfl
  | _ => cases hslot

/-! ## Where nothing is thrown -/

/-- A function that fails nowhere in a list is applied to all of it. -/
theorem mapM_eq_some_map {α β : Type} {f : α → Option β} {g : α → β} {items : List α}
    (h : ∀ item ∈ items, f item = some (g item)) : items.mapM f = some (items.map g) := by
  induction items with
  | nil => rfl
  | cons item rest ih =>
    obtain ⟨hitem, hrest⟩ := List.forall_mem_cons.mp h
    rw [List.mapM_cons, hitem, ih hrest]
    rfl

/-- Nothing is thrown where there are as many lists as there should be, and an instance
can be made of each value inside. -/
theorem Value.mapLayers?_of_nests {f : Value → Option Value} {g : Value → Value} {layers : Nat}
    {v : Value} (h : Nests (fun x => f x = some (g x)) layers v) :
    mapLayers? f layers v = some (mapLayers g layers v) := by
  induction h with
  | leaf hleaf => exact hleaf
  | array _ ih => rw [mapLayers?, mapLayers, mapM_eq_some_map ih, Option.map_some]

/-- What the values inside are known to be may be said less precisely. -/
theorem Value.Nests.mono {leaf leaf' : Value → Prop} (hleaf : ∀ x, leaf x → leaf' x) {layers : Nat}
    {v : Value} (h : Nests leaf layers v) : Nests leaf' layers v := by
  induction h with
  | leaf hv => exact .leaf (hleaf _ hv)
  | array _ ih => exact .array ih

/-- Lists are not null, so that nesting of what is not null is not null. -/
theorem Value.Nests.isNullish_eq_false {leaf : Value → Prop}
    (hleaf : ∀ x, leaf x → x.isNullish = false) {layers : Nat} {v : Value}
    (h : Nests leaf layers v) : v.isNullish = false := by
  cases h with
  | leaf hv => exact hleaf v hv
  | array _ => rfl

/-- What is made inside lists is never undefined: it is a list, or an instance. -/
theorem Realm.mapLayers?_make_ne_undefined (realm : Realm) (className : String) (layers : Nat)
    (v : Value) : v.mapLayers? (realm.make className) layers ≠ some .undefined := by
  cases layers with
  | zero => exact realm.make_ne_undefined className v
  | succ layers =>
    cases v with
    | array items =>
      rw [Value.mapLayers?]
      intro h
      obtain ⟨made, -, hmade⟩ := Option.map_eq_some_iff.mp h
      cases hmade
    | _ => exact nofun

/-! ## What is assigned -/

section Initializers

variable {members : List (String × Value)} {key : String} {slot : Slot} {className : String}

/-- The scope of a constructor that is given an object. -/
def scopeOf (members : List (String × Value)) : List (String × Value) :=
  [(parameterName, .object members)]

/-- No variable of a constructor hides a class of this name. -/
structure IsVisible (className : String) : Prop where
  ne_parameterName : className ≠ parameterName
  ne_itemVariable  : ∀ depth, className ≠ itemVariable depth

/-- A constructor finds under a key what its object has there. -/
theorem eval_property (key : String) :
    (Expr.property parameterName key).eval realm (scopeOf members) =
      some (realm.property key members) := rfl

/-- Without a class, a value is taken over as it is. -/
theorem eval_initializer_of_no_class (hslot : ∀ className, slot.innermost ≠ .named className) :
    (initializer key slot).eval realm (scopeOf members) = some (realm.property key members) := by
  have hnone : construct? (.property parameterName key) 0 slot = none := by
    rw [← Option.not_isSome_iff_eq_none, isSome_construct?]
    rintro ⟨className, h⟩
    exact hslot className h
  rw [initializer, hnone, eval_property]

/-- **With a class, what is found is kept only where it is null or undefined.** Anything
else is gone through, and evaluation throws if there are not as many lists as the member
has or if an instance cannot be made. -/
theorem eval_initializer (hslot : slot.innermost = .named className)
    (hvisible : IsVisible className) :
    (initializer key slot).eval realm (scopeOf members) =
      if (realm.property key members).isNullish then some (realm.property key members)
      else (realm.property key members).mapLayers? (realm.make className) slot.layers := by
  obtain ⟨built, hbuilt⟩ := Option.isSome_iff_exists.mp
    ((isSome_construct? (.property parameterName key) 0 slot).mpr ⟨className, hslot⟩)
  have hscope : (scopeOf members).lookup className = none := by
    rw [scopeOf, List.lookup_cons, beq_false_of_ne hvisible.ne_parameterName]
    rfl
  rw [initializer, hbuilt, Expr.eval, eval_property,
    eval_construct hslot hvisible.ne_itemVariable hscope hbuilt (eval_property key)]

end Initializers

end JavaScript
end Shapewright
