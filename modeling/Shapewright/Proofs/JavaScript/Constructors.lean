import Shapewright.Proofs.Dialect.ListRoots
import Shapewright.Proofs.JavaScript.Reading

/-!
# How constructors go through lists

Constructors go through the lists of a member by functions inside functions, one for
each layer. The parameter of each is what the next one goes through, and the parameter of
the last is what an instance is made of. The parameters are numbered, so they are
different from each other and from the object that the constructor is given.

What is written is read back and evaluated, so that it is the text of a field that says
what the field is assigned. All layers are rebuilt, and what is null is kept, for every key
that is one line. Two keys go wrong. One with a line break is written into a literal as it
is, and the text is no expression. And one under which plain objects inherit something is
never missing: the comparison with null finds what is inherited, and an instance is made
of that.

Main definitions:

* `Expr.mapCalls` — how many functions are applied to lists in an expression.
* `Expr.parameters`, `Expr.lists`, `Expr.innermost` — the parameters from the outside in,
  what the functions are applied to, and the body of the last.
* `Expr.Rebuilds` — an expression goes through so many lists and makes instances inside.
* `Realm.valueOf?` — what a text evaluates to in a constructor.
* `Realm.Rebuilds` — a text rebuilds so many lists of whatever is under a key.

Main results:

* `rebuilds_of_construct` — which expressions are written.
* `constructors_rebuild_lists_iff` — for which keys they do what they are written for.
* `constructors_broken` — what is made of the other keys.
-/

namespace Shapewright.JavaScript

open Text Plan

/-! ## Functions inside functions -/

namespace Expr

/-- How many times a function is applied to the items of a list. -/
def mapCalls : Expr → Nat
  | .variable _ => 0
  | .property _ _ => 0
  | .instantiate _ argument => argument.mapCalls
  | .mapItems list _ body => list.mapCalls + body.mapCalls + 1
  | .unlessNull tested built => tested.mapCalls + built.mapCalls

/-- The parameters of the functions inside one another, from the outside in. -/
def parameters : Expr → List String
  | .mapItems _ parameter body => parameter :: body.parameters
  | _ => []

/-- What these functions are applied to the items of. -/
def lists : Expr → List Expr
  | .mapItems list _ body => list :: body.lists
  | _ => []

/-- The body of the last of these functions. -/
def innermost : Expr → Expr
  | .mapItems _ _ body => body.innermost
  | e => e

/-- The expression goes through so many layers of lists in `source` by one function
each, and makes instances of a class of what is inside. -/
structure Rebuilds (e source : Expr) (layers : Nat) (className : String) : Prop where
  mapCalls_eq : e.mapCalls = layers
  length_eq : e.parameters.length = layers
  /-- The parameters hide neither the object of the constructor nor each other. -/
  nodup : (parameterName :: e.parameters).Nodup
  /-- The first list is the source, each other one and the argument of `new` is the
  parameter before it. -/
  handed_on : ∃ argument, e.innermost = .instantiate className argument ∧
    e.lists ++ [argument] = source :: e.parameters.map .variable

end Expr

/-! ## Parameters -/

/-- The layers of lists have parameters of different names. -/
theorem itemVariable_injective : Function.Injective itemVariable := by
  -- the number is read off
  have hread : Function.LeftInverse
      (fun name => Nat.ofDigitChars 10 (name.toList.drop "item".toList.length) 0) itemVariable := by
    intro depth
    dsimp only
    rw [toList_itemVariable, List.drop_left]
    split
    · next hzero => rw [hzero, Nat.ofDigitChars_nil]
    · exact Nat.ofDigitChars_ten_toDigits
  exact hread.injective

/-- No parameter is called like the object that a constructor is given. -/
theorem parameterName_ne_itemVariable (depth : Nat) : parameterName ≠ itemVariable depth := by
  intro h
  have hhead : parameterName.toList.head? = (itemVariable depth).toList.head? := by rw [← h]
  rw [toList_itemVariable] at hhead
  cases hhead

section Constructing

variable {source built : Expr} {depth : Nat} {slot : Slot} {className : String}

/-- The parameters are numbered from the depth on that the construction starts at. -/
theorem parameters_construct (hbuilt : construct? source depth slot = some built) :
    built.parameters = (List.range' depth slot.layers).map itemVariable := by
  induction slot generalizing source depth built with
  | list item ih =>
    rw [construct?, Option.map_eq_some_iff] at hbuilt
    obtain ⟨body, hbody, rfl⟩ := hbuilt
    rw [Expr.parameters, ih hbody, Slot.layers, List.range'_succ, List.map_cons]
  | named name =>
    cases hbuilt
    rfl
  | _ => cases hbuilt

/-- There is one function for each layer of lists. -/
theorem mapCalls_construct (hbuilt : construct? source depth slot = some built) :
    built.mapCalls = source.mapCalls + slot.layers := by
  induction slot generalizing source depth built with
  | list item ih =>
    rw [construct?, Option.map_eq_some_iff] at hbuilt
    obtain ⟨body, hbody, rfl⟩ := hbuilt
    -- one more function around as many as the inner layers need
    rw [Expr.mapCalls, ih hbody, Expr.mapCalls, Slot.layers]
    omega
  | named name =>
    cases hbuilt
    rfl
  | _ => cases hbuilt

/-- Each function is applied to the parameter of the one around it, and the instance is made
of the last parameter. The induction is on the slot, with the source of each layer being what
the layer around it hands on. -/
theorem handed_on_construct (hslot : slot.innermost = .named className)
    (hbuilt : construct? source depth slot = some built) :
    ∃ argument, built.innermost = .instantiate className argument ∧
      built.lists ++ [argument] = source :: built.parameters.map .variable := by
  induction slot generalizing source depth built with
  | list item ih =>
    rw [construct?, Option.map_eq_some_iff] at hbuilt
    obtain ⟨body, hbody, rfl⟩ := hbuilt
    obtain ⟨argument, hinnermost, hlists⟩ := ih hslot hbody
    -- the inner part has this parameter as its source, which is the first of its lists
    refine ⟨argument, hinnermost, ?_⟩
    rw [Expr.lists, Expr.parameters, List.cons_append, hlists, List.map_cons]
  | named name =>
    cases hslot
    cases hbuilt
    exact ⟨source, rfl, rfl⟩
  | _ => cases hslot

/-- **One function for each layer of lists**, each applied to the parameter before it. The
parameters are numbered by their depth, so that they differ from each other, and their common
beginning makes them differ from the parameter of the constructor. -/
theorem rebuilds_of_construct (hslot : slot.innermost = .named className)
    (hsource : source.mapCalls = 0) (hbuilt : construct? source depth slot = some built) :
    built.Rebuilds source slot.layers className where
  mapCalls_eq := by rw [mapCalls_construct hbuilt, hsource, Nat.zero_add]
  length_eq := by rw [parameters_construct hbuilt, List.length_map, List.length_range']
  nodup := by
    rw [parameters_construct hbuilt, List.nodup_cons]
    constructor
    · -- the parameter of the constructor has a name of its own
      intro hmem
      obtain ⟨i, -, hi⟩ := List.mem_map.mp hmem
      exact parameterName_ne_itemVariable i hi.symm
    · exact List.Nodup.map itemVariable_injective List.nodup_range'
  handed_on := handed_on_construct hslot hbuilt

end Constructing

/-! ## Types -/

/-- Inside all lists there is no list. -/
theorem isList_innermost (slot : Slot) : slot.innermost.isList = false := by
  induction slot with
  | list item ih => exact ih
  | _ => rfl

/-- The documented type has one `Array` for each list. -/
theorem typeExpr_eq_listType (slot : Slot) :
    typeExpr slot = listType (typeExpr slot.innermost) slot.layers := by
  induction slot with
  | list item ih => rw [typeExpr, ih, Slot.layers, listType, Slot.innermost]
  | _ => rfl

/-- There is no list in the type inside all lists: the names of classes are words. -/
theorem not_mem_typeExpr_innermost {slot : Slot}
    (hclass : ∀ className, slot.innermost = .named className → IsClassName className) :
    '<' ∉ (typeExpr slot.innermost).toList := by
  cases hslot : slot.innermost with
  -- there is no list inside all lists
  | list item =>
    have hinnermost := isList_innermost slot
    rw [hslot] at hinnermost
    cases hinnermost
  | named className =>
    have hall := isWordChar_of_isPropertyName (hclass className hslot).isPropertyName
    exact fun hmem => absurd (hall _ hmem) (by decide)
  | _ => decide

/-! ## What texts evaluate to -/

/-- What a text evaluates to in a constructor that is given an object with these members;
none if the text is no expression, or if its evaluation throws. -/
def Realm.valueOf? (realm : Realm) (members : List (String × Value)) (text : String) :
    Option Value :=
  (Expr.ofText? text.toList).bind fun e => e.eval realm (scopeOf members)

/-- A text rebuilds what an object has under a key: so many lists, with instances inside. -/
structure Realm.Rebuilds (realm : Realm) (text key className : String) (layers : Nat) :
    Prop where
  /-- Lists in lists stay what they are, with an instance in place of each value inside. -/
  nested : ∀ (members : List (String × Value)) (v : Value) (made : Value → Value),
    Json.Member.get? key members = some v →
    Value.Nests (fun x => x.isNullish = false ∧ realm.make className x = some (made x)) layers v →
    realm.valueOf? members text = some (Value.mapLayers made layers v)
  /-- What is null is kept. -/
  nullish : ∀ (members : List (String × Value)) (v : Value),
    Json.Member.get? key members = some v → v.isNullish = true →
    realm.valueOf? members text = some v
  /-- What is missing is kept so. -/
  missing : ∀ members : List (String × Value), Json.Member.get? key members = none →
    realm.valueOf? members text = some .undefined

section Evaluating

variable {realm : Realm} {key : String} {slot : Slot} {className : String}

/-- An own member is what is found, whatever is inherited. -/
theorem Realm.property_of_get? {members : List (String × Value)} {v : Value}
    (h : Json.Member.get? key members = some v) : realm.property key members = v := by
  rw [Realm.property, h, Option.some_or, Option.getD_some]

/-- Without an own member it is what an empty object has. -/
theorem Realm.property_of_get?_eq_none {members : List (String × Value)}
    (h : Json.Member.get? key members = none) :
    realm.property key members = realm.property key [] := by
  rw [Realm.property, h]
  rfl

/-- What a written initializer evaluates to is what its expression does, if it is an
expression: the key must be one line. -/
theorem valueOf?_initializer
    (hclass : ∀ className, slot.innermost = .named className → IsBinding className)
    (members : List (String × Value)) :
    realm.valueOf? members (initializer key slot).text =
      if IsOneLine key.toList then (initializer key slot).eval realm (scopeOf members)
      else none := by
  rw [Realm.valueOf?, ofText?_initializer hclass]
  split <;> rfl

/-- **For a class inside lists** it is what is found under the key, if that is null or
undefined, and otherwise what is built of it. -/
theorem valueOf?_initializer_of_class (hslot : slot.innermost = .named className)
    (hclass : IsClassName className) (members : List (String × Value)) :
    realm.valueOf? members (initializer key slot).text =
      if IsOneLine key.toList then
        if (realm.property key members).isNullish then some (realm.property key members)
        else (realm.property key members).mapLayers? (realm.make className) slot.layers
      else none := by
  have hbinding : ∀ other, slot.innermost = .named other → IsBinding other := by
    intro other hother
    cases hslot.symm.trans hother
    exact hclass.toIsBinding
  rw [valueOf?_initializer hbinding, eval_initializer hslot hclass.toIsVisible]

/-- **Which keys constructors rebuild the members of**: those that are one line, so that
there is an expression at all, and that no plain object inherits anything under, so that
what is missing is undefined. -/
theorem rebuilds_initializer_iff (hslot : slot.innermost = .named className)
    (hclass : IsClassName className) (realm : Realm) :
    realm.Rebuilds (initializer key slot).text key className slot.layers ↔
      IsOneLine key.toList ∧ realm.property key [] = .undefined := by
  constructor
  · intro h
    -- an empty object misses every key
    have hmissing := h.missing [] rfl
    rw [valueOf?_initializer_of_class hslot hclass] at hmissing
    split at hmissing
    · next honeLine =>
      split at hmissing
      · exact ⟨honeLine, Option.some.inj hmissing⟩
      · exact absurd hmissing (realm.mapLayers?_make_ne_undefined className slot.layers _)
    · cases hmissing
  · rintro ⟨honeLine, hinherited⟩
    constructor
    · intro members v made hget hnests
      -- nested lists are not null, and neither is anything that instances are made of
      have hnotNull : v.isNullish = false :=
        Value.Nests.isNullish_eq_false (fun x hx => hx.1) hnests
      have hmade : v.mapLayers? (realm.make className) slot.layers =
          some (v.mapLayers made slot.layers) :=
        Value.mapLayers?_of_nests (hnests.mono fun x hx => hx.2)
      rw [valueOf?_initializer_of_class hslot hclass, if_pos honeLine,
        Realm.property_of_get? hget, hnotNull, if_neg Bool.false_ne_true, hmade]
    · intro members v hget hnull
      rw [valueOf?_initializer_of_class hslot hclass, if_pos honeLine,
        Realm.property_of_get? hget, if_pos hnull]
    · intro members hget
      rw [valueOf?_initializer_of_class hslot hclass, if_pos honeLine,
        Realm.property_of_get?_eq_none hget, hinherited]
      rfl

end Evaluating

/-! ## Constructors -/

/-- **Constructors rebuild every layer of lists, for keys that are one line and not
inherited.** An expression with instances is written exactly if the member stands for a
class inside its lists, and goes through each layer by a function of its own. Read back
from the field that is written, it evaluates to as many lists as it was given, with an
instance in place of each value inside, and what is null or missing is taken over as it is;
all this exactly if the key has no line break and plain objects have nothing under it. A
member without a class is taken over as it is found. The documented type has as many layers
as the member has lists, and all classes of a plan can be made instances by their names. -/
theorem constructors_rebuild_lists_iff (key : String) (slot : Slot) :
    ((construct? (.property parameterName key) 0 slot).isSome = true ↔
        ∃ className, slot.innermost = .named className) ∧
      (∀ className, slot.innermost = .named className →
        (∀ built, construct? (.property parameterName key) 0 slot = some built →
          built.Rebuilds (.property parameterName key) slot.layers className) ∧
        (IsClassName className → ∀ realm : Realm,
          realm.Rebuilds (initializer key slot).text key className slot.layers ↔
            IsOneLine key.toList ∧ realm.property key [] = .undefined)) ∧
      ((∀ className, slot.innermost ≠ .named className) →
        ∀ (realm : Realm) (members : List (String × Value)),
          realm.valueOf? members (initializer key slot).text =
            if IsOneLine key.toList then some (realm.property key members) else none) ∧
      renderField (key, slot) =
        "    /** @type \x7b" ++ typeExpr slot ++ "\x7d */\n" ++
        "    " ++ accessText "this" key ++ " = " ++ (initializer key slot).text ++ ";\n" ∧
      typeExpr slot = String.join (List.replicate slot.layers "Array<") ++
        typeExpr slot.innermost ++ String.join (List.replicate slot.layers ">") ∧
      ((∀ className, slot.innermost = .named className → IsClassName className) →
        '<' ∉ (typeExpr slot.innermost).toList) ∧
      ∀ {s : Shape} {rootName : String}, s.KeysDistinct →
        ∀ d ∈ (planFor .javaScript rootName s).types,
          renderClass d = "class " ++ d.name ++ " \x7b\n" ++
            "  /**\n   * @param \x7bObject\x7d " ++ parameterName ++ "\n   */\n" ++
            "  constructor(" ++ parameterName ++ ") \x7b\n" ++
            (if d.isEmpty then "    // no fields\n" else "") ++
            String.join (d.slots.map renderField) ++ "  \x7d\n\x7d" ∧
          ∀ member ∈ d.slots, ∀ className, member.2.innermost = .named className →
            IsClassName className := by
  refine ⟨isSome_construct? _ 0 slot, ?_, ?_, rfl, ?_, not_mem_typeExpr_innermost, ?_⟩
  · intro className hslot
    constructor
    · intro built hbuilt
      exact rebuilds_of_construct hslot rfl hbuilt
    · intro hclass realm
      exact rebuilds_initializer_iff hslot hclass realm
  · -- without a class there is nothing to build, and the value is the one under the key
    intro hslot realm members
    rw [valueOf?_initializer fun className hclass => absurd hclass (hslot className),
      eval_initializer_of_no_class hslot]
  · rw [typeExpr_eq_listType slot, listType_eq]
  · intro s rootName hs d hd
    refine ⟨rfl, ?_⟩
    intro member hmember className hclass
    exact isClassName_of_mem_types hs hd hmember hclass

/-- Rows of objects under one key. -/
def board : Shape := .object [("grid", .array (.array (.object [("x", .boolean)])))]

/-- Two layers of lists with objects inside. -/
def grid : List (String × Value) :=
  [("grid", .array [.array [.object [("x", .boolean true)], .object []], .array []])]

/-- Nothing throws, and all objects have two functions. -/
def willing : Realm where
  make className v := some (.instanceOf className v)
  inherited := [("constructor", .function "Object"), ("toString", .function "toString")]
  make_ne_undefined _ _ := nofun

/-- Each of the two layers is gone through, and nothing is left out; what is null or missing
is kept. -/
theorem constructors_rebuild_lists_iff_grid :
    let d := (planFor .javaScript "Board" board).root
    let text := (initializer "grid" (.list (.list (.named "GridItem")))).text
    board.KeysDistinct ∧ d ∈ (planFor .javaScript "Board" board).types ∧
      d.slots = [("grid", .list (.list (.named "GridItem")))] ∧ IsClassName "GridItem" ∧
      text = "data.grid == null ? data.grid : " ++
        "data.grid.map((item) => item.map((item1) => new GridItem(item1)))" ∧
      willing.valueOf? grid text =
        some (.array [.array [.instanceOf "GridItem" (.object [("x", .boolean true)]),
          .instanceOf "GridItem" (.object [])], .array []]) ∧
      willing.valueOf? [("grid", .null)] text = some .null ∧
      willing.valueOf? [] text = some .undefined := by
  intro d text
  have hdistinct : board.KeysDistinct := by decide
  have hroot : d ∈ (planFor .javaScript "Board" board).types :=
    List.mem_append_right _ List.mem_cons_self
  have hslots : d.slots = [("grid", .list (.list (.named "GridItem")))] := by decide +kernel
  obtain ⟨-, hnamed, -, -, -, -, hplan⟩ :=
    constructors_rebuild_lists_iff "grid" (.list (.list (.named "GridItem")))
  have hclass : IsClassName "GridItem" := (hplan hdistinct d hroot).2
    ("grid", .list (.list (.named "GridItem"))) (hslots ▸ List.mem_singleton_self _) "GridItem" rfl
  have hrebuilds : willing.Rebuilds text "grid" "GridItem" 2 :=
    ((hnamed "GridItem" rfl).2 hclass willing).mpr ⟨by decide, rfl⟩
  have hnests : Value.Nests (fun x => x.isNullish = false ∧
      willing.make "GridItem" x = some (.instanceOf "GridItem" x)) 2
      (.array [.array [.object [("x", .boolean true)], .object []], .array []]) := by
    refine .array fun row hrow => ?_
    rcases List.mem_pair.mp hrow with rfl | rfl
    · refine .array fun item hitem => ?_
      rcases List.mem_pair.mp hitem with rfl | rfl
      · exact .leaf ⟨rfl, rfl⟩
      · exact .leaf ⟨rfl, rfl⟩
    · exact .array fun item hitem => absurd hitem List.not_mem_nil
  exact ⟨hdistinct, hroot, hslots, hclass, by decide +kernel,
    hrebuilds.nested grid _ (.instanceOf "GridItem") rfl hnests,
    hrebuilds.nullish [("grid", .null)] .null rfl rfl, hrebuilds.missing [] rfl⟩

/-- A line feed in a key stands in the literal as it is, and the text is no expression; and
what is missing under a key that objects inherit a function under becomes an instance made
of that function. -/
theorem constructors_broken :
    let broken := (initializer "a\nb" (.named "AB")).text
    let called := (initializer "toString" (.named "ToString")).text
    broken = "data[\"a\nb\"] == null ? data[\"a\nb\"] : new AB(data[\"a\nb\"])" ∧
      Expr.ofText? broken.toList = none ∧ ¬ willing.Rebuilds broken "a\nb" "AB" 0 ∧
      called = "data.toString == null ? data.toString : new ToString(data.toString)" ∧
      willing.valueOf? [] called = some (.instanceOf "ToString" (.function "toString")) ∧
      ¬ willing.Rebuilds called "toString" "ToString" 0 := by
  intro broken called
  have hAB : IsClassName "AB" := isClassName_of_isDeclaredForm (by decide)
  have hToString : IsClassName "ToString" := isClassName_of_isDeclaredForm (by decide)
  have hnone : Expr.ofText? broken.toList = none := by decide +kernel
  have hvalue : willing.valueOf? [] called =
      some (.instanceOf "ToString" (.function "toString")) := by
    have hbinding : ∀ className, (Slot.named "ToString").innermost = .named className →
        IsBinding className := by
      rintro className hslot
      cases hslot
      exact hToString.toIsBinding
    rw [valueOf?_initializer hbinding]
    rfl
  refine ⟨by decide +kernel, hnone, ?_, by decide +kernel, hvalue, ?_⟩
  · intro h
    have hslot : (Slot.named "AB").innermost = .named "AB" := rfl
    have honeLine := ((rebuilds_initializer_iff hslot hAB willing).mp h).1
    exact absurd honeLine (by decide)
  · intro h
    cases hvalue.symm.trans (h.missing [] rfl)

end Shapewright.JavaScript
