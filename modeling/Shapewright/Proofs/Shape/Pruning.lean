import Shapewright.Generate

/-!
# The part of a document that is sampled

A list is judged by its first item, so nothing of a document counts but what
remains when every list in it is cut there. How deep that part is decides whether
the document has a shape at all; which shape it is does not depend on the depth.

Main definitions:

* `Json.Value.pruned` — the document with every list cut to its first item.
* `Json.Value.depth` — how many lists and objects are nested in one another.
* `Json.Value.shape` — the shape of a document of any depth.

Main results:

* `sampleWithin?_eq` — what sampling yields, in these terms.
* `inferShape_eq_pruned_and_isOk_iff_depth` — the part that is cut off has no
  influence, and only depth leaves a document without a shape.
-/

namespace Shapewright

namespace Json.Value

/-! ## What is looked at -/

mutual

/-- The value with every list in it cut to its first item. -/
def pruned : Value → Value
  | .array items => .array (prunedFirst items)
  | .object members => .object (prunedMembers members)
  | v => v

/-- The first item alone, itself pruned, if there is one. -/
def prunedFirst : List Value → List Value
  | [] => []
  | v :: _ => [pruned v]

def prunedMembers : List (String × Value) → List (String × Value)
  | [] => []
  | (name, v) :: rest => (name, pruned v) :: prunedMembers rest

end

mutual

/-- How many lists and objects the longest chain has in which each is inside the
one before; an empty one ends a chain as any other does. -/
def depth : Value → Nat
  | .array items => itemsDepth items + 1
  | .object members => membersDepth members + 1
  | _ => 0

def itemsDepth : List Value → Nat
  | [] => 0
  | v :: rest => max (depth v) (itemsDepth rest)

def membersDepth : List (String × Value) → Nat
  | [] => 0
  | (_, v) :: rest => max (depth v) (membersDepth rest)

end

mutual

/-- The shape of a value, however deep it is. -/
def shape : Value → Shape
  | .null => .null
  | .boolean _ => .boolean
  | .number n => if n.isIntegral then .integer else .number
  | .string _ => .string
  | .array items => .array (firstShape items)
  | .object members => .object (memberShapes members)

def firstShape : List Value → Shape
  | [] => .any
  | v :: _ => shape v

def memberShapes : List (String × Value) → Fields
  | [] => []
  | (name, v) :: rest => (name, shape v) :: memberShapes rest

end

/-- No member is cut off, and each keeps its name and its place. -/
theorem prunedMembers_eq_map (members : List (String × Value)) :
    prunedMembers members = members.map fun m => (m.1, m.2.pruned) := by
  induction members with
  | nil => rfl
  | cons m rest ih => rw [prunedMembers, ih, List.map_cons]

/-- The shapes of members are those of their values, one by one. -/
theorem memberShapes_eq_map (members : List (String × Value)) :
    memberShapes members = members.map fun m => (m.1, m.2.shape) := by
  induction members with
  | nil => rfl
  | cons m rest ih => rw [memberShapes, ih, List.map_cons]

/-! ## What is cut off -/

mutual

/-- Cutting lists to their first items once is enough: there is nothing left to cut off. -/
theorem pruned_pruned : ∀ v : Value, v.pruned.pruned = v.pruned
  | .null | .boolean _ | .number _ | .string _ => rfl
  | .array items => by rw [pruned, pruned, prunedFirst_prunedFirst items]
  | .object members => by rw [pruned, pruned, prunedMembers_prunedMembers members]

/-- What is left of a list has one item at most, so cutting again finds nothing to cut. -/
theorem prunedFirst_prunedFirst : ∀ items : List Value,
    prunedFirst (prunedFirst items) = prunedFirst items
  | [] => rfl
  | v :: _ => by rw [prunedFirst, prunedFirst, pruned_pruned v]

/-- The same for the members of an object. -/
theorem prunedMembers_prunedMembers : ∀ members : List (String × Value),
    prunedMembers (prunedMembers members) = prunedMembers members
  | [] => rfl
  | (name, v) :: rest => by
    rw [prunedMembers, prunedMembers, pruned_pruned v, prunedMembers_prunedMembers rest]

end

mutual

/-- What is cut off does not show in the shape. -/
theorem shape_pruned : ∀ v : Value, v.pruned.shape = v.shape
  | .null | .boolean _ | .number _ | .string _ => rfl
  | .array items => by rw [pruned, shape, shape, firstShape_prunedFirst items]
  | .object members => by rw [pruned, shape, shape, memberShapes_prunedMembers members]

/-- The shape of a list is that of its first item, which is kept. -/
theorem firstShape_prunedFirst : ∀ items : List Value,
    firstShape (prunedFirst items) = firstShape items
  | [] => rfl
  | v :: _ => shape_pruned v

/-- All members are kept, each with its shape. -/
theorem memberShapes_prunedMembers : ∀ members : List (String × Value),
    memberShapes (prunedMembers members) = memberShapes members
  | [] => rfl
  | (name, v) :: rest => by
    rw [prunedMembers, memberShapes, memberShapes, shape_pruned v,
      memberShapes_prunedMembers rest]

end

end Json.Value

/-! ## What sampling yields -/

namespace Shape

open Json (Value)
open Json.Value

mutual

/-- With room for as many containers as are nested in the part that is looked at,
and not with less, there is a shape. -/
theorem sampleWithin?_eq (room : Nat) : ∀ v : Value,
    sampleWithin? room v = if v.pruned.depth ≤ room then some v.shape else none
  | .null | .boolean _ | .number _ | .string _ => by
    simp [sampleWithin?, pruned, depth, shape]
  -- a container needs room for itself and leaves the rest to what is in it
  | .array items => by
    cases room with
    | zero => simp [sampleWithin?, pruned, depth]
    | succ room =>
      rw [sampleWithin?, sampleFirst?_eq room items, pruned, depth, shape]
      simp only [Nat.add_le_add_iff_right, apply_ite (Option.map Shape.array), Option.map_some,
        Option.map_none]
  | .object members => by
    cases room with
    | zero => simp [sampleWithin?, pruned, depth]
    | succ room =>
      rw [sampleWithin?, sampleMembers?_eq room members, pruned, depth, shape]
      simp only [Nat.add_le_add_iff_right, apply_ite (Option.map Shape.object), Option.map_some,
        Option.map_none]

/-- Only the first item takes up room, and a list without items takes up none. -/
theorem sampleFirst?_eq (room : Nat) : ∀ items : List Value,
    sampleFirst? room items =
      if itemsDepth (prunedFirst items) ≤ room then some (firstShape items) else none
  | [] => by simp [sampleFirst?, prunedFirst, itemsDepth, firstShape]
  | v :: _ => by
    rw [sampleFirst?, sampleWithin?_eq room v, prunedFirst, itemsDepth, itemsDepth, Nat.max_zero,
      firstShape]

/-- All members must find room, each by itself: there is as much for the last as for the
first. -/
theorem sampleMembers?_eq (room : Nat) : ∀ members : List (String × Value),
    sampleMembers? room members =
      if membersDepth (prunedMembers members) ≤ room then some (memberShapes members) else none
  | [] => by simp [sampleMembers?, prunedMembers, membersDepth, memberShapes]
  | (name, v) :: rest => by
    rw [sampleMembers?, sampleWithin?_eq room v, sampleMembers?_eq room rest, prunedMembers,
      membersDepth, memberShapes]
    -- there must be room for the first member and for all others
    simp only [Nat.max_le]
    by_cases hfirst : v.pruned.depth ≤ room
    · by_cases hrest : membersDepth (prunedMembers rest) ≤ room
      · simp [hfirst, hrest]
      · simp [hfirst, hrest]
    · simp [hfirst]

end

end Shape

open Shape

/-- The shape of a document as a function of the document: there is one exactly if no more
than 64 containers are nested in the part that is looked at. -/
theorem inferShape_eq (v : Json.Value) :
    inferShape v = if v.pruned.depth ≤ 64 then .ok v.shape else .error .tooDeep := by
  have hsample : sample? v = if v.pruned.depth ≤ 64 then some v.shape else none :=
    sampleWithin?_eq maxDepth v
  rw [inferShape, hsample]
  by_cases hdepth : v.pruned.depth ≤ 64
  · rw [if_pos hdepth, if_pos hdepth]
  · rw [if_neg hdepth, if_neg hdepth]

/-- **Inference looks at first items alone, and fails on depth alone.** A document
has the shape, or the failure, of what remains when its lists are cut to their
first items. It has a shape if no more than 64 lists and objects are nested in
one another there, and is too deep otherwise. -/
theorem inferShape_eq_pruned_and_isOk_iff_depth (v : Json.Value) :
    inferShape v = inferShape v.pruned ∧
      ((∃ s, inferShape v = .ok s) ↔ v.pruned.depth ≤ 64) ∧
      (inferShape v = .error .tooDeep ↔ 64 < v.pruned.depth) := by
  have hpruned : inferShape v = inferShape v.pruned := by
    rw [inferShape_eq, inferShape_eq, Json.Value.pruned_pruned, Json.Value.shape_pruned]
  by_cases hdepth : v.pruned.depth ≤ 64
  · have hok : inferShape v = .ok v.shape := by rw [inferShape_eq, if_pos hdepth]
    refine ⟨hpruned, ⟨fun _ => hdepth, fun _ => ⟨_, hok⟩⟩, ?_⟩
    rw [hok]
    exact ⟨nofun, fun h => absurd hdepth (Nat.not_le.mpr h)⟩
  · have herror : inferShape v = .error .tooDeep := by rw [inferShape_eq, if_neg hdepth]
    refine ⟨hpruned, ?_, ⟨fun _ => Nat.not_le.mp hdepth, fun _ => herror⟩⟩
    rw [herror]
    exact ⟨nofun, fun h => absurd h hdepth⟩

/-- An item that is not looked at may be as deep as it likes. -/
example : inferShape (.array [.null, Nat.repeat (fun v => .array [v]) 100 .null]) =
    .ok (.array .null) := rfl

end Shapewright
