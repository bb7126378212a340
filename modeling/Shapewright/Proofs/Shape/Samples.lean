import Shapewright.Proofs.Json.DistinctNames
import Shapewright.Proofs.Shape.Pruning
import Shapewright.Proofs.Shape.Structure

/-!
# Shapes that samples have

A sample leaves nothing unknown but the items of its empty lists. Every shape of which
that is true is the shape of a document, and of one that is no deeper than the shape
itself, so that the limit on the depth of samples is one on the depth of shapes.

Main definitions:

* `Shape.Known` — nothing is unknown but items of lists.
* `Shape.depth` — how many lists and objects are nested in one another.
* `Shape.sampleOf` — a document of a given shape.

Main results:

* `Json.Value.known_shape`, `Json.Value.depth_shape` — what all samples have in common.
* `Shape.shape_sampleOf` — a shape comes back from its document.
* `Shape.is_shape_of_sample_iff` — the shapes that inference can answer.
-/

namespace Shapewright

open Json (Value)

namespace Shape

/-! ## What is unknown, and how deep -/

mutual

/-- The shape is known, and so is all in it but perhaps the items of some lists. -/
def Known : Shape → Prop
  | .any => False
  | .array item => item = .any ∨ Known item
  | .object fields => MembersKnown fields
  | _ => True

/-- The shapes of all members are known. -/
def MembersKnown : Fields → Prop
  | [] => True
  | (_, s) :: rest => Known s ∧ MembersKnown rest

end

mutual

/-- How many lists and objects the longest chain has in which each is inside the one
before. -/
def depth : Shape → Nat
  | .array item => depth item + 1
  | .object fields => membersDepth fields + 1
  | _ => 0

def membersDepth : Fields → Nat
  | [] => 0
  | (_, s) :: rest => max (depth s) (membersDepth rest)

end

/-! ## Documents for shapes -/

/-- One half, the plainest number that has a fraction. -/
def half : Binary64 := ⟨false, Nat.pow 2 52, -53⟩

/-- Whether nothing is known. -/
def isAny : Shape → Bool
  | .any => true
  | _ => false

mutual

/-- A document of the shape. Of an unknown shape there is none but as an item, where the
list stays empty. -/
def sampleOf : Shape → Value
  | .null => .null
  | .string => .string ""
  | .integer => .number (.integer 0)
  | .number => .number (.real half)
  | .boolean => .boolean true
  | .any => .null
  | .array item => .array (if item.isAny then [] else [sampleOf item])
  | .object fields => .object (sampleMembers fields)

def sampleMembers : Fields → List (String × Value)
  | [] => []
  | (name, s) :: rest => (name, sampleOf s) :: sampleMembers rest

end

/-- The test for the unknown shape is no more than that. -/
theorem isAny_iff {s : Shape} : s.isAny = true ↔ s = .any := by
  cases s <;> simp [isAny]

/-- The sample of an object has its keys, in their order. -/
theorem names_sampleMembers (fields : Fields) :
    Json.Member.names (sampleMembers fields) = fields.map Prod.fst := by
  induction fields with
  | nil => rfl
  | cons field rest ih =>
    rw [sampleMembers, Json.Member.names, List.map_cons, List.map_cons, ← ih]
    rfl

mutual

/-- A known shape comes back from its document: every kind has a value of its own, and what is
unknown stands for the items of an empty list. -/
theorem shape_sampleOf : ∀ s : Shape, s.Known → (sampleOf s).shape = s
  | .null, _ | .string, _ | .integer, _ | .boolean, _ => rfl
  | .number, _ => by
    have hhalf : half.isIntegral = false := by decide +kernel
    rw [sampleOf, Value.shape, Json.Number.isIntegral, hhalf]
    rfl
  | .any, h => h.elim
  | .array item, h => by
    rw [sampleOf, Value.shape]
    -- unknown items are those of an empty list, and any others those of a list with one item
    by_cases hany : item.isAny = true
    · rw [if_pos hany, isAny_iff.mp hany]
      rfl
    · have hitem : item.Known := h.resolve_left fun heq => hany (isAny_iff.mpr heq)
      rw [if_neg hany, Value.firstShape, shape_sampleOf item hitem]
  | .object fields, h => by
    rw [sampleOf, Value.shape, memberShapes_sampleMembers fields h]

/-- The members of a sample have the shapes they were made for. -/
theorem memberShapes_sampleMembers : ∀ fields : Fields, MembersKnown fields →
    Value.memberShapes (sampleMembers fields) = fields
  | [], _ => rfl
  | (name, s) :: rest, h => by
    rw [sampleMembers, Value.memberShapes, shape_sampleOf s h.1,
      memberShapes_sampleMembers rest h.2]

end

mutual

/-- A sample repeats no name in an object, as long as the shape repeats none. The items of a
list that is sampled by none have no say. -/
theorem namesDistinct_sampleOf : ∀ s : Shape, s.KeysDistinct → (sampleOf s).NamesDistinct
  | .null, _ | .string, _ | .integer, _ | .number, _ | .boolean, _ | .any, _ => trivial
  | .array item, h => by
    rw [sampleOf, Value.NamesDistinct]
    split
    · trivial
    · exact ⟨namesDistinct_sampleOf item h, trivial⟩
  | .object fields, h => by
    rw [sampleOf, Value.NamesDistinct, names_sampleMembers]
    exact ⟨h.1, membersDistinct_sampleMembers fields h.2⟩

/-- The sample of each member repeats no name in any of its objects. -/
theorem membersDistinct_sampleMembers : ∀ fields : Fields, MembersDistinct fields →
    Value.MembersDistinct (sampleMembers fields)
  | [], _ => trivial
  | (_, s) :: rest, h => ⟨namesDistinct_sampleOf s h.1, membersDistinct_sampleMembers rest h.2⟩

end

end Shape

/-! ## Shapes of documents -/

namespace Json.Value

mutual

/-- The only values without a known shape are the items that an empty list lacks. -/
theorem known_shape : ∀ v : Value, v.shape.Known
  | .null | .boolean _ | .string _ => trivial
  | .number n => by
    rw [shape]
    split <;> trivial
  | .array items => firstShape_known items
  | .object members => membersKnown_memberShapes members

/-- A list has the shape of its first item, and an empty one has none that is known. -/
theorem firstShape_known : ∀ items : List Value,
    firstShape items = .any ∨ (firstShape items).Known
  | [] => Or.inl rfl
  | v :: _ => Or.inr (known_shape v)

/-- Each member has a value, so that no member is unknown. -/
theorem membersKnown_memberShapes : ∀ members : List (String × Value),
    Shape.MembersKnown (memberShapes members)
  | [] => trivial
  | (_, v) :: rest => ⟨known_shape v, membersKnown_memberShapes rest⟩

end

mutual

/-- Keys are not repeated in a shape if names are not repeated in the document. -/
theorem keysDistinct_shape : ∀ v : Value, v.NamesDistinct → v.shape.KeysDistinct
  | .null, _ | .boolean _, _ | .string _, _ => trivial
  | .number n, _ => by
    rw [shape]
    split <;> trivial
  | .array items, h => keysDistinct_firstShape items h
  | .object members, h => by
    have hnames : (memberShapes members).map Prod.fst = Member.names members := by
      rw [memberShapes_eq_map, List.map_map, Member.names]
      rfl
    rw [shape, Shape.KeysDistinct, hnames]
    exact ⟨h.1, membersDistinct_memberShapes members h.2⟩

/-- Of a list only the first item counts, of an object all members do. -/
theorem keysDistinct_firstShape : ∀ items : List Value, ItemsDistinct items →
    (firstShape items).KeysDistinct
  | [], _ => trivial
  | v :: _, h => keysDistinct_shape v h.1

theorem membersDistinct_memberShapes : ∀ members : List (String × Value),
    MembersDistinct members → Shape.MembersDistinct (memberShapes members)
  | [], _ => trivial
  | (_, v) :: rest, h => ⟨keysDistinct_shape v h.1, membersDistinct_memberShapes rest h.2⟩

end

mutual

/-- A shape is as deep as the part of the document that is looked at. -/
theorem depth_shape : ∀ v : Value, v.shape.depth = v.pruned.depth
  | .null | .boolean _ | .string _ => rfl
  | .number n => by
    rw [shape]
    split <;> rfl
  | .array items => by
    rw [shape, pruned, Shape.depth, depth, depth_firstShape items]
  | .object members => by
    rw [shape, pruned, Shape.depth, depth, membersDepth_memberShapes members]

/-- One item is looked at, and it stands one level below its list. -/
theorem depth_firstShape : ∀ items : List Value,
    (firstShape items).depth = itemsDepth (prunedFirst items)
  | [] => rfl
  | v :: _ => by
    rw [firstShape, prunedFirst, itemsDepth, itemsDepth, Nat.max_zero, depth_shape v]

/-- An object is as deep as its deepest member, in the document and in the shape. -/
theorem membersDepth_memberShapes : ∀ members : List (String × Value),
    Shape.membersDepth (memberShapes members) = membersDepth (prunedMembers members)
  | [] => rfl
  | (_, v) :: rest => by
    rw [memberShapes, prunedMembers, Shape.membersDepth, membersDepth, depth_shape v,
      membersDepth_memberShapes rest]

end

end Json.Value

/-! ## Which shapes there are -/

/-- **The shapes that inference can answer.** A shape is the answer for some document if
and only if the members of every object in it have different names, nothing in it is
unknown but items of lists, and no more than 64 lists and objects are nested in one
another. -/
theorem Shape.is_shape_of_sample_iff (s : Shape) :
    (∃ v : Value, v.NamesDistinct ∧ inferShape v = .ok s) ↔
      s.KeysDistinct ∧ s.Known ∧ s.depth ≤ 64 := by
  constructor
  · rintro ⟨v, hv, h⟩
    rw [inferShape_eq] at h
    split at h
    · next hdepth =>
      cases h
      rw [Json.Value.depth_shape]
      exact ⟨v.keysDistinct_shape hv, v.known_shape, hdepth⟩
    · cases h
  · rintro ⟨hdistinct, hknown, hdepth⟩
    -- the other way round, a sample is made for the shape
    have hshape : s.sampleOf.shape = s := shape_sampleOf s hknown
    have hshallow : s.sampleOf.pruned.depth ≤ 64 := by
      rw [← Json.Value.depth_shape, hshape]
      exact hdepth
    refine ⟨s.sampleOf, namesDistinct_sampleOf s hdistinct, ?_⟩
    rw [inferShape_eq, if_pos hshallow, hshape]

/-- An object counts as much as the lists around it. -/
example : (Shape.inLists 63 (.object [("a", .boolean)])).depth ≤ 64 ∧
    ¬ (Shape.inLists 64 (.object [("a", .boolean)])).depth ≤ 64 := by decide

end Shapewright
