import Shapewright.Generate
import Shapewright.Proofs.TypeScript.Reading

/-!
# From TypeScript output back to the shape

The pieces of the output are gone through from the last to the first, with the members
of the interface around them at hand. What comes out is the table of the plan and the
number of lists around its root, as far as pieces tell integers from other numbers,
which they do not once they have been read from a text.

Main definitions:

* `readPieces` — the table of types in some pieces, and the lists of their alias.

Main results:

* `readPieces_planPieces` — the pieces of a plan say what its table says.
* `readPieces_widen` — widened pieces say it up to widening.
* `output_determines_schema_up_to_widening` — plans with one output stand for the same
  object but for integers, in the same number of lists, and declare the same names.
-/

namespace Shapewright

namespace Slot

/-- Widening leaves the lists around a slot, and lists leave the type that it refers to. -/
theorem layers_widen (slot : Slot) : slot.widen.layers = slot.layers := by
  induction slot with
  | list item ih => rw [widen, layers, ih, layers]
  | _ => rfl

theorem target?_inLists (n : Nat) (slot : Slot) : (inLists n slot).target? = slot.target? := by
  induction n with
  | zero => rfl
  | succ n ih => rw [inLists, target?, ih]

end Slot

namespace TypeScript

open Text Name Plan

/-! ## The table of types -/

/-- What has been read from the pieces behind: the members of the interface that is
still open, the types that are complete, and the lists of the alias. -/
structure Reading where
  members : List (String × Slot)
  types : Table
  layers : Nat

namespace Reading

/-- Go on with the piece in front. -/
def step (piece : Piece) (r : Reading) : Reading :=
  match piece with
  | .closing => { r with members := [] }
  | .member key slot => { r with members := (key, slot) :: r.members }
  | .opening name => { r with members := [], types := (name, r.members) :: r.types }
  | .listAlias _ slot => { r with layers := slot.layers }
  | _ => r

def widen (r : Reading) : Reading :=
  { members := widenMembers r.members, types := r.types.widen, layers := r.layers }

end Reading

def readPieces (pieces : List Piece) (r : Reading) : Reading := pieces.foldr Reading.step r

/-- Pieces are read from the last one on. -/
theorem readPieces_append (xs ys : List Piece) (r : Reading) :
    readPieces (xs ++ ys) r = readPieces xs (readPieces ys r) := List.foldr_append

/-- Members wait until what opens their interface is read. -/
theorem readPieces_members (members : List (String × Slot)) (r : Reading) :
    readPieces (members.map fun member => .member member.1 member.2) r =
      { r with members := members ++ r.members } := by
  induction members with
  | nil => rfl
  | cons member rest ih =>
    rw [List.map_cons, readPieces, List.foldr_cons, ← readPieces, ih]
    rfl

/-- What is said by the blocks of a plan. -/
def Block.reading (block : Block) (r : Reading) : Reading :=
  match block with
  | .interface d => { r with members := [], types := (d.name, d.slots) :: r.types }
  | .listAlias _ layers => { r with layers }

/-- A block of pieces is read as the block, in front of whatever has been read behind it. -/
theorem readPieces_block (block : Block) (r : Reading) :
    readPieces block.pieces r = block.reading r := by
  cases block with
  | interface d =>
    have hindex : ∀ r, readPieces (if d.isEmpty then [.index] else []) r = r := by
      intro r
      split <;> rfl
    have hclosing : readPieces [.closing] r = { r with members := [] } := rfl
    rw [Block.pieces, readPieces_append, readPieces_append, readPieces_append, hclosing,
      readPieces_members, hindex, List.append_nil]
    rfl
  | listAlias root layers =>
    show { r with layers := (Slot.inLists layers (.named root)).layers } = _
    rw [Slot.layers_inLists_named]
    rfl

/-- Blocks are read one by one, from the last one on. -/
theorem readPieces_blocksPieces (blocks : List Block) (r : Reading) :
    readPieces (blocksPieces blocks) r = blocks.foldr Block.reading r := by
  induction blocks using blocksPieces.induct with
  | case1 => rfl
  | case2 block =>
    rw [blocksPieces, readPieces_block]
    rfl
  | case3 block next more ih =>
    rw [blocksPieces, readPieces_append, readPieces_block, List.foldr_cons, ← ih]
    rfl

/-- Interfaces alone leave no members over, and the count of lists as it was. -/
theorem foldr_interface (types : List Declaration) (layers : Nat) :
    (types.map Block.interface).foldr Block.reading ⟨[], [], layers⟩ =
      ⟨[], types.map fun d => (d.name, d.slots), layers⟩ := by
  induction types with
  | nil => rfl
  | cons d rest ih =>
    rw [List.map_cons, List.foldr_cons, ih]
    rfl

/-- The pieces of a plan say what its table says, and how many lists there are. -/
theorem readPieces_planPieces (p : Plan) :
    readPieces (planPieces p) ⟨[], [], 0⟩ = ⟨[], p.table, p.rootLayers⟩ := by
  have halias : (if p.rootLayers = 0 then [] else [Block.listAlias p.root.name p.rootLayers]).foldr
      Block.reading ⟨[], [], 0⟩ = ⟨[], [], p.rootLayers⟩ := by
    split
    · next hnone =>
      rw [hnone]
      rfl
    · rfl
  -- the alias is the last block, so it is read first
  rw [planPieces, readPieces_blocksPieces, blocks, List.foldr_append, halias, foldr_interface,
    table]

/-! ## Widened pieces -/

/-- It does not matter whether pieces are widened before they are read or afterwards. -/
theorem step_widen (piece : Piece) (r : Reading) :
    Reading.step piece.widen r.widen = (Reading.step piece r).widen := by
  cases piece with
  | listAlias name slot =>
    show ({ r.widen with layers := slot.widen.layers } : Reading) = _
    rw [Slot.layers_widen]
    rfl
  | _ => rfl

/-- Widened pieces say what the pieces say, widened. -/
theorem readPieces_widen (pieces : List Piece) (r : Reading) :
    readPieces (pieces.map Piece.widen) r.widen = (readPieces pieces r).widen := by
  induction pieces with
  | nil => rfl
  | cons piece rest ih =>
    rw [List.map_cons, readPieces, List.foldr_cons, ← readPieces, ih, step_widen]
    rfl

/-! ## The names in the pieces -/

/-- The names in a block are such as a plan has. -/
def Block.Sound : Block → Prop
  | .interface d => IsDeclarable reserved d.name ∧
      ∀ member ∈ d.slots, ∀ name, member.2.target? = some name → IsDeclarable reserved name
  | .listAlias root _ => IsDeclarable reserved root

/-- The names in the pieces of a sound block are such as a plan has, and so it is for all
pieces of a text. -/
theorem Block.Sound.pieces {block : Block} (h : block.Sound) :
    ∀ piece ∈ block.pieces, piece.Sound := by
  intro piece hpiece
  cases block with
  | interface d =>
    simp only [Block.pieces, List.mem_append, List.mem_singleton, List.mem_map] at hpiece
    -- the head, the line of an empty interface, the members, and the brace
    rcases hpiece with ((rfl | hindex) | ⟨member, hmember, rfl⟩) | rfl
    · exact h.1.not_mem (by decide)
    · split at hindex
      · rw [List.mem_singleton.mp hindex]
        trivial
      · exact absurd hindex List.not_mem_nil
    · exact h.2 member hmember
    · trivial
  | listAlias root layers =>
    rw [List.mem_singleton.mp hpiece]
    constructor
    · -- the name of the alias is that of the root and a suffix
      rw [aliasName, String.toList_append, List.mem_append, not_or]
      exact ⟨h.not_mem (by decide), by decide⟩
    · intro name hname
      rw [Slot.target?_inLists] at hname
      exact Option.some.inj hname ▸ h

theorem sound_of_mem_blocksPieces {blocks : List Block} (h : ∀ block ∈ blocks, block.Sound) :
    ∀ piece ∈ blocksPieces blocks, piece.Sound := by
  induction blocks using blocksPieces.induct with
  | case1 => exact fun piece hpiece => absurd hpiece List.not_mem_nil
  | case2 block => exact (h block List.mem_cons_self).pieces
  | case3 block next more ih =>
    intro piece hpiece
    rw [blocksPieces, List.mem_append, List.mem_cons] at hpiece
    rcases hpiece with hpiece | rfl | hpiece
    · exact (h block List.mem_cons_self).pieces piece hpiece
    · trivial
    · exact ih (fun other hother => h other (List.mem_cons_of_mem block hother)) piece hpiece

/-- The plan of a shape declares and refers to sound names alone, so that all of its pieces
can be read back. -/
theorem sound_of_mem_planPieces {s : Shape} (hs : s.KeysDistinct) (rootName : String) :
    ∀ piece ∈ planPieces (planFor .typeScript rootName s), piece.Sound := by
  have hr : reserved.Escapable := Reserved.Admitted.escapable (Or.inr ⟨.typeScript, rfl⟩)
  apply sound_of_mem_blocksPieces
  intro block hblock
  rw [blocks, List.mem_append, List.mem_map] at hblock
  rcases hblock with ⟨d, hd, rfl⟩ | halias
  · exact isDeclarable_of_mem_types hr hs d hd
  · split at halias
    · exact absurd halias List.not_mem_nil
    · rw [List.mem_singleton.mp halias]
      have hroot : (planFor .typeScript rootName s).root ∈ (planFor .typeScript rootName s).types :=
        List.mem_append_right _ (List.mem_singleton_self _)
      exact (isDeclarable_of_mem_types hr hs _ hroot).1

/-! ## Output -/

/-- Without options there is output, and it is the pieces of the plan. -/
theorem emit_null (s : Shape) (rootName : String) :
    emit .typeScript s rootName .null =
      .ok (.single (textOf (planPieces (planFor .typeScript rootName s))) .typeScript) := by
  rw [← content_eq]
  rfl

/-- The output determines the table and the lists around the root, up to widening: both are
read from its text. -/
theorem reading_eq_of_emit_eq {s₁ s₂ : Shape} (h₁ : s₁.KeysDistinct) (h₂ : s₂.KeysDistinct)
    {rootName₁ rootName₂ : String}
    (h : emit .typeScript s₁ rootName₁ .null = emit .typeScript s₂ rootName₂ .null) :
    (planFor .typeScript rootName₁ s₁).table.widen =
        (planFor .typeScript rootName₂ s₂).table.widen ∧
      (planFor .typeScript rootName₁ s₁).rootLayers =
        (planFor .typeScript rootName₂ s₂).rootLayers := by
  rw [emit_null, emit_null] at h
  obtain ⟨htext, -⟩ := Rendered.single.inj (Except.ok.inj h)
  -- the text has these pieces, and the pieces say this
  have hpieces := widen_eq_of_textOf_eq (sound_of_mem_planPieces h₁ rootName₁)
    (sound_of_mem_planPieces h₂ rootName₂) (congrArg String.toList htext)
  have hreading := readPieces_widen (planPieces (planFor .typeScript rootName₁ s₁)) ⟨[], [], 0⟩
  rw [hpieces, readPieces_widen, readPieces_planPieces, readPieces_planPieces] at hreading
  obtain ⟨-, htable, hlayers⟩ := Reading.mk.inj hreading
  exact ⟨htable.symm, hlayers.symm⟩

/-- **The output determines the shape but for integers.** Where two shapes have the
same output, whatever their roots are called, they have the same object inside all
lists once integers are taken for numbers, with the same keys in the same order and
the same kinds at every depth; there are as many lists around the one as around the
other, as plans count them; and their types have the same names in the same order. -/
theorem output_determines_schema_up_to_widening {s₁ s₂ : Shape} (h₁ : s₁.KeysDistinct)
    (h₂ : s₂.KeysDistinct) (rootName₁ rootName₂ : String)
    (h : emit .typeScript s₁ rootName₁ .null = emit .typeScript s₂ rootName₂ .null) :
    Shape.widenFields (rootFields s₁) = Shape.widenFields (rootFields s₂) ∧
      (planFor .typeScript rootName₁ s₁).rootLayers =
        (planFor .typeScript rootName₂ s₂).rootLayers ∧
      (planFor .typeScript rootName₁ s₁).types.map Declaration.name =
        (planFor .typeScript rootName₂ s₂).types.map Declaration.name := by
  have hr : reserved.Escapable := Reserved.Admitted.escapable (Or.inr ⟨.typeScript, rfl⟩)
  obtain ⟨htable, hlayers⟩ := reading_eq_of_emit_eq h₁ h₂ h
  refine ⟨widenFields_rootFields_eq hr h₁ h₂ htable, hlayers, ?_⟩
  have hnames := congrArg (List.map Prod.fst) htable
  rw [Table.names_widen, Table.names_widen, table, table, List.map_map, List.map_map] at hnames
  exact hnames

/-- An object in two lists, of numbers of the given kind, with a whole interface in a
key, a key in need of marks, and an object without members. -/
def measurements (kind : Shape) : Shape :=
  .array (.array (.object [("a: null;\n\x7d\n\ninterface B \x7b\n", kind),
    ("\"\\", .array kind), ("$rest", .object [])]))

/-- Integers leave no trace that other numbers do not, nor does the spelling of the name. -/
theorem output_determines_schema_up_to_widening_measurements :
    emit .typeScript (measurements .integer) "data point" .null =
        emit .typeScript (measurements .number) "DataPoint" .null ∧
      Shape.widenFields (rootFields (measurements .integer)) =
        Shape.widenFields (rootFields (measurements .number)) ∧
      (planFor .typeScript "data point" (measurements .integer)).rootLayers =
        (planFor .typeScript "DataPoint" (measurements .number)).rootLayers ∧
      (planFor .typeScript "data point" (measurements .integer)).types.map Declaration.name =
        (planFor .typeScript "DataPoint" (measurements .number)).types.map Declaration.name := by
  have h : emit .typeScript (measurements .integer) "data point" .null =
      emit .typeScript (measurements .number) "DataPoint" .null := by
    have htexts : (planPieces (planFor .typeScript "data point" (measurements .integer))).map
        Piece.text = (planPieces (planFor .typeScript "DataPoint" (measurements .number))).map
          Piece.text := by decide +kernel
    rw [emit_null, emit_null, textOf, textOf, htexts]
  exact ⟨h, output_determines_schema_up_to_widening (by decide) (by decide) _ _ h⟩

end TypeScript
end Shapewright
