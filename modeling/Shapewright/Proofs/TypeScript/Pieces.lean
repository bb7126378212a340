import Shapewright.Dialect.TypeScript
import Shapewright.Proofs.Text.Lines

/-!
# TypeScript interfaces by pieces

The text of a plan is put together from pieces of few kinds. Most of them are lines,
but not all: a key is written as it is, between quotes if need be, and a line feed in
it ends a line inside a piece.

Main definitions:

* `Piece`, with `Piece.text`.
* `Block` — an interface, or the alias for the list type of the root.
* `planPieces` — the pieces of a plan.

Main result: `content_eq` — the rendered text is the texts of these pieces.
-/

namespace Shapewright

namespace Slot

/-- `n` lists of what a slot refers to. -/
def inLists : Nat → Slot → Slot
  | 0, slot => slot
  | n + 1, slot => .list (inLists n slot)

/-- How many lists a slot is. -/
def layers : Slot → Nat
  | .list item => item.layers + 1
  | _ => 0

/-- A name in lists has as many layers as there are lists. -/
theorem layers_inLists_named (n : Nat) (name : String) :
    (inLists n (.named name)).layers = n := by
  induction n with
  | zero => rfl
  | succ n ih => rw [inLists, layers, ih]

end Slot

namespace TypeScript

open Text

/-- A piece of output. -/
inductive Piece where
  | opening (name : String)
  /-- The index signature in an interface without members. -/
  | index
  | member (key : String) (slot : Slot)
  | closing
  | blank
  | listAlias (name : String) (slot : Slot)
  deriving Repr, DecidableEq

def Piece.text : Piece → String
  | .opening name => "interface " ++ name ++ " \x7b\n"
  | .index => "  [key: string]: unknown;\n"
  | .member key slot => "  " ++ propertyKey key ++ ": " ++ typeExpr slot ++ ";\n"
  | .closing => "\x7d\n"
  | .blank => "\n"
  | .listAlias name slot => "type " ++ name ++ " = " ++ typeExpr slot ++ ";\n"

/-- The texts of the pieces that hold a name, a key or a type. -/
theorem text_opening (name : String) :
    (Piece.opening name).text = "interface " ++ name ++ " \x7b\n" := rfl

theorem text_member (key : String) (slot : Slot) :
    (Piece.member key slot).text = "  " ++ propertyKey key ++ ": " ++ typeExpr slot ++ ";\n" := rfl

theorem text_listAlias (name : String) (slot : Slot) :
    (Piece.listAlias name slot).text = "type " ++ name ++ " = " ++ typeExpr slot ++ ";\n" := rfl

def textOf (pieces : List Piece) : String := String.join (pieces.map Piece.text)

theorem textOf_cons (piece : Piece) (pieces : List Piece) :
    textOf (piece :: pieces) = piece.text ++ textOf pieces := by
  rw [textOf, List.map_cons, String.join_cons, textOf]

theorem textOf_singleton (piece : Piece) : textOf [piece] = piece.text := by
  rw [textOf, List.map_singleton, String.join_cons, String.join_nil, String.append_empty]

/-- Pieces may be put together in two portions. -/
theorem textOf_append (xs ys : List Piece) : textOf (xs ++ ys) = textOf xs ++ textOf ys := by
  rw [textOf, List.map_append, String.join_append, textOf, textOf]

/-! ## Blocks -/

/-- What stands between blank lines. -/
inductive Block where
  | interface (d : Declaration)
  | listAlias (root : String) (layers : Nat)

namespace Block

def text : Block → String
  | .interface d => renderInterface d
  | .listAlias root layers => renderAlias root layers

def pieces : Block → List Piece
  | .interface d =>
    [.opening d.name] ++ (if d.isEmpty then [.index] else []) ++
      d.slots.map (fun member => .member member.1 member.2) ++ [.closing]
  | .listAlias root layers => [.listAlias (aliasName root) (Slot.inLists layers (.named root))]

end Block

def blocks (p : Plan) : List Block :=
  p.types.map .interface ++
    if p.rootLayers = 0 then [] else [.listAlias p.root.name p.rootLayers]

/-- The pieces of all blocks, with a blank line between any two. -/
def blocksPieces : List Block → List Piece
  | [] => []
  | [block] => block.pieces
  | block :: next :: more => block.pieces ++ .blank :: blocksPieces (next :: more)

def planPieces (p : Plan) : List Piece := blocksPieces (blocks p)

/-! ## The text of the pieces -/

/-- Each list puts a pair of brackets behind the type, so that they gather at the end. -/
theorem typeExpr_inLists (n : Nat) (slot : Slot) :
    typeExpr (Slot.inLists n slot) = typeExpr slot ++ String.join (List.replicate n "[]") := by
  induction n with
  | zero => rw [Slot.inLists, List.replicate_zero, String.join_nil, String.append_empty]
  | succ n ih =>
    -- the brackets of the outermost list are the last ones
    rw [Slot.inLists, typeExpr, ih, List.replicate_succ', String.join_append, String.append_assoc,
      String.join_cons, String.join_nil, String.append_empty]

/-- The members of an interface are printed one after the other. -/
theorem textOf_members (members : List (String × Slot)) :
    textOf (members.map fun member => .member member.1 member.2) =
      String.join (members.map renderMember) := by
  rw [textOf, List.map_map]
  rfl

/-- A block is its pieces but for the line feed of the last one, which is put there when the
blocks are joined. -/
theorem text_block (block : Block) : block.text ++ "\n" = textOf block.pieces := by
  cases block with
  | interface d =>
    have hindex : (if d.isEmpty then "  [key: string]: unknown;\n" else "") =
        textOf (if d.isEmpty then [.index] else []) := by
      split <;> rfl
    have hclosing : textOf [.closing] = "\x7d" ++ "\n" := rfl
    rw [Block.pieces, textOf_append, textOf_append, textOf_append, textOf_singleton,
      textOf_members, hclosing, ← hindex, text_opening, Block.text, renderInterface]
    simp only [String.append_assoc]
  | listAlias root layers =>
    have hsemicolon : ";\n" = ";" ++ "\n" := rfl
    rw [Block.pieces, textOf_singleton, text_listAlias, typeExpr_inLists, typeExpr, hsemicolon,
      Block.text, renderAlias]
    simp only [String.append_assoc]

/-- A block ends in a brace or a semicolon, and the stack adds the line feed. -/
theorem isOpenEnded_text (block : Block) : IsOpenEnded block.text := by
  cases block with
  | interface d =>
    have hbrace : IsOpenEnded "\x7d" := ⟨'\x7d', by decide, by decide⟩
    exact hbrace.append _
  | listAlias root layers =>
    have hsemicolon : IsOpenEnded ";" := ⟨';', by decide, by decide⟩
    exact hsemicolon.append _

/-- **What is printed for several blocks is their pieces**, with a blank line between any two.
The text ends in a line feed, which every piece brings along and the blocks leave out. -/
theorem intercalate_text {blocks : List Block} (hne : blocks ≠ []) :
    "\n\n".intercalate (blocks.map Block.text) ++ "\n" = textOf (blocksPieces blocks) := by
  induction blocks using blocksPieces.induct with
  | case1 => exact absurd rfl hne
  | case2 block =>
    rw [List.map_singleton, String.intercalate_singleton, text_block, blocksPieces]
  | case3 block next more ih =>
    have hseparator : "\n\n" = "\n" ++ Piece.blank.text := rfl
    rw [List.map_cons, List.map_cons, String.intercalate_cons_cons, ← List.map_cons,
      String.append_assoc, ih (List.cons_ne_nil _ _), blocksPieces, textOf_append, textOf_cons,
      ← text_block, hseparator]
    simp only [String.append_assoc]

/-- The rendered text is the texts of the pieces of the plan: those of its types, and of the
list type if there are lists around the root. -/
theorem content_eq (p : Plan) :
    stack "" (p.types.map renderInterface ++ aliasBlocks p) "\n\n" = textOf (planPieces p) := by
  have hblocks : p.types.map renderInterface ++ aliasBlocks p = (blocks p).map Block.text := by
    rw [blocks, List.map_append, List.map_map, aliasBlocks]
    split <;> rfl
  have htypes : p.types ≠ [] := List.append_ne_nil_of_right_ne_nil _ (List.cons_ne_nil _ _)
  have hne : blocks p ≠ [] :=
    List.append_ne_nil_of_left_ne_nil (fun h => htypes (List.map_eq_nil_iff.mp h)) _
  have hstacked : (blocks p).map Block.text ≠ [] := fun h => hne (List.map_eq_nil_iff.mp h)
  have hopen : ∀ text ∈ (blocks p).map Block.text, IsOpenEnded text := by
    intro text htext
    obtain ⟨block, -, rfl⟩ := List.mem_map.mp htext
    exact isOpenEnded_text block
  rw [hblocks, stack_eq _ _ hstacked hopen, String.empty_append, intercalate_text hne, planPieces]

end TypeScript
end Shapewright
