import Shapewright.Proofs.Name.Identifiers
import Shapewright.Proofs.Plan.Spelling
import Shapewright.Proofs.Plan.Widening
import Shapewright.Proofs.Text.Parts
import Shapewright.Proofs.TypeScript.Pieces

/-!
# Reading pieces of TypeScript

A reader takes a piece off the front of a text. It cannot go by lines, since a key may
be anything, a line feed or a whole interface included: it tells the kinds apart by
how a piece begins, and a key by its quotes, or by the colon behind it if there are
none. Types are read as they were written but for integers, which are written like
other numbers.

Main definitions:

* `readPiece?` — the first piece of a text, and what follows it.
* `Piece.Sound` — the names in a piece are such as a plan has.
* `Piece.widen` — a piece with integers taken for numbers.

Main results:

* `readPiece?_text` — what is written is read, whatever follows.
* `widen_eq_of_textOf_eq` — the text of sound pieces determines them up to widening.
-/

namespace Shapewright.TypeScript

open Text Name Plan

/-! ## Type expressions -/

def spelling : Spelling reserved where
  opening := []
  closing := ['[', ']']
  words := [("null", .null), ("string", .string), ("number", .number), ("boolean", .boolean),
    ("any", .any)]
  foreign := ⟨'[', by decide, by decide⟩
  isWord := by decide
  nodup := by decide

/-- Integers are written like other numbers, and all other kinds have words of their own. -/
theorem writes_typeExpr : spelling.Writes typeExpr Slot.widen where
  list_eq _ := String.toList_append
  named_eq _ := rfl
  word_mem := by decide
  collapse_kind := by decide
  collapse_list _ := rfl
  collapse_named _ := rfl

/-- A type expression is read as the slot it was written for, but for integers. -/
theorem read_typeExpr {slot : Slot}
    (h : ∀ name, slot.target? = some name → IsDeclarable reserved name) :
    spelling.read (typeExpr slot).toList = slot.widen :=
  writes_typeExpr.read_eq h

/-- A type ends at the first semicolon: there is none in the name of a type, nor in a word for
a kind. -/
theorem not_mem_typeExpr {slot : Slot}
    (h : ∀ name, slot.target? = some name → IsDeclarable reserved name) :
    ';' ∉ (typeExpr slot).toList := by
  induction slot with
  | list item ih =>
    rw [typeExpr, String.toList_append, List.mem_append, not_or]
    exact ⟨ih h, by decide⟩
  | named name => exact (h name rfl).not_mem (by decide)
  | _ => decide

/-! ## Keys -/

/-- A key that needs quotes is marked, and stands between them. -/
theorem toList_propertyKey_of_not {key : String} (h : isPropertyName key = false) :
    (propertyKey key).toList = '"' :: (escapeWith ['\\', '"'] key.toList ++ ['"']) := by
  rw [propertyKey, h, if_neg Bool.false_ne_true, escapeQuotes, String.toList_append,
    String.toList_append, String.toList_ofList, String.toList_ofList]
  rfl

/-- A key begins with a quote, or with a character that needs none. -/
theorem exists_toList_propertyKey (key : String) :
    ∃ c rest, (propertyKey key).toList = c :: rest ∧ (c = '"' ∨ isNameChar c = true ∨ c = '$') := by
  cases h : isPropertyName key with
  | false => exact ⟨'"', _, toList_propertyKey_of_not h, Or.inl rfl⟩
  | true =>
    obtain ⟨c, rest, hkey, -, hall⟩ := exists_cons_of_isPropertyName h
    rw [propertyKey, if_pos h]
    exact ⟨c, rest, hkey, Or.inr (hall c (hkey ▸ List.mem_cons_self))⟩

/-- A key up to its colon, and what follows that. -/
def readKey? : List Char → Option (List Char × List Char)
  | '"' :: cs => do
    let (key, rest) ← readMarked? ['\\', '"'] cs
    let rest ← after? ":" rest
    return (key, rest)
  | cs => before? ':' cs

/-- **A key is read back**, quoted or not. How it begins tells which of the two it is: what
needs no quotes does not begin with one, and has no colon in it either. -/
theorem readKey?_propertyKey (key : String) (rest : List Char) :
    readKey? ((propertyKey key).toList ++ ':' :: rest) = some (key.toList, rest) := by
  cases h : isPropertyName key with
  | false =>
    -- the quote that is not marked ends the key
    have hcolon : ':' :: rest = ":".toList ++ rest := rfl
    rw [toList_propertyKey_of_not h, List.cons_append, List.append_assoc, List.singleton_append,
      readKey?, readMarked?_escapeWith (by decide) (by decide), hcolon]
    simp only [Option.bind_eq_bind, Option.bind_some, after?_append]
    rfl
  | true =>
    -- there is no quote in front, and the first colon is the one behind the key
    obtain ⟨c, tail, hkey, -, hall⟩ := exists_cons_of_isPropertyName h
    have hcolon : ':' ∉ key.toList := fun hmem => absurd (hall ':' hmem) (by decide)
    have hquote : c ≠ '"' := by
      rintro rfl
      exact absurd (hall '"' (hkey ▸ List.mem_cons_self)) (by decide)
    rw [propertyKey, if_pos h, ← before?_append hcolon, hkey, List.cons_append, readKey?]
    exact fun _ heq => hquote (List.cons.inj heq).1

/-! ## Pieces -/

def readOpening? (cs : List Char) : Option (Piece × List Char) := do
  let rest ← after? "interface " cs
  let (name, rest) ← before? ' ' rest
  let rest ← after? "\x7b\n" rest
  return (.opening (String.ofList name), rest)

def readAlias? (cs : List Char) : Option (Piece × List Char) := do
  let rest ← after? "type " cs
  let (name, rest) ← before? ' ' rest
  let rest ← after? "= " rest
  let (type, rest) ← before? ';' rest
  let rest ← after? "\n" rest
  return (.listAlias (String.ofList name) (spelling.read type), rest)

def readMember? (cs : List Char) : Option (Piece × List Char) := do
  let rest ← after? "  " cs
  let (key, rest) ← readKey? rest
  let rest ← after? " " rest
  let (type, rest) ← before? ';' rest
  let rest ← after? "\n" rest
  return (.member (String.ofList key) (spelling.read type), rest)

/-- A piece whose text is always the same. -/
def readFixed? (piece : Piece) (cs : List Char) : Option (Piece × List Char) := do
  let rest ← after? piece.text cs
  return (piece, rest)

/-- The first piece of a text, and what follows it. An index signature begins with the
blanks in front of a member, so it is tried before. -/
def readPiece? (cs : List Char) : Option (Piece × List Char) :=
  readOpening? cs <|> readAlias? cs <|> readFixed? .index cs <|> readMember? cs <|>
    readFixed? .closing cs <|> readFixed? .blank cs

/-- The names in the piece are such as a plan has. -/
def Piece.Sound : Piece → Prop
  | .opening name => ' ' ∉ name.toList
  | .member _ slot => ∀ name, slot.target? = some name → IsDeclarable reserved name
  | .listAlias name slot =>
    ' ' ∉ name.toList ∧ ∀ name, slot.target? = some name → IsDeclarable reserved name
  | _ => True

/-- The piece with integers taken for numbers. -/
def Piece.widen : Piece → Piece
  | .member key slot => .member key slot.widen
  | .listAlias name slot => .listAlias name slot.widen
  | piece => piece

/-- Each kind of piece is read back, whatever follows it: first what begins an interface. -/
theorem readOpening?_text {name : String} (h : (Piece.opening name).Sound) (rest : List Char) :
    readOpening? ((Piece.opening name).text.toList ++ rest) = some (.opening name, rest) := by
  have htext : (Piece.opening name).text.toList ++ rest =
      "interface ".toList ++ (name.toList ++ ' ' :: ("\x7b\n".toList ++ rest)) := by
    have hspace : " \x7b\n".toList = ' ' :: "\x7b\n".toList := rfl
    rw [text_opening]
    simp only [String.toList_append, List.append_assoc, List.cons_append, hspace]
  rw [htext, readOpening?]
  simp only [after?_append, before?_append h, Option.bind_eq_bind, Option.bind_some,
    String.ofList_toList]
  rfl

/-- A list type is read back up to integers, as its type is, whatever follows it. -/
theorem readAlias?_text {name : String} {slot : Slot} (h : (Piece.listAlias name slot).Sound)
    (rest : List Char) :
    readAlias? ((Piece.listAlias name slot).text.toList ++ rest) =
      some (.listAlias name slot.widen, rest) := by
  obtain ⟨hname, hslot⟩ := h
  -- the text, cut where the reader cuts it
  have htext : (Piece.listAlias name slot).text.toList ++ rest =
      "type ".toList ++ (name.toList ++ ' ' :: ("= ".toList ++
        ((typeExpr slot).toList ++ ';' :: ("\n".toList ++ rest)))) := by
    have hequals : " = ".toList = ' ' :: "= ".toList := rfl
    have hsemicolon : ";\n".toList = ';' :: "\n".toList := rfl
    rw [text_listAlias]
    simp only [String.toList_append, List.append_assoc, List.cons_append, hequals, hsemicolon]
  rw [htext, readAlias?]
  simp only [after?_append, before?_append hname, before?_append (not_mem_typeExpr hslot),
    Option.bind_eq_bind, Option.bind_some, String.ofList_toList, read_typeExpr hslot]
  rfl

/-- The text of a member, cut where the reader cuts it. -/
theorem toList_text_member (key : String) (slot : Slot) :
    (Piece.member key slot).text.toList =
      "  ".toList ++ ((propertyKey key).toList ++ ':' :: (" ".toList ++
        ((typeExpr slot).toList ++ ';' :: "\n".toList))) := by
  have hcolon : ": ".toList = ':' :: " ".toList := rfl
  have hsemicolon : ";\n".toList = ';' :: "\n".toList := rfl
  rw [text_member]
  simp only [String.toList_append, List.append_assoc, List.cons_append, hcolon, hsemicolon]

/-- A member is read back up to integers. Its key may be any text, and is read before its
type. -/
theorem readMember?_text {key : String} {slot : Slot} (h : (Piece.member key slot).Sound)
    (rest : List Char) :
    readMember? ((Piece.member key slot).text.toList ++ rest) =
      some (.member key slot.widen, rest) := by
  rw [toList_text_member, readMember?]
  simp only [List.append_assoc, List.cons_append, after?_append, readKey?_propertyKey,
    before?_append (not_mem_typeExpr h), Option.bind_eq_bind, Option.bind_some,
    String.ofList_toList, read_typeExpr h]
  rfl

/-- A piece that is always the same is read back by its text. -/
theorem readFixed?_text (piece : Piece) (rest : List Char) :
    readFixed? piece (piece.text.toList ++ rest) = some (piece, rest) := by
  rw [readFixed?, after?_append]
  rfl

/-- No key begins with the bracket of an index signature. -/
theorem readFixed?_index_member (key : String) (slot : Slot) (rest : List Char) :
    readFixed? .index ((Piece.member key slot).text.toList ++ rest) = none := by
  obtain ⟨c, tail, hkey, hc⟩ := exists_toList_propertyKey key
  have hbracket : c ≠ '[' := by
    rintro rfl
    exact absurd hc (by decide)
  have hindex : Piece.index.text = "  [key: string]: unknown;\n" := rfl
  rw [toList_text_member, hkey, readFixed?, hindex, after?]
  simp [List.dropPrefix?, hbracket]

/-- A sound piece is read as itself, but for integers. The beginnings of the kinds are
different. -/
theorem readPiece?_text {piece : Piece} (h : piece.Sound) (rest : List Char) :
    readPiece? (piece.text.toList ++ rest) = some (piece.widen, rest) := by
  cases piece with
  | opening name =>
    rw [readPiece?, readOpening?_text h]
    rfl
  | listAlias name slot =>
    have hopening : readOpening? ((Piece.listAlias name slot).text.toList ++ rest) = none := by
      rw [text_listAlias]
      simp only [String.toList_append]
      rfl
    rw [readPiece?, hopening, readAlias?_text h]
    rfl
  | member key slot =>
    have hopening : readOpening? ((Piece.member key slot).text.toList ++ rest) = none := by
      rw [toList_text_member]
      rfl
    have halias : readAlias? ((Piece.member key slot).text.toList ++ rest) = none := by
      rw [toList_text_member]
      rfl
    rw [readPiece?, hopening, halias, readFixed?_index_member, readMember?_text h]
    rfl
  | index =>
    -- what is tried before the piece itself fails at the first character
    show (readFixed? .index (Piece.index.text.toList ++ rest) <|> _) = _
    rw [readFixed?_text]
    rfl
  | closing =>
    show (readFixed? .closing (Piece.closing.text.toList ++ rest) <|> _) = _
    rw [readFixed?_text]
    rfl
  | blank =>
    show readFixed? .blank (Piece.blank.text.toList ++ rest) = _
    exact readFixed?_text .blank rest

/-! ## Texts -/

/-- The first piece is in front, as characters too. -/
theorem toList_textOf_cons (piece : Piece) (pieces : List Piece) :
    (textOf (piece :: pieces)).toList = piece.text.toList ++ (textOf pieces).toList := by
  rw [textOf_cons, String.toList_append]

/-- No piece is empty, so that reading comes to an end with the text. -/
theorem toList_textOf_cons_ne_nil {piece : Piece} (h : piece.Sound) (pieces : List Piece) :
    (textOf (piece :: pieces)).toList ≠ [] := by
  intro hnil
  -- there is a piece to be read
  have hread := readPiece?_text h (textOf pieces).toList
  rw [← toList_textOf_cons, hnil] at hread
  cases hread

/-- The text of sound pieces determines them up to widening. The induction is on one list of
pieces; what is read first from a text is the same for both. -/
theorem widen_eq_of_textOf_eq {xs ys : List Piece} (hx : ∀ piece ∈ xs, piece.Sound)
    (hy : ∀ piece ∈ ys, piece.Sound) (h : (textOf xs).toList = (textOf ys).toList) :
    xs.map Piece.widen = ys.map Piece.widen := by
  induction xs generalizing ys with
  | nil =>
    cases ys with
    | nil => rfl
    | cons y ys => exact absurd h.symm (toList_textOf_cons_ne_nil (hy y List.mem_cons_self) ys)
  | cons x xs ih =>
    obtain ⟨hxhead, hxtail⟩ := List.forall_mem_cons.mp hx
    cases ys with
    | nil => exact absurd h (toList_textOf_cons_ne_nil hxhead xs)
    | cons y ys =>
      obtain ⟨hyhead, hytail⟩ := List.forall_mem_cons.mp hy
      -- the two first pieces are read off one text
      have hread := readPiece?_text hxhead (textOf xs).toList
      rw [← toList_textOf_cons, h, toList_textOf_cons, readPiece?_text hyhead] at hread
      obtain ⟨hpiece, hrest⟩ := Prod.mk.inj (Option.some.inj hread)
      rw [List.map_cons, List.map_cons, hpiece, ih hxtail hytail hrest.symm]

end Shapewright.TypeScript
