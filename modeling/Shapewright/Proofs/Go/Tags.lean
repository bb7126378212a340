import Mathlib.Data.List.TakeWhile
import Shapewright.Dialect.Render
import Shapewright.Generate
import Shapewright.Proofs.Dialect.MemberForms
import Shapewright.Proofs.Plan.NameForms
import Shapewright.Proofs.Text.Marks

/-!
# Go tags

A field that is not called like its key has a tag: a raw literal with a quoted one in it,
in which the key stands. So the key has three readers. For the compiler the raw literal
ends at the first backtick, and carriage returns are no part of it. Looking the tag up
undoes the escapes of the quoted literal, but takes no line feed there. For the decoder
the name ends at the first comma, and a hyphen alone is none. Keys are escaped for the
second reader only, and those that mean something to another are lost.

Main definitions:

* `fieldLine?` — the field that a line declares, as the compiler sees it.
* `tagName?` — the name in a tag. What a name has to be made of to be used is another
  matter.
* `IsCarried` — the keys that no reader stumbles over.

Main results:

* `tagName?_tagInside_iff` — which keys are read from their tags.
* `tags_carry_keys_iff` — fields are called by their keys exactly if these are such.
* `tags_lose_keys` — the keys that are lost.
-/

namespace Shapewright.Go

open Text Name Plan

/-! ## Lines -/

/-- The text of a raw literal up to the backtick that ends it, and what follows. Carriage
returns are not part of it. -/
def rawLiteral? (cs : List Char) : Option (List Char × List Char) :=
  (before? '\x60' cs).map fun (raw, rest) => (raw.filter (· != '\r'), rest)

/-- The tag behind a type, if there is one, and what follows the line. -/
def lineEnd? (cs : List Char) : Option (Option (List Char) × List Char) :=
  match after? " `" cs with
  | some inside =>
    (rawLiteral? inside).bind fun (tag, rest) =>
      (after? "\n" rest).map fun next => (some tag, next)
  | none => (after? "\n" cs).map fun next => (none, next)

/-- A field as it is declared, apart from its type. -/
structure FieldLine where
  identifier : String
  tag : Option (List Char)
  deriving Repr, DecidableEq

/-- A type ends at the first blank or at the end of the line. -/
def isTypeChar (c : Char) : Bool := c != ' ' && c != '\n'

/-- The field that the first line of a text declares, and what follows the line. -/
def fieldLine? (cs : List Char) : Option (FieldLine × List Char) :=
  (after? "\t" cs).bind fun line =>
    (before? ' ' line).bind fun (identifier, rest) =>
      (lineEnd? (rest.dropWhile isTypeChar)).map fun (tag, next) =>
        (⟨String.ofList identifier, tag⟩, next)

/-! ## Tags -/

/-- The character that a letter behind a backslash stands for. -/
def escaped? : Char → Option Char
  | 'a' => some '\x07'
  | 'b' => some '\x08'
  | 'f' => some '\x0c'
  | 'n' => some '\n'
  | 'r' => some '\r'
  | 't' => some '\t'
  | 'v' => some '\x0b'
  | '\\' => some '\\'
  | '"' => some '"'
  | _ => none

/-- What the inside of a quoted literal stands for. A literal does not go over a line,
and escapes by number, which no tag is written with, are not read. -/
def unquote : List Char → Option (List Char)
  | [] => some []
  | '\\' :: letter :: rest => (escaped? letter).bind fun c => (unquote rest).map (c :: ·)
  | c :: rest =>
    if c = '\n' ∨ c = '"' ∨ c = '\\' then none else (unquote rest).map (c :: ·)

/-- What comes before the inside of the quoted value. -/
def tagOpening : String := "json:\""

/-- The quoted value in a tag. -/
def tagValue? (tag : List Char) : Option (List Char) :=
  (after? tagOpening tag).bind fun inside =>
    (literal? inside).bind fun (quoted, _) => unquote quoted

/-- The name in a tag ends at the first comma, where options begin. A hyphen alone means
that the field is left out. -/
def tagName? (tag : List Char) : Option String :=
  (tagValue? tag).bind fun value =>
    if value = ['-'] then none else some (String.ofList (value.takeWhile (· != ',')))

/-- The tag for a key, without the backticks around it. -/
def tagInside (key : List Char) : List Char :=
  tagOpening.toList ++ (escapeWith ['\\', '"'] key ++ ['"'])

/-- A tag stands between backticks, behind a blank. -/
theorem toList_tag (key : String) :
    (tag key).toList = " `".toList ++ (tagInside key.toList ++ ['\x60']) := by
  have hopening : " `json:\"".toList = " `".toList ++ tagOpening.toList := rfl
  have hclosing : "\"`".toList = ['"'] ++ ['\x60'] := rfl
  simp only [tag, tagInside, escapeQuotes, String.toList_append, String.toList_ofList, hopening,
    hclosing, List.append_assoc]

/-- What is put around the key in its tag has no backtick, so that one comes from the key. -/
theorem backtick_mem_tagInside_iff (key : List Char) : '\x60' ∈ tagInside key ↔ '\x60' ∈ key := by
  have hopening : '\x60' ∉ tagOpening.toList := by decide
  have hclosing : '\x60' ∉ ['"'] := by decide
  rw [tagInside, List.mem_append, List.mem_append, or_iff_right hopening, or_iff_left hclosing,
    mem_escapeWith_iff (by decide)]

/-- Nor has it a carriage return, which a raw string drops. -/
theorem filter_tagInside (key : List Char) :
    (tagInside key).filter (· != '\r') = tagInside (key.filter (· != '\r')) := by
  have hopening : tagOpening.toList.filter (· != '\r') = tagOpening.toList := by decide
  have hclosing : ['"'].filter (· != '\r') = ['"'] := by decide
  have hspecial : ∀ c ∈ ['\\', '"'], (c != '\r') = true := List.all_eq_true.mp (by decide)
  rw [tagInside, List.filter_append, List.filter_append, hopening, hclosing,
    filter_escapeWith _ hspecial (by decide), tagInside]

/-! ## What is read from a tag -/

/-- A marked quote or backslash stands for itself. So does any other character without a mark,
but for a line feed, which ends the reading. -/
theorem unquote_marked {c : Char} (h : c ∈ ['\\', '"']) (rest : List Char) :
    unquote ('\\' :: c :: rest) = (unquote rest).map (c :: ·) := by
  rcases List.mem_pair.mp h with rfl | rfl <;> rfl

theorem unquote_plain {c : Char} (hfeed : c ≠ '\n') (h : c ∉ ['\\', '"']) (rest : List Char) :
    unquote (c :: rest) = (unquote rest).map (c :: ·) := by
  have hplain : ¬ (c = '\n' ∨ c = '"' ∨ c = '\\') := by
    rw [List.mem_pair, or_comm] at h
    exact not_or.mpr ⟨hfeed, h⟩
  rw [unquote, if_neg hplain]
  rintro _ _ rfl -
  exact h (by decide)

/-- Quoted text is read back, unless there is a line feed in it, which the reader of literals
refuses and the writer leaves as it is. -/
theorem unquote_escapeWith (cs : List Char) :
    unquote (escapeWith ['\\', '"'] cs) = if '\n' ∈ cs then none else some cs := by
  induction cs with
  | nil => rfl
  | cons c cs ih =>
    by_cases hfeed : c = '\n'
    · -- a line feed has no mark, and is refused
      subst hfeed
      rw [escapeWith_cons, if_neg (by decide), if_pos List.mem_cons_self]
      rfl
    · -- a mark is taken off together with the character behind it
      have hread : unquote (escapeWith ['\\', '"'] (c :: cs)) =
          (unquote (escapeWith ['\\', '"'] cs)).map (c :: ·) := by
        rw [escapeWith_cons]
        by_cases hc : c ∈ ['\\', '"']
        · rw [if_pos hc]
          exact unquote_marked hc _
        · rw [if_neg hc]
          exact unquote_plain hfeed hc _
      rw [hread, ih]
      simp only [List.mem_cons, Ne.symm hfeed, false_or]
      split <;> rfl

/-- The value in a tag is the key, unless there is a line feed in it: then there is no value. -/
theorem tagValue?_tagInside (key : List Char) :
    tagValue? (tagInside key) = if '\n' ∈ key then none else some key := by
  rw [tagValue?, tagInside, after?_append, Option.bind_some,
    literal?_escapeWith (by decide) (by decide), Option.bind_some]
  exact unquote_escapeWith key

/-- Nothing in the key means anything to a reader that it is not escaped for. -/
structure IsCarried (key : String) : Prop where
  ne_hyphen : key ≠ "-"
  backtick : '\x60' ∉ key.toList
  carriageReturn : '\r' ∉ key.toList
  lineFeed : '\n' ∉ key.toList
  comma : ',' ∉ key.toList

/-- The name is the key up to its first comma, if it has no line feed and is not a hyphen
alone. -/
theorem tagName?_tagInside (key : List Char) :
    tagName? (tagInside key) =
      if '\n' ∈ key ∨ key = ['-'] then none
      else some (String.ofList (key.takeWhile (· != ','))) := by
  rw [tagName?, tagValue?_tagInside]
  by_cases hfeed : '\n' ∈ key
  · rw [if_pos hfeed, if_pos (Or.inl hfeed), Option.bind_none]
  · rw [if_neg hfeed, Option.bind_some]
    by_cases hhyphen : key = ['-']
    · rw [if_pos hhyphen, if_pos (Or.inr hhyphen)]
    · rw [if_neg hhyphen, if_neg (not_or.mpr ⟨hfeed, hhyphen⟩)]

/-- Only a list in which nothing is left out stays as it is, whether something is left out
everywhere or from some place on. -/
theorem takeWhile_filter_eq_self_iff (p q : Char → Bool) (cs : List Char) :
    (cs.filter p).takeWhile q = cs ↔ ∀ c ∈ cs, p c = true ∧ q c = true := by
  constructor
  · intro h
    -- what is left is part of the list, and the list is part of what is left
    have hsublist : cs.Sublist (cs.filter p) := by
      conv_lhs => rw [← h]
      exact List.takeWhile_sublist q
    have hfilter : cs.filter p = cs := List.filter_sublist.antisymm hsublist
    rw [hfilter, List.takeWhile_eq_self_iff] at h
    exact fun c hc => ⟨List.filter_eq_self.mp hfilter c hc, h c hc⟩
  · intro h
    rw [List.filter_eq_self.mpr fun c hc => (h c hc).1,
      List.takeWhile_eq_self_iff.mpr fun c hc => (h c hc).2]

/-- A key is read from its tag exactly if no reader stumbles over it: the one of raw strings
over backticks, the one of literals over line breaks, and the one of tags over commas and over
a hyphen that stands alone. -/
theorem tagName?_tagInside_iff (key : String) :
    '\x60' ∉ key.toList ∧ tagName? ((tagInside key.toList).filter (· != '\r')) = some key ↔
      IsCarried key := by
  have hwhole := takeWhile_filter_eq_self_iff (· != '\r') (· != ',') key.toList
  have hhyphen : key.toList = ['-'] ↔ key = "-" := by
    rw [← String.toList_inj]
    rfl
  rw [filter_tagInside, tagName?_tagInside]
  constructor
  · rintro ⟨hbacktick, h⟩
    split at h
    · exact absurd h.symm (Option.some_ne_none _)
    · next hread =>
      rw [Option.some.injEq, ← String.toList_inj, String.toList_ofList] at h
      -- the name is the whole key, so nothing was dropped and nothing cut off
      have hall := hwhole.mp h
      have hfilter : key.toList.filter (· != '\r') = key.toList :=
        List.filter_eq_self.mpr fun c hc => (hall c hc).1
      rw [hfilter, not_or, hhyphen] at hread
      have hreturn : '\r' ∉ key.toList := fun hc => absurd (hall _ hc).1 (by decide)
      have hcomma : ',' ∉ key.toList := fun hc => absurd (hall _ hc).2 (by decide)
      exact ⟨hread.2, hbacktick, hreturn, hread.1, hcomma⟩
  · rintro ⟨hne, hbacktick, hreturn, hfeed, hcomma⟩
    have hall : ∀ c ∈ key.toList, (c != '\r') = true ∧ (c != ',') = true := by
      intro c hc
      rw [bne_iff_ne, bne_iff_ne]
      exact ⟨fun h => hreturn (h ▸ hc), fun h => hcomma (h ▸ hc)⟩
    have hfilter : key.toList.filter (· != '\r') = key.toList :=
      List.filter_eq_self.mpr fun c hc => (hall c hc).1
    rw [hwhole.mpr hall, hfilter, if_neg (not_or.mpr ⟨hfeed, mt hhyphen.mp hne⟩),
      String.ofList_toList]
    exact ⟨hbacktick, rfl⟩

/-! ## What the compiler sees -/

/-- A raw literal ends where it was meant to exactly if there is no backtick in it. What
follows it is longer otherwise. -/
theorem lineEnd?_eq_some_iff (inside tag rest : List Char) :
    lineEnd? (" `".toList ++ (inside ++ '\x60' :: '\n' :: rest)) = some (some tag, rest) ↔
      '\x60' ∉ inside ∧ tag = inside.filter (· != '\r') := by
  rw [lineEnd?, after?_append]
  show (rawLiteral? (inside ++ '\x60' :: '\n' :: rest)).bind _ = _ ↔ _
  by_cases h : '\x60' ∈ inside
  · obtain ⟨front, back, rfl, hfront⟩ := List.eq_append_cons_of_mem h
    rw [rawLiteral?, List.append_assoc, List.cons_append, before?_append hfront, Option.map_some,
      Option.bind_some]
    refine ⟨fun hread => ?_, fun hread => absurd h hread.1⟩
    -- the literal ends at a backtick of its own, before the last one
    obtain ⟨next, hnext, heq⟩ := Option.map_eq_some_iff.mp hread
    obtain rfl : next = rest := (Prod.mk.inj heq).2
    have hlength := congrArg List.length (eq_append_of_after? hnext)
    simp only [List.length_append, List.length_cons] at hlength
    have hfeed : "\n".toList.length = 1 := rfl
    omega
  · rw [rawLiteral?, before?_append h, Option.map_some, Option.bind_some]
    have hnext : after? "\n" ('\n' :: rest) = some rest := after?_append "\n" rest
    show (after? "\n" ('\n' :: rest)).map _ = _ ↔ _
    rw [hnext, Option.map_some, Option.some.injEq, Prod.mk.injEq, Option.some.injEq]
    exact ⟨fun heq => ⟨h, heq.1.symm⟩, fun heq => ⟨heq.2.symm, rfl⟩⟩

/-- A type in Go is made of the characters of names and of those that lists and pointers are
written with. The reader of a field's line ends a type by them. -/
theorem isTypeChar_typeExpr {slot : Slot}
    (h : ∀ name, slot.target? = some name → IsDeclarable reserved name) :
    ∀ c ∈ (typeExpr slot).toList, isTypeChar c = true := by
  induction slot with
  | list item ih =>
    rw [typeExpr, String.toList_append]
    exact List.forall_mem_append.mpr ⟨List.all_eq_true.mp (by decide), ih h⟩
  | named name =>
    -- neither a blank nor a line feed is in a declared name
    intro c hc
    have hchar := isNameChar_of_isDeclaredForm (h name rfl).form c hc
    rw [isTypeChar, Bool.and_eq_true, bne_iff_ne, bne_iff_ne]
    constructor <;> rintro rfl <;> exact absurd hchar (by decide)
  | _ => exact List.all_eq_true.mp (by decide)

/-- A line is read up to the end of its type, and what follows decides whether there is a tag. -/
theorem fieldLine?_append {identifier : String} (hidentifier : ' ' ∉ identifier.toList)
    {type : List Char} (htype : ∀ c ∈ type, isTypeChar c = true) {c : Char}
    (hc : isTypeChar c = false) (back : List Char) :
    fieldLine? ("\t".toList ++ (identifier.toList ++ ' ' :: (type ++ c :: back))) =
      (lineEnd? (c :: back)).map fun (tag, next) => (⟨identifier, tag⟩, next) := by
  rw [fieldLine?, after?_append, Option.bind_some, before?_append hidentifier, Option.bind_some]
  show (lineEnd? ((type ++ c :: back).dropWhile isTypeChar)).map _ = _
  rw [List.dropWhile_append_of_pos htype, List.dropWhile_cons_of_neg (by rw [hc]; decide),
    String.ofList_toList]

/-- An identifier ends at the first blank. -/
theorem not_mem_fieldName (key : String) : ' ' ∉ (fieldName key).toList := by
  obtain ⟨c, rest, hname, hupper, hrest⟩ := exported_pascal key.toList
  rw [fieldName, String.toList_ofList, hname, List.mem_cons]
  rintro (rfl | hmem)
  · exact absurd hupper (by decide)
  · exact absurd (hrest ' ' hmem) (by decide)

section

variable {key : String} {slot : Slot}
  (hslot : ∀ name, slot.target? = some name → IsDeclarable reserved name)

include hslot

/-- A key that is its own identifier has no tag. -/
theorem fieldLine?_untagged (h : fieldName key = key) (rest : List Char) :
    fieldLine? ((renderField (key, slot)).toList ++ rest) = some (⟨key, none⟩, rest) := by
  have htext : (renderField (key, slot)).toList ++ rest =
      "\t".toList ++ (key.toList ++ ' ' :: ((typeExpr slot).toList ++ '\n' :: rest)) := by
    simp only [renderField, h, if_true, String.toList_append, List.append_assoc]
    rfl
  have hnext : after? "\n" ('\n' :: rest) = some rest := after?_append "\n" rest
  have hname : ' ' ∉ key.toList := h ▸ not_mem_fieldName key
  rw [htext, fieldLine?_append hname (isTypeChar_typeExpr hslot) (by decide)]
  show ((after? "\n" ('\n' :: rest)).map _).map _ = _
  rw [hnext, Option.map_some, Option.map_some]

/-- **The tag of a field is read back exactly if there is no backtick in the key**; carriage
returns are dropped on the way. -/
theorem fieldLine?_tagged_iff (h : fieldName key ≠ key) (tag rest : List Char) :
    fieldLine? ((renderField (key, slot)).toList ++ rest) =
        some (⟨fieldName key, some tag⟩, rest) ↔
      '\x60' ∉ key.toList ∧ tag = (tagInside key.toList).filter (· != '\r') := by
  have htext : (renderField (key, slot)).toList ++ rest =
      "\t".toList ++ ((fieldName key).toList ++ ' ' :: ((typeExpr slot).toList ++
        (" `".toList ++ (tagInside key.toList ++ '\x60' :: '\n' :: rest)))) := by
    simp only [renderField, if_neg h, String.toList_append, toList_tag, List.append_assoc]
    rfl
  have hblank (cs : List Char) : " `".toList ++ cs = ' ' :: '\x60' :: cs := rfl
  -- the blank in front of the tag ends the type
  rw [htext, ← backtick_mem_tagInside_iff, ← lineEnd?_eq_some_iff _ _ rest, hblank,
    fieldLine?_append (not_mem_fieldName key) (isTypeChar_typeExpr hslot) (by decide),
    Option.map_eq_some_iff]
  constructor
  · rintro ⟨⟨read, next⟩, hread, heq⟩
    obtain ⟨hline, rfl⟩ := Prod.mk.inj heq
    obtain rfl : read = some tag := congrArg FieldLine.tag hline
    exact hread
  · exact fun hread => ⟨(some tag, rest), hread, rfl⟩

end

/-! ## Fields and keys -/

/-- **Fields are called by their keys, as far as tags can say them.** In the text of every
field of a plan, a field without a tag is one whose identifier is the key. A tag is one raw
literal, with the end of the line behind it, exactly if there is no backtick in the key,
and then gives the key as the name exactly if there are no line breaks and no comma in it
either and it is not a hyphen alone. -/
theorem tags_carry_keys_iff {s : Shape} (hs : s.KeysDistinct) {rootName : String}
    {d : Declaration} (hd : d ∈ (planFor .go rootName s).types) {key : String} {slot : Slot}
    (hmember : (key, slot) ∈ d.slots) (rest : List Char) :
    (fieldName key = key →
      fieldLine? ((renderField (key, slot)).toList ++ rest) = some (⟨key, none⟩, rest)) ∧
    (fieldName key ≠ key →
      ((∃ tag, fieldLine? ((renderField (key, slot)).toList ++ rest) =
          some (⟨fieldName key, some tag⟩, rest)) ↔ '\x60' ∉ key.toList) ∧
      ((∃ tag, fieldLine? ((renderField (key, slot)).toList ++ rest) =
          some (⟨fieldName key, some tag⟩, rest) ∧ tagName? tag = some key) ↔ IsCarried key)) := by
  -- the names of types have no characters that could end a type
  have hr : reserved.Escapable := Reserved.Admitted.escapable (Or.inr ⟨.go, rfl⟩)
  have hslot := (isDeclarable_of_mem_types hr hs d hd).2 (key, slot) hmember
  refine ⟨fun h => fieldLine?_untagged hslot h rest, fun h => ?_⟩
  simp only [fieldLine?_tagged_iff hslot h]
  constructor
  · exact ⟨fun ⟨_, hbacktick, _⟩ => hbacktick, fun hbacktick => ⟨_, hbacktick, rfl⟩⟩
  · rw [← tagName?_tagInside_iff]
    constructor
    · rintro ⟨tag, ⟨hbacktick, rfl⟩, hname⟩
      exact ⟨hbacktick, hname⟩
    · rintro ⟨hbacktick, hname⟩
      exact ⟨_, ⟨hbacktick, rfl⟩, hname⟩

/-- A hyphen in a key is not one alone. -/
theorem tags_carry_keys_iff_hyphen :
    let p := planFor .go "Root" (.object [("user-id", .integer)])
    p.root ∈ p.types ∧ ("user-id", .integer) ∈ p.root.slots ∧
      ∃ tag, fieldLine? (renderField ("user-id", .integer)).toList =
          some (⟨"UserId", some tag⟩, []) ∧
        tagName? tag = some "user-id" := by
  intro p
  have hroot : p.root ∈ p.types := List.mem_append_right _ (List.mem_singleton_self _)
  have hmember : ("user-id", .integer) ∈ p.root.slots := by decide +kernel
  have hname : fieldName "user-id" = "UserId" := by decide +kernel
  have hcarried := ((tags_carry_keys_iff (by decide) hroot hmember []).2 (by decide +kernel)).2.mpr
    ⟨by decide, by decide, by decide, by decide, by decide⟩
  rw [List.append_nil, hname] at hcarried
  exact ⟨hroot, hmember, hcarried⟩

/-- The names that tags give to the fields of a struct, where they give one. -/
def taggedNames (d : Declaration) : List (Option String) :=
  d.slots.map fun member =>
    (fieldLine? (renderField member).toList).bind fun (line, _) => line.tag.bind tagName?

/-- Keys that mean something to a reader. -/
def lostKeys : Shape :=
  .object [("-", .integer), ("a,b", .integer), ("a`b", .integer), ("a\nb", .integer),
    ("a\rb", .integer)]

/-- None of these keys is the identifier of its field, and none is the name that the tag
gives. -/
theorem tags_lose_keys :
    let d := (planFor .go "Root" lostKeys).root
    lostKeys.KeysDistinct ∧ d.slots.map Prod.fst = ["-", "a,b", "a`b", "a\nb", "a\rb"] ∧
      (d.slots.map fun member => fieldName member.1) = ["X", "AB", "AB", "AB", "AB"] ∧
      taggedNames d = [none, some "a", none, none, some "ab"] := by
  decide +kernel

end Shapewright.Go
