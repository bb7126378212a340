import Shapewright.Proofs.Plan.NameForms
import Shapewright.Proofs.Plan.References
import Shapewright.Proofs.Text.Parts

/-!
# Reading type expressions

A target writes a word for every kind, something around the type of the items for a
list, and the name for a type that is declared. This can be read back because
declared names are of a form, and not reserved: neither a list type nor a word is
such a name.

Main definitions:

* `Spelling` — the words and what stands around items, in a target with given
  reserved names.
* `Spelling.read` — the slot that a type expression stands for.
* `Spelling.Writes` — a target writes its slots like this, and some kinds alike.

Main results:

* `Spelling.read_list`, `Spelling.read_word` and `Spelling.read_name` — one for each
  form of type expressions.
* `Spelling.Writes.read_eq` — what is written is read, up to the kinds written alike.
* `Spelling.Writes.write_eq_iff` — so type expressions tell slots apart up to these.
-/

namespace Shapewright

open Text Name Plan

/-- The slots that are no lists and refer to no type. -/
def Slot.kinds : List Slot := [.null, .string, .integer, .number, .boolean, .any]

/-- How a target writes type expressions. -/
structure Spelling (r : Reserved) where
  /-- What stands in front of the type of items. -/
  opening : List Char
  /-- What stands behind it. -/
  closing : List Char
  /-- The words for the kinds. Of kinds with one word, one is listed. -/
  words : List (String × Slot)
  /-- No name contains all that stands around items. -/
  foreign : ∃ c ∈ opening ++ closing, isNameChar c = false
  /-- A word is neither a list type nor a name. -/
  isWord : ∀ entry ∈ words, between? opening closing entry.1.toList = none ∧
    (isDeclaredForm entry.1.toList = false ∨ r.holds entry.1 = true)
  /-- No word is listed twice. -/
  nodup : (words.map Prod.fst).Nodup

namespace Spelling

variable {r : Reserved} (spelling : Spelling r)

/-- The slot that a type expression stands for. -/
def read (cs : List Char) : Slot :=
  match _h : between? spelling.opening spelling.closing cs with
  | some item => .list (read item)
  | none => (spelling.words.lookup (String.ofList cs)).getD (.named (String.ofList cs))
termination_by cs.length
decreasing_by
  -- something stands around the item
  obtain ⟨c, hc, -⟩ := spelling.foreign
  have hpos := List.length_pos_of_mem hc
  rw [List.length_append] at hpos
  rw [between?_eq_some_iff.mp _h, List.length_append, List.length_append]
  omega

/-- What has been put around an item is taken off again. -/
theorem read_list (item : List Char) :
    spelling.read (spelling.opening ++ (item ++ spelling.closing)) =
      .list (spelling.read item) := by
  have hitem : between? spelling.opening spelling.closing
      (spelling.opening ++ (item ++ spelling.closing)) = some item :=
    between?_eq_some_iff.mpr rfl
  rw [read]
  split
  · next hsome => rw [Option.some.inj (hsome.symm.trans hitem)]
  · next hnone => exact absurd (hnone.symm.trans hitem) (by simp)

/-- What is no list type is a word or a name. -/
theorem read_of_between?_eq_none {s : String}
    (h : between? spelling.opening spelling.closing s.toList = none) :
    spelling.read s.toList = (spelling.words.lookup s).getD (.named s) := by
  rw [read]
  split
  · next hsome => exact absurd (hsome.symm.trans h) (by simp)
  · rw [String.ofList_toList]

/-- A word stands for its kind: it is in no list type, and no other kind has it. -/
theorem read_word (entry : String × Slot) (h : entry ∈ spelling.words) :
    spelling.read entry.1.toList = entry.2 := by
  rw [spelling.read_of_between?_eq_none (spelling.isWord entry h).1,
    lookup_of_mem spelling.nodup entry h, Option.getD_some]

/-- A declared name stands for itself. It contains no bracket and is none of the words. -/
theorem read_name {name : String} (h : IsDeclarable r name) :
    spelling.read name.toList = .named name := by
  -- some of what stands around items is missing, and no word is such a name
  obtain ⟨c, hc, hforeign⟩ := spelling.foreign
  have hlookup : spelling.words.lookup name = none := by
    rw [List.lookup_eq_none_iff]
    intro entry hentry
    rw [bne_iff_ne]
    rintro rfl
    rcases (spelling.isWord entry hentry).2 with hform | hreserved
    · exact absurd (hform.symm.trans h.form) Bool.false_ne_true
    · exact absurd (h.free.symm.trans hreserved) Bool.false_ne_true
  rw [spelling.read_of_between?_eq_none (between?_eq_none hc (h.not_mem hforeign)), hlookup,
    Option.getD_none]

/-! ## Writing -/

/-- Slots are written by the words of the kinds, with something around items, and by the
names of types as they are. Kinds that have one word are taken together. -/
structure Writes (write : Slot → String) (collapse : Slot → Slot) : Prop where
  list_eq : ∀ item, (write (.list item)).toList =
    spelling.opening ++ ((write item).toList ++ spelling.closing)
  named_eq : ∀ name, write (.named name) = name
  word_mem : ∀ kind ∈ Slot.kinds, (write kind, collapse kind) ∈ spelling.words
  collapse_kind : ∀ kind ∈ Slot.kinds,
    collapse kind ∈ Slot.kinds ∧ write (collapse kind) = write kind
  collapse_list : ∀ item, collapse (.list item) = .list (collapse item)
  collapse_named : ∀ name, collapse (.named name) = .named name

namespace Writes

variable {spelling} {write : Slot → String} {collapse : Slot → Slot}

/-- Each kind is read as the one that its word is listed for. -/
theorem read_kind (h : spelling.Writes write collapse) {kind : Slot} (hkind : kind ∈ Slot.kinds) :
    spelling.read (write kind).toList = collapse kind :=
  spelling.read_word (write kind, collapse kind) (h.word_mem kind hkind)

/-- A type expression is read as the slot it was written for, up to kinds written alike,
as long as that refers to a name that a type may be declared under, if to any. -/
theorem read_eq (h : spelling.Writes write collapse) {slot : Slot}
    (hslot : ∀ name, slot.target? = some name → IsDeclarable r name) :
    spelling.read (write slot).toList = collapse slot := by
  induction slot with
  | list item ih => rw [h.list_eq, spelling.read_list, ih hslot, h.collapse_list]
  | named name => rw [h.named_eq, spelling.read_name (hslot name rfl), h.collapse_named]
  | _ => exact h.read_kind (by decide)

/-- Kinds that are taken together are written alike, at any depth. -/
theorem write_collapse (h : spelling.Writes write collapse) (slot : Slot) :
    write (collapse slot) = write slot := by
  induction slot with
  | list item ih => rw [h.collapse_list, ← String.toList_inj, h.list_eq, h.list_eq, ih]
  | named name => rw [h.collapse_named]
  | _ => exact (h.collapse_kind _ (by decide)).2

/-- Two slots are written alike exactly if they are the same up to kinds written alike. -/
theorem write_eq_iff (h : spelling.Writes write collapse) {a b : Slot}
    (ha : ∀ name, a.target? = some name → IsDeclarable r name)
    (hb : ∀ name, b.target? = some name → IsDeclarable r name) :
    write a = write b ↔ collapse a = collapse b := by
  constructor
  · intro hab
    rw [← h.read_eq ha, hab, h.read_eq hb]
  · intro hab
    rw [← h.write_collapse a, hab, h.write_collapse b]

/-- Neither a kind nor a list collapses to a name. -/
theorem eq_named_of_collapse_eq (h : spelling.Writes write collapse) {slot : Slot} {name : String}
    (hslot : collapse slot = .named name) : slot = .named name := by
  have hkind (kind : Slot) (hkind : kind ∈ Slot.kinds) : collapse kind ≠ .named name := by
    intro heq
    have hmem := (h.collapse_kind kind hkind).1
    rw [heq] at hmem
    simp [Slot.kinds] at hmem
  cases slot with
  | list item =>
    rw [h.collapse_list] at hslot
    cases hslot
  | named other => rw [← hslot, h.collapse_named]
  | _ => exact absurd hslot (hkind _ (by decide))

/-- Only the slot of a type is written like its name. -/
theorem write_named_eq_iff (h : spelling.Writes write collapse) {name : String} {slot : Slot}
    (hname : IsDeclarable r name)
    (hslot : ∀ other, slot.target? = some other → IsDeclarable r other) :
    write (.named name) = write slot ↔ slot = .named name := by
  have hself : ∀ other, (Slot.named name).target? = some other → IsDeclarable r other := by
    intro other hother
    obtain rfl := Option.some.inj hother
    exact hname
  rw [h.write_eq_iff hself hslot, h.collapse_named]
  constructor
  · exact fun heq => h.eq_named_of_collapse_eq heq.symm
  · rintro rfl
    exact (h.collapse_named name).symm

end Writes
end Spelling
end Shapewright
