import Mathlib.Data.List.Basic
import Shapewright.Dialect.Render
import Shapewright.Options.OfValue
import Shapewright.Proofs.Json.DistinctNames

/-!
# Options as entries

The options of a target are so many entries under fixed names. Entering a value replaces
the entry of its name and leaves the others, and options that agree in all entries are
the same. Nothing else about a structure of options matters to how it is filled in.

Main definitions:

* `Options.Sets` — what a value makes of an option.
* `Options.Form.IsReadBy` — the structure that a form fills in is read as entries.
* `Target.entries`, `Target.defaults` — the options of a target, and what they are where
  nothing is chosen.

Main results:

* `Target.isReadBy_entries` — the structures of all targets are read in this way.
* `Options.Form.ofMembers_cons_eq_ok_iff` — how a member is entered.
* `Options.Form.ofItems_eq_ok_iff` — the items of a list are entered as members with the
  names of the options, in their order.
-/

namespace Shapewright

namespace Options

open Json (Value)
open Json.Member (put)

/-! ## Entries -/

/-- The kind of values that an option takes. -/
def Entry.kind : Entry → Kind
  | .flag _ => .flag
  | .text _ => .text

/-- A value sets an option: a boolean one that is a flag, a string one that is a text,
and `null` leaves a text out. -/
inductive Sets : Entry → Value → Entry → Prop where
  | flag (old value : Bool) : Sets (.flag old) (.boolean value) (.flag value)
  | text (old : Option String) (value : String) :
      Sets (.text old) (.string value) (.text (some value))
  | unset (old : Option String) : Sets (.text old) .null (.text none)

/-- An entry is read from a value exactly if the value sets an option of that kind. It sets it
to one thing only, and keeps its kind. -/
theorem eq_some_iff_sets {old new : Entry} {v : Value} :
    old.kind.entry? v = some new ↔ Sets old v new := by
  constructor
  · intro h
    cases old <;> cases v <;> cases h <;> constructor
  · intro h
    cases h <;> rfl

theorem Sets.kind_eq {old new : Entry} {v : Value} (h : Sets old v new) : new.kind = old.kind := by
  cases h <;> rfl

theorem Sets.unique {old e e' : Entry} {v : Value} (h : Sets old v e) (h' : Sets old v e') :
    e = e' :=
  Option.some_inj.mp ((eq_some_iff_sets.mpr h).symm.trans (eq_some_iff_sets.mpr h'))

/-- The entries of a structure are those that its form has, under different names. -/
structure Form.IsReadBy {α : Type} (form : Form α) (entries : α → List (String × Entry)) :
    Prop where
  fields_eq : ∀ o, form.fields = (entries o).map fun e => (e.1, e.2.kind)
  nodup     : form.names.Nodup
  enter_eq  : ∀ o, ∀ field ∈ form.fields, ∀ e : Entry, e.kind = field.2 →
    entries (form.enter o field.1 e) = put field.1 e (entries o)
  ext       : ∀ o o', entries o = entries o' → o = o'

end Options

open Options

/-- The options of the targets that have no others, as entries. -/
def PlainOptions.entries (o : PlainOptions) : List (String × Entry) :=
  [("multipleFiles", .flag o.multipleFiles)]

/-- The options of Go as entries. -/
def GoOptions.entries (o : GoOptions) : List (String × Entry) :=
  [("multipleFiles", .flag o.multipleFiles), ("packageName", .text o.packageName)]

/-- The options of Kotlin as entries. -/
def KotlinOptions.entries (o : KotlinOptions) : List (String × Entry) :=
  [("multipleFiles", .flag o.multipleFiles), ("useJsonProperty", .flag o.useJsonProperty)]

/-- The options of Java as entries, in the order that a list would give them in. -/
def JavaOptions.entries (o : JavaOptions) : List (String × Entry) :=
  [("multipleFiles", .flag o.multipleFiles), ("useJsonProperty", .flag o.useJsonProperty),
    ("useLombok", .flag o.useLombok), ("includeConstructor", .flag o.includeConstructor),
    ("includeGetterSetter", .flag o.includeGetterSetter), ("useInnerClass", .flag o.useInnerClass)]

/-- Each structure of options has the entries that its form fills in. The cases are the fields
of the form, and for each the kind of its entry. -/
theorem PlainOptions.isReadBy_entries : PlainOptions.form.IsReadBy PlainOptions.entries where
  fields_eq _ := rfl
  nodup := by decide
  enter_eq o field hfield e he := by
    obtain rfl := List.mem_singleton.mp hfield
    cases e with
    | flag value => rfl
    | text value => cases he
  ext o o' h := by
    cases o
    cases o'
    cases h
    rfl

theorem GoOptions.isReadBy_entries : GoOptions.form.IsReadBy GoOptions.entries where
  fields_eq _ := rfl
  nodup := by decide
  enter_eq o field hfield e he := by
    rcases List.mem_pair.mp hfield with rfl | rfl
    · cases e with
      | flag value => rfl
      | text value => cases he
    · cases e with
      | flag value => cases he
      | text value => rfl
  ext o o' h := by
    cases o
    cases o'
    cases h
    rfl

theorem KotlinOptions.isReadBy_entries : KotlinOptions.form.IsReadBy KotlinOptions.entries where
  fields_eq _ := rfl
  nodup := by decide
  enter_eq o field hfield e he := by
    cases e with
    | flag value => rcases List.mem_pair.mp hfield with rfl | rfl <;> rfl
    | text value => rcases List.mem_pair.mp hfield with rfl | rfl <;> cases he
  ext o o' h := by
    cases o
    cases o'
    cases h
    rfl

theorem JavaOptions.isReadBy_entries : JavaOptions.form.IsReadBy JavaOptions.entries where
  fields_eq _ := rfl
  nodup := by decide
  enter_eq o field hfield e he := by
    simp only [JavaOptions.form, List.mem_cons, List.not_mem_nil, or_false] at hfield
    cases e with
    | flag value => rcases hfield with rfl | rfl | rfl | rfl | rfl | rfl <;> rfl
    | text value => rcases hfield with rfl | rfl | rfl | rfl | rfl | rfl <;> cases he
  ext o o' h := by
    cases o
    cases o'
    cases h
    rfl

namespace Target

/-- The options of a target with their names. -/
def entries : (t : Target) → t.Options → List (String × Entry)
  | .typeScript | .javaScript | .python | .rust | .c | .cPlusPlus => PlainOptions.entries
  | .go => GoOptions.entries
  | .java => JavaOptions.entries
  | .kotlin => KotlinOptions.entries

/-- The options there are for a target, and what each one is if it is not chosen. -/
def defaults : Target → List (String × Entry)
  | .typeScript | .javaScript | .python | .rust | .c | .cPlusPlus =>
    [("multipleFiles", .flag false)]
  | .go => [("multipleFiles", .flag false), ("packageName", .text none)]
  | .java =>
    [("multipleFiles", .flag false), ("useJsonProperty", .flag false), ("useLombok", .flag false),
      ("includeConstructor", .flag false), ("includeGetterSetter", .flag true),
      ("useInnerClass", .flag true)]
  | .kotlin => [("multipleFiles", .flag false), ("useJsonProperty", .flag false)]

/-- The forms of all targets are read by the entries of their options. -/
theorem isReadBy_entries (t : Target) : t.form.IsReadBy t.entries := by
  cases t with
  | go => exact GoOptions.isReadBy_entries
  | java => exact JavaOptions.isReadBy_entries
  | kotlin => exact KotlinOptions.isReadBy_entries
  | _ => exact PlainOptions.isReadBy_entries

/-- An empty form has the documented defaults. -/
theorem entries_empty (t : Target) : t.entries t.form.empty = t.defaults := by
  cases t <;> rfl

end Target

/-! ## Filling in forms -/

namespace Options.Form

open Json (Value)

variable {α : Type} {form : Form α} {o o' : α} {name : String} {v : Value}

/-- The first member is entered, and the others are entered after it. It fails by its name or
by its value. -/
theorem ofMembers_cons_eq_ok_iff {rest : List (String × Value)} :
    form.ofMembers o ((name, v) :: rest) = .ok o' ↔
      ∃ kind e, form.kind? name = some kind ∧ kind.entry? v = some e ∧
        form.ofMembers (form.enter o name e) rest = .ok o' := by
  rw [ofMembers]
  cases form.kind? name with
  | none => simp
  | some kind =>
    cases hentry : kind.entry? v with
    | none => simp [enterValue, hentry]
    | some e => simp [enterValue, hentry]

/-- There are options for some members exactly if each of them is for an option. -/
theorem exists_ofMembers_iff {members : List (String × Value)} :
    (∃ o', form.ofMembers o members = .ok o') ↔
      ∀ m ∈ members, ∃ kind e, form.kind? m.1 = some kind ∧ kind.entry? m.2 = some e := by
  induction members generalizing o with
  | nil => simp [ofMembers]
  | cons m rest ih =>
    obtain ⟨name, v⟩ := m
    simp only [ofMembers_cons_eq_ok_iff, List.forall_mem_cons]
    constructor
    · rintro ⟨o', kind, e, hkind, hentry, hrest⟩
      exact ⟨⟨kind, e, hkind, hentry⟩, ih.mp ⟨o', hrest⟩⟩
    · rintro ⟨⟨kind, e, hkind, hentry⟩, hrest⟩
      obtain ⟨o', ho'⟩ := ih.mpr hrest
      exact ⟨o', kind, e, hkind, hentry, ho'⟩

/-- The items of a list are the members that have the names of the options, as far as
there are options left. -/
theorem ofItems_eq_ok_iff {length : Nat} (items : List Value) :
    ∀ {index : Nat} {o : α} {fields : List (String × Kind)},
      (∀ field ∈ fields, form.kind? field.1 = some field.2) →
      (form.ofItems length index o fields items = .ok o' ↔
        items.length ≤ fields.length ∧
          form.ofMembers o ((fields.map Prod.fst).zip items) = .ok o') := by
  induction items with
  | nil =>
    intro index o fields hfields
    simp [ofItems, ofMembers]
  | cons v rest ih =>
    intro index o fields hfields
    -- items are left and no options, which is the one way to have too many of them
    cases fields with
    | nil => simp [ofItems]
    | cons field fields =>
      -- the first item is entered under the first name, as a member of that name would be
      obtain ⟨hfield, hfields⟩ := List.forall_mem_cons.mp hfields
      rw [ofItems, List.map_cons, List.zip_cons_cons, ofMembers_cons_eq_ok_iff, hfield]
      cases hentry : Kind.entry? field.2 v with
      | none => simp [enterValue, hentry]
      | some e => simp [enterValue, hentry, ih hfields]

/-- Where no two fields have one name, each is found by its own. -/
theorem kind?_of_mem (h : form.names.Nodup) :
    ∀ field ∈ form.fields, form.kind? field.1 = some field.2 :=
  Json.Member.get?_of_mem h

end Options.Form
end Shapewright
