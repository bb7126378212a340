import Mathlib.Data.List.Forall2
import Shapewright.Generate
import Shapewright.Proofs.Options.Entries

/-!
# Which options are accepted

A bag of options is meant to be an object whose members are options of the target, each
with a value of its kind, or else `null`; an option that is not chosen has its default,
and the order of the members does not matter. So it is for every bag but a list. A list
has no names that could be unknown, and is taken for the options in their order.

Main definitions:

* `Target.Documented` — the options that a bag is documented to stand for.
* `Target.Fits` — whether a bag is one that should be accepted.
* `Target.FitsInOrder` — whether a list is taken for options.

Main results:

* `Options.Form.ofMembers_eq_ok_iff` — what filling in a form from members yields.
* `decodeOptions_eq_ok_iff` — what decoding a bag yields.
* `options_are_as_documented_iff` — only lists are not decoded as documented.
-/

namespace Shapewright

open Json (Value Member.names Member.put)

/-! ## Options that are chosen -/

namespace Options

variable {members rest : List (String × Value)} {name : String} {v : Value}

/-- An option is what the member of its name makes of it, and stays what it was if there
is none. -/
def Chosen (members : List (String × Value)) (old new : String × Entry) : Prop :=
  new.1 = old.1 ∧
    ((∃ v, (old.1, v) ∈ members ∧ Sets old.2 v new.2) ∨
      (old.1 ∉ Member.names members ∧ new.2 = old.2))

/-- An option that no member has the name of stays what it was. -/
theorem chosen_iff_of_not_mem {old new : String × Entry} (h : old.1 ∉ Member.names members) :
    Chosen members old new ↔ old = new := by
  constructor
  · rintro ⟨hname, ⟨v, hv, -⟩ | ⟨-, hentry⟩⟩
    · exact absurd (List.mem_map_of_mem hv) h
    · exact Prod.ext hname.symm hentry.symm
  · rintro rfl
    exact ⟨rfl, Or.inr ⟨h, rfl⟩⟩

/-- A member chooses nothing for an option of another name. -/
theorem chosen_cons_of_ne {old new : String × Entry} (h : old.1 ≠ name) :
    Chosen ((name, v) :: rest) old new ↔ Chosen rest old new := by
  simp [Chosen, Member.names, h]

/-- A member that sets an option is the only one to do so, if no other has its name. -/
theorem chosen_cons_self {old e : Entry} {new : String × Entry} (h : name ∉ Member.names rest)
    (hsets : Sets old v e) :
    Chosen ((name, v) :: rest) (name, old) new ↔ (name, e) = new := by
  constructor
  · rintro ⟨hname, ⟨w, hw, hnew⟩ | ⟨habsent, -⟩⟩
    · rcases List.mem_cons.mp hw with heq | hrest
      · cases heq
        exact Prod.ext hname.symm (hsets.unique hnew)
      · exact absurd (List.mem_map_of_mem hrest) h
    · exact absurd List.mem_cons_self habsent
  · rintro rfl
    exact ⟨rfl, Or.inl ⟨v, List.mem_cons_self, hsets⟩⟩

/-- A member that has the name of no entry chooses nothing: the entries are what the other
members make of them. -/
theorem forall₂_chosen_cons_iff {es es' : List (String × Entry)} (h : name ∉ Member.names es) :
    List.Forall₂ (Chosen ((name, v) :: rest)) es es' ↔ List.Forall₂ (Chosen rest) es es' := by
  induction es generalizing es' with
  | nil => simp
  | cons old es ih =>
    rw [Member.names, List.map_cons, List.mem_cons, not_or] at h
    have hne : old.1 ≠ name := fun heq => h.1 heq.symm
    simp only [List.forall₂_cons_left_iff, chosen_cons_of_ne hne, ih h.2]

/-- To enter the first member and then the others is to choose from all of them. The others
have no member of its name, so that the entry stays what it was set to. -/
theorem forall₂_chosen_put_iff {old e : Entry} (hrest : name ∉ Member.names rest)
    (hsets : Sets old v e) {es es' : List (String × Entry)} (hnodup : (Member.names es).Nodup)
    (hmem : (name, old) ∈ es) :
    List.Forall₂ (Chosen rest) (Member.put name e es) es' ↔
      List.Forall₂ (Chosen ((name, v) :: rest)) es es' := by
  induction es generalizing es' with
  | nil => exact absurd hmem List.not_mem_nil
  | cons first es ih =>
    rw [Member.names, List.map_cons, List.nodup_cons] at hnodup
    by_cases hfirst : first.1 = name
    · -- this is the entry that is set, and no other one has its name
      have heq : first = (name, old) := by
        rcases List.mem_cons.mp hmem with heq | hin
        · exact heq.symm
        · exact absurd (hfirst ▸ List.mem_map_of_mem hin) hnodup.1
      subst heq
      simp only [Member.put, if_true, List.forall₂_cons_left_iff, chosen_cons_self hrest hsets,
        chosen_iff_of_not_mem (show (name, e).1 ∉ Member.names rest from hrest),
        forall₂_chosen_cons_iff hnodup.1]
    · -- it is another entry, and neither side changes it
      have hin : (name, old) ∈ es := by
        rcases List.mem_cons.mp hmem with heq | hin
        · exact absurd (heq ▸ rfl) hfirst
        · exact hin
      simp only [Member.put, if_neg hfirst, List.forall₂_cons_left_iff, chosen_cons_of_ne hfirst,
        ih hnodup.2 hin]

/-- In a list of pairs every first one has a second one. -/
theorem exists_of_forall₂ {α β : Type} {R : α → β → Prop} {xs : List α} {ys : List β}
    (h : List.Forall₂ R xs ys) : ∀ x ∈ xs, ∃ y, R x y := by
  induction h with
  | nil => exact fun x hx => absurd hx List.not_mem_nil
  | cons hxy _ ih => exact List.forall_mem_cons.mpr ⟨⟨_, hxy⟩, ih⟩

/-! ## Filling in a form -/

namespace Form

variable {α : Type} {form : Form α} {entries : α → List (String × Entry)} {o o' : α}

namespace IsReadBy

variable (h : form.IsReadBy entries)
include h

/-- The entries of a structure have the names of its form, in that order. -/
theorem names_entries (o : α) : Member.names (entries o) = form.names := by
  rw [Form.names, h.fields_eq o, List.map_map, Member.names]
  rfl

/-- An entry is for a field of the form, of the same kind, so that its kind is found by its
name. -/
theorem mem_fields {old : Entry} (hmem : (name, old) ∈ entries o) :
    (name, old.kind) ∈ form.fields := by
  rw [h.fields_eq o]
  exact List.mem_map_of_mem hmem

theorem kind?_of_mem {old : Entry} (hmem : (name, old) ∈ entries o) :
    form.kind? name = some old.kind :=
  Form.kind?_of_mem h.nodup _ (h.mem_fields hmem)

/-- Every field of the form has an entry. -/
theorem exists_mem_entries (hmem : name ∈ form.names) (o : α) :
    ∃ old, (name, old) ∈ entries o := by
  rw [← h.names_entries o] at hmem
  obtain ⟨⟨_, old⟩, hold, rfl⟩ := List.mem_map.mp hmem
  exact ⟨old, hold⟩

/-- An option is of one kind, whatever it is set to. -/
theorem exists_mem_of_kind? {kind : Kind} (hkind : form.kind? name = some kind) (o : α) :
    ∃ old, (name, old) ∈ entries o ∧ old.kind = kind := by
  have hname : name ∈ form.names := List.mem_map_of_mem (Json.Member.mem_of_get? hkind)
  obtain ⟨old, hold⟩ := h.exists_mem_entries hname o
  exact ⟨old, hold, Option.some_inj.mp ((h.kind?_of_mem hold).symm.trans hkind)⟩

/-- Entering a value puts its entry in the place of the one of that name, and leaves the
others. -/
theorem entries_enter {old e : Entry} (hmem : (name, old) ∈ entries o) (hkind : e.kind = old.kind) :
    entries (form.enter o name e) = Member.put name e (entries o) :=
  h.enter_eq o _ (h.mem_fields hmem) e hkind

/-- Members with different names fill in a form if all have names of options and values
that set them. What is then entered is what they choose, in whatever order. -/
theorem ofMembers_eq_ok_iff (hmembers : (Member.names members).Nodup) :
    form.ofMembers o members = .ok o' ↔
      (∀ m ∈ members, m.1 ∈ form.names) ∧
        List.Forall₂ (Chosen members) (entries o) (entries o') := by
  induction members generalizing o with
  | nil =>
    have hchosen : Chosen [] = fun old new : String × Entry => old = new := by
      funext old new
      exact propext (chosen_iff_of_not_mem List.not_mem_nil)
    rw [hchosen, List.forall₂_eq_eq_eq]
    constructor
    · intro heq
      cases heq
      exact ⟨nofun, rfl⟩
    · rintro ⟨-, heq⟩
      rw [h.ext o o' heq]
      rfl
  | cons m rest ih =>
    obtain ⟨name, v⟩ := m
    rw [Member.names, List.map_cons, List.nodup_cons] at hmembers
    obtain ⟨hfresh, hrest⟩ := hmembers
    have hnodup : (Member.names (entries o)).Nodup := by
      rw [h.names_entries o]
      exact h.nodup
    rw [ofMembers_cons_eq_ok_iff, List.forall_mem_cons]
    constructor
    · rintro ⟨kind, e, hkind, hentry, hok⟩
      have hname : name ∈ form.names := List.mem_map_of_mem (Json.Member.mem_of_get? hkind)
      obtain ⟨old, hold, rfl⟩ := h.exists_mem_of_kind? hkind o
      have hsets : Sets old v e := eq_some_iff_sets.mp hentry
      -- the others are entered over the first, which none of them replaces
      obtain ⟨hknown, hchosen⟩ := (ih hrest).mp hok
      rw [h.entries_enter hold hsets.kind_eq] at hchosen
      exact ⟨⟨hname, hknown⟩, (forall₂_chosen_put_iff hfresh hsets hnodup hold).mp hchosen⟩
    · rintro ⟨⟨hname, hknown⟩, hchosen⟩
      obtain ⟨old, hold⟩ := h.exists_mem_entries hname o
      -- the option of that name is chosen, and by no other member
      obtain ⟨e, hsets⟩ : ∃ e, Sets old v e := by
        obtain ⟨new, -, ⟨w, hw, hsets⟩ | ⟨habsent, -⟩⟩ := exists_of_forall₂ hchosen _ hold
        · rcases List.mem_cons.mp hw with heq | hin
          · cases heq
            exact ⟨new.2, hsets⟩
          · exact absurd (List.mem_map_of_mem hin) hfresh
        · exact absurd List.mem_cons_self habsent
      refine ⟨old.kind, e, h.kind?_of_mem hold, eq_some_iff_sets.mpr hsets, (ih hrest).mpr ?_⟩
      rw [h.entries_enter hold hsets.kind_eq]
      exact ⟨hknown, (forall₂_chosen_put_iff hfresh hsets hnodup hold).mpr hchosen⟩

end IsReadBy
end Form
end Options

/-! ## Bags -/

open Options

variable {t : Target} {o : t.Options}

namespace Options

/-- Whether a value is one for an option that is like the given one by default. -/
def Entry.admits : Entry → Value → Bool
  | .flag _, .boolean _ => true
  | .text _, .string _ => true
  | .text _, .null => true
  | _, _ => false

/-- A value is one for an option exactly if an entry of its kind can be read from it. -/
theorem Entry.admits_iff (d : Entry) (v : Value) :
    d.admits v = true ↔ ∃ e, d.kind.entry? v = some e := by
  rw [← Option.isSome_iff_exists]
  cases d <;> cases v <;> rfl

end Options

namespace Target

/-- The options that a bag is documented to stand for. -/
inductive Documented (t : Target) : Value → t.Options → Prop where
  | null {o : t.Options} (h : t.entries o = t.defaults) : Documented t .null o
  | object {members : List (String × Value)} {o : t.Options}
      (hknown : ∀ m ∈ members, m.1 ∈ Member.names t.defaults)
      (hchosen : List.Forall₂ (Chosen members) t.defaults (t.entries o)) :
      Documented t (.object members) o

/-- Whether a bag is `null`, or an object in which every key is the name of an option and has a
value that the option admits. -/
def Fits (t : Target) : Value → Prop
  | .null => True
  | .object members => ∀ m ∈ members, ∃ d, (m.1, d) ∈ t.defaults ∧ d.admits m.2 = true
  | _ => False

/-- Whether a bag is a list of values that the first options of the target admit, in their
order. -/
def FitsInOrder (t : Target) (bag : Value) : Prop :=
  ∃ items, bag = .array items ∧ items.length ≤ t.defaults.length ∧
    t.Fits (.object ((Member.names t.defaults).zip items))

/-- The names of a form are those of the options that the target documents. -/
theorem names_defaults (t : Target) : t.form.names = Member.names t.defaults := by
  rw [← t.isReadBy_entries.names_entries t.form.empty, t.entries_empty]

/-- Values that are given the names of the options in turn have different names, however many
there are: too many are left over, and too few leave names over. -/
theorem nodup_names_zip {items : List Value} :
    (Member.names ((Member.names t.defaults).zip items)).Nodup := by
  have hsublist : ∀ (given : List String) (items : List Value),
      (Member.names (given.zip items)).Sublist given := by
    intro given
    induction given with
    | nil => exact fun items => .slnil
    | cons name rest ih =>
      intro items
      cases items with
      | nil => exact List.nil_sublist _
      | cons v items => exact (ih items).cons_cons name
  refine (hsublist _ items).nodup ?_
  rw [← t.names_defaults]
  exact t.isReadBy_entries.nodup

/-- Null is decoded to the defaults. -/
theorem decode?_null_eq_ok_iff : t.form.decode? .null = .ok o ↔ t.Documented .null o := by
  constructor
  · intro h
    cases h
    exact .null t.entries_empty
  · rintro ⟨h⟩
    rw [t.isReadBy_entries.ext o t.form.empty (h.trans t.entries_empty.symm)]
    rfl

/-- **An object is decoded as documented**: its keys must be names of options, and each option
is what the member of its name makes of it, or its default. -/
theorem decode?_object_eq_ok_iff {members : List (String × Value)}
    (h : (Member.names members).Nodup) :
    t.form.decode? (.object members) = .ok o ↔ t.Documented (.object members) o := by
  have hmembers : t.form.ofMembers t.form.empty members = .ok o ↔ _ :=
    t.isReadBy_entries.ofMembers_eq_ok_iff h
  rw [t.names_defaults, t.entries_empty] at hmembers
  refine hmembers.trans ⟨fun hboth => .object hboth.1 hboth.2, ?_⟩
  rintro (_ | ⟨hknown, hchosen⟩)
  exact ⟨hknown, hchosen⟩

/-- **A list is decoded as if its items were members** under the names of the first options,
in their order. This is what nothing documents. -/
theorem decode?_array_eq_ok_iff {items : List Value} :
    t.form.decode? (.array items) = .ok o ↔
      items.length ≤ t.defaults.length ∧
        t.Documented (.object ((Member.names t.defaults).zip items)) o := by
  have hitems : t.form.ofItems items.length 0 t.form.empty t.form.fields items = .ok o ↔ _ :=
    Form.ofItems_eq_ok_iff items (Form.kind?_of_mem t.isReadBy_entries.nodup)
  have hlength : t.form.fields.length = t.defaults.length := by
    rw [t.isReadBy_entries.fields_eq t.form.empty, t.entries_empty, List.length_map]
  rw [← decode?_object_eq_ok_iff nodup_names_zip, ← t.names_defaults, ← hlength]
  exact hitems

/-- The objects that are documented to be accepted are those that fit: each member has the
name of an option, and is of its kind. -/
theorem exists_documented_object_iff {members : List (String × Value)}
    (h : (Member.names members).Nodup) :
    (∃ o, t.Documented (.object members) o) ↔ t.Fits (.object members) := by
  have hread := t.isReadBy_entries
  simp only [← decode?_object_eq_ok_iff h]
  refine Iff.trans Form.exists_ofMembers_iff (forall₂_congr fun m hm => ?_)
  rw [← t.entries_empty]
  constructor
  · rintro ⟨kind, e, hkind, hentry⟩
    obtain ⟨d, hd, rfl⟩ := hread.exists_mem_of_kind? hkind t.form.empty
    exact ⟨d, hd, (d.admits_iff m.2).mpr ⟨e, hentry⟩⟩
  · rintro ⟨d, hd, hadmits⟩
    obtain ⟨e, hentry⟩ := (d.admits_iff m.2).mp hadmits
    exact ⟨d.kind, e, hread.kind?_of_mem hd, hentry⟩

/-- The bags that are documented to be accepted are those that fit, whatever they are made of. -/
theorem exists_documented_iff {bag : Value} (h : bag.NamesDistinct) :
    (∃ o, t.Documented bag o) ↔ t.Fits bag := by
  cases bag with
  | null => exact iff_of_true ⟨t.form.empty, .null t.entries_empty⟩ trivial
  | object members => exact exists_documented_object_iff h.1
  | _ => exact iff_of_false (fun ⟨_, hdocumented⟩ => nomatch hdocumented) not_false

/-- A list fits in order exactly if it is taken for options at all. -/
theorem fitsInOrder_array_iff {items : List Value} :
    t.FitsInOrder (.array items) ↔ ∃ o, t.form.decode? (.array items) = .ok o := by
  simp only [decode?_array_eq_ok_iff, exists_and_left]
  rw [exists_documented_object_iff nodup_names_zip]
  constructor
  · rintro ⟨items, heq, hfits⟩
    cases heq
    exact hfits
  · exact fun hfits => ⟨items, rfl, hfits⟩

/-- The order of the members does not matter for what they are documented to stand for. -/
theorem Documented.perm {members members' : List (String × Value)}
    (h : t.Documented (.object members) o) (hperm : members.Perm members') :
    t.Documented (.object members') o := by
  obtain _ | ⟨hknown, hchosen⟩ := h
  have hnames : (Member.names members).Perm (Member.names members') := hperm.map Prod.fst
  refine .object (fun m hm => hknown m (hperm.mem_iff.mpr hm)) (hchosen.imp fun old new hnew => ?_)
  simpa only [Chosen, hperm.mem_iff, hnames.mem_iff] using hnew

end Target

/-! ## Decoding -/

/-- Options are decoded by the form of their target. -/
theorem decodeOptions_eq_ok_iff {bag : Value} :
    decodeOptions t bag = .ok o ↔ t.form.decode? bag = .ok o := by
  rw [decodeOptions]
  cases t.form.decode? bag with
  | ok options =>
    show (.ok options : Except Failure t.Options) = .ok o ↔ _
    simp
  | error misfit => exact iff_of_false nofun nofun

/-- What decoding yields, for a bag that is no list. -/
theorem decodeOptions_eq_ok_iff_documented {bag : Value} (h : bag.NamesDistinct)
    (hlist : ∀ items, bag ≠ .array items) :
    decodeOptions t bag = .ok o ↔ t.Documented bag o := by
  rw [decodeOptions_eq_ok_iff]
  cases bag with
  | null => exact Target.decode?_null_eq_ok_iff
  | object members => exact Target.decode?_object_eq_ok_iff h.1
  | array items => exact absurd rfl (hlist items)
  | _ => exact iff_of_false nofun nofun

/-- **Options are decoded as documented, except from lists.** A bag stands for options if
it is `null` or an object in which every key is the name of an option of the target and
has a value for it, and for nothing else; the options are then as it says and by default
where it says nothing. That is what decoding yields if and only if the bag is no list
that fits the options in their order; such a list is taken for the object that names
them. The order of an object's members makes no difference, and all other bags are
refused as options. -/
theorem options_are_as_documented_iff (t : Target) {bag : Value} (h : bag.NamesDistinct) :
    ((∃ o, t.Documented bag o) ↔ t.Fits bag) ∧
      ((∀ o, decodeOptions t bag = .ok o ↔ t.Documented bag o) ↔ ¬ t.FitsInOrder bag) ∧
      (∀ items, bag = .array items → ∀ o, decodeOptions t bag = .ok o ↔
        items.length ≤ t.defaults.length ∧
          t.Documented (.object ((Member.names t.defaults).zip items)) o) ∧
      (∀ members members', bag = .object members → members.Perm members' →
        ∀ o, decodeOptions t (.object members') = .ok o ↔ decodeOptions t bag = .ok o) ∧
      (¬ t.Fits bag → ¬ t.FitsInOrder bag →
        ∃ misfit, decodeOptions t bag = .error (.invalidOptions t misfit)) := by
  have hdocumented : (∀ o, decodeOptions t bag = .ok o ↔ t.Documented bag o) ↔
      ¬ t.FitsInOrder bag := by
    cases bag with
    | array items =>
      -- nothing is documented for a list, so it must not be taken for options
      have hnone : ∀ o, ¬ t.Documented (.array items) o := fun o hdocumented => nomatch hdocumented
      simp only [Target.fitsInOrder_array_iff, decodeOptions_eq_ok_iff, hnone, iff_false,
        not_exists]
    | _ =>
      refine iff_of_true (fun o => decodeOptions_eq_ok_iff_documented h nofun) ?_
      exact fun ⟨items, heq, _⟩ => nomatch heq
  refine ⟨Target.exists_documented_iff h, hdocumented, ?_, ?_, ?_⟩
  · rintro items rfl o
    rw [decodeOptions_eq_ok_iff, Target.decode?_array_eq_ok_iff]
  · rintro members members' rfl hperm o
    have hnames : (Member.names members').Nodup := (hperm.map Prod.fst).nodup_iff.mp h.1
    rw [decodeOptions_eq_ok_iff, decodeOptions_eq_ok_iff, Target.decode?_object_eq_ok_iff hnames,
      Target.decode?_object_eq_ok_iff h.1]
    exact ⟨fun hdoc => hdoc.perm hperm.symm, fun hdoc => hdoc.perm hperm⟩
  · intro hfits horder
    cases hdecoded : t.form.decode? bag with
    | error misfit =>
      refine ⟨misfit, ?_⟩
      rw [decodeOptions, hdecoded]
      rfl
    | ok o =>
      have hdoc := (hdocumented.mpr horder o).mp (decodeOptions_eq_ok_iff.mpr hdecoded)
      exact absurd ((Target.exists_documented_iff h).mp ⟨o, hdoc⟩) hfits

/-- A bag that has its members in another order than the options, and not all of them. -/
def lombokFirst : Value :=
  .object [("useLombok", .boolean true), ("includeGetterSetter", .boolean false)]

/-- The members of an object may be turned round. -/
theorem options_are_as_documented_iff_lombokFirst :
    lombokFirst.NamesDistinct ∧ (∃ o, Target.java.Documented lombokFirst o) ∧
      decodeOptions .java (.object [("includeGetterSetter", .boolean false),
        ("useLombok", .boolean true)]) =
        .ok { useLombok := true, includeGetterSetter := false } := by
  have hnames : lombokFirst.NamesDistinct := by
    simp [lombokFirst, Value.NamesDistinct, Value.MembersDistinct, Member.names]
  have hfits : Target.java.Fits lombokFirst := by
    simp [lombokFirst, Target.Fits, Target.defaults, Entry.admits]
  obtain ⟨hdocumented, -, -, hperm, -⟩ := options_are_as_documented_iff .java hnames
  exact ⟨hnames, hdocumented.mpr hfits, (hperm _ _ rfl (.swap _ _ _) _).mpr rfl⟩

/-- Lists are accepted: the empty one, which chooses nothing, and one that chooses the
first option without naming it. -/
theorem options_from_lists :
    (decodeOptions .rust (.array []) = .ok { multipleFiles := false } ∧
        ¬ Target.rust.Fits (.array [])) ∧
      decodeOptions .java (.array [.boolean true]) = .ok { multipleFiles := true } ∧
        ¬ Target.java.Fits (.array [.boolean true]) :=
  ⟨⟨rfl, not_false⟩, rfl, not_false⟩

end Shapewright
