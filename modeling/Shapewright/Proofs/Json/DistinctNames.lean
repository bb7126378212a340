import Shapewright.Json.Reader

/-!
# Names of members

No object of a document has two members of one name: a name that is repeated in a
text replaces the value that was there. With distinct names, looking a member up
by its name finds it.

Main definitions:

* `Value.NamesDistinct` — the members of every object have different names.

Main results:

* `Member.get?_of_mem` — every member is found by its name.
* `Value.namesDistinct_of_parse` — the names are distinct in a document that was
  read.
-/

namespace Shapewright.Json

namespace Member

variable {α β : Type}

/-- Where no two members have one name, each is found by its own. -/
theorem get?_of_mem {members : List (String × α)} (h : (names members).Nodup) :
    ∀ m ∈ members, get? m.1 members = some m.2 := by
  induction members with
  | nil => exact fun m hm => absurd hm List.not_mem_nil
  | cons first rest ih =>
    intro m hm
    rw [names, List.map_cons, List.nodup_cons] at h
    rw [get?]
    rcases List.mem_cons.mp hm with rfl | hrest
    · rw [if_pos rfl]
    · -- a later member has another name than the first one
      have hne : first.1 ≠ m.1 := fun heq => h.1 (heq ▸ List.mem_map_of_mem hrest)
      rw [if_neg hne]
      exact ih h.2 m hrest

/-- What is found is a member. -/
theorem mem_of_get? {name : String} {value : α} {members : List (String × α)}
    (h : get? name members = some value) : (name, value) ∈ members := by
  induction members with
  | nil => cases h
  | cons first rest ih =>
    rw [get?] at h
    split at h
    · next heq =>
      cases h
      rw [← heq]
      exact List.mem_cons_self
    · exact List.mem_cons_of_mem first (ih h)

/-- What is done to all values is done to the one that is found. -/
theorem get?_map (f : α → β) (name : String) (members : List (String × α)) :
    get? name (members.map fun m => (m.1, f m.2)) = (get? name members).map f := by
  induction members with
  | nil => rfl
  | cons first rest ih =>
    rw [List.map_cons, get?, get?]
    split
    · rfl
    · exact ih

theorem names_map (f : α → β) (members : List (String × α)) :
    names (members.map fun m => (m.1, f m.2)) = names members := by
  rw [names, List.map_map, names]
  rfl

/-- Setting a member keeps what holds of all values: the new one is the only one that was not
there. -/
theorem forall_put {P : α → Prop} {name : String} {value : α} {members : List (String × α)}
    (hvalue : P value) (hmembers : ∀ m ∈ members, P m.2) :
    ∀ m ∈ put name value members, P m.2 := by
  induction members with
  | nil =>
    intro m hm
    rw [put, List.mem_singleton] at hm
    rw [hm]
    exact hvalue
  | cons first rest ih =>
    intro m hm
    rw [put] at hm
    -- a value is put in the place of one that has the name, or goes on to the end
    split at hm
    · rcases List.mem_cons.mp hm with rfl | hrest
      · exact hvalue
      · exact hmembers m (List.mem_cons_of_mem first hrest)
    · rcases List.mem_cons.mp hm with rfl | hrest
      · exact hmembers _ List.mem_cons_self
      · exact ih (fun n hn => hmembers n (List.mem_cons_of_mem first hn)) m hrest

end Member

namespace Value

mutual

/-- In no object of the value do two members have the same name. -/
def NamesDistinct : Value → Prop
  | .array items => ItemsDistinct items
  | .object members => (Member.names members).Nodup ∧ MembersDistinct members
  | _ => True

def ItemsDistinct : List Value → Prop
  | [] => True
  | v :: rest => NamesDistinct v ∧ ItemsDistinct rest

def MembersDistinct : List (String × Value) → Prop
  | [] => True
  | (_, v) :: rest => NamesDistinct v ∧ MembersDistinct rest

end

/-- Items and members have distinct names in them if each has. The recursions are the usual
ones over lists. -/
theorem itemsDistinct_iff {items : List Value} :
    ItemsDistinct items ↔ ∀ v ∈ items, v.NamesDistinct := by
  induction items with
  | nil => simp [ItemsDistinct]
  | cons v rest ih => rw [ItemsDistinct, List.forall_mem_cons, ih]

theorem membersDistinct_iff {members : List (String × Value)} :
    MembersDistinct members ↔ ∀ m ∈ members, m.2.NamesDistinct := by
  induction members with
  | nil => simp [MembersDistinct]
  | cons m rest ih => rw [MembersDistinct, List.forall_mem_cons, ih]

end Value

/-! ## Documents that are read -/

namespace Reader

open Value

/-- What is in an open container has distinct names. -/
def Frame.Distinct : Frame → Prop
  | .list items => ItemsDistinct items
  | .member members _ => NamesDistinct (.object members)

/-- So have all values that have been read, the members of open objects among them. -/
def State.Distinct : State → Prop
  | .value outer | .firstItem outer | .firstKey outer => ∀ frame ∈ outer, frame.Distinct
  | .nextItem items outer | .itemEnd items outer =>
    ItemsDistinct items ∧ ∀ frame ∈ outer, frame.Distinct
  | .nextKey members outer | .colon members _ outer | .memberEnd members outer =>
    NamesDistinct (.object members) ∧ ∀ frame ∈ outer, frame.Distinct
  | .finished v => v.NamesDistinct

theorem namesDistinct_empty : NamesDistinct (.object []) := ⟨List.nodup_nil, trivial⟩

/-- A finished value goes to the container around it, or is the document. An item has no name
to repeat, and a member is put under its name in the place of an older one. -/
theorem deliver_distinct {v : Value} {outer : List Frame} (hv : v.NamesDistinct)
    (houter : ∀ frame ∈ outer, frame.Distinct) : (deliver v outer).Distinct := by
  cases outer with
  | nil => exact hv
  | cons frame outer =>
    obtain ⟨hframe, hrest⟩ := List.forall_mem_cons.mp houter
    cases frame with
    -- the value becomes an item, or the value of the key that is waiting for it
    | list items => exact ⟨⟨hv, hframe⟩, hrest⟩
    | member members key =>
      have hmembers := membersDistinct_iff.mp hframe.2
      refine ⟨⟨Member.nodup_names_put key v hframe.1, membersDistinct_iff.mpr ?_⟩, hrest⟩
      exact Member.forall_put hv hmembers

/-- Where a value begins, it is complete at once or opens a container without members, and in
either case nothing is repeated. -/
theorem stepValue_distinct {outer : List Frame} {l : Lexeme} {s : State}
    (houter : ∀ frame ∈ outer, frame.Distinct) (h : stepValue outer l = .ok s) : s.Distinct := by
  -- a container is opened with nothing in it, unless there are too many
  have hopened {inside s : State} (hinside : inside.Distinct)
      (h : (if maxOpen ≤ outer.length then .error (within outer .tooDeep l.ahead)
        else .ok inside : Except Failure State) = .ok s) : s.Distinct := by
    split at h
    · cases h
    · cases h
      exact hinside
  rw [stepValue] at h
  cases htoken : l.token with
  | null | boolean | number | string =>
    rw [htoken] at h
    cases h
    exact deliver_distinct trivial houter
  | openArray =>
    rw [htoken] at h
    have hinside : (State.firstItem outer).Distinct := houter
    exact hopened hinside h
  | openObject =>
    rw [htoken] at h
    have hinside : (State.firstKey outer).Distinct := houter
    exact hopened hinside h
  | _ =>
    rw [htoken] at h
    cases h

/-- A name that is read is kept aside until its value is there. -/
theorem stepKey_distinct {members : List (String × Value)} {outer : List Frame} {l : Lexeme}
    {s : State} (hmembers : NamesDistinct (.object members))
    (houter : ∀ frame ∈ outer, frame.Distinct) (h : stepKey members outer l = .ok s) :
    s.Distinct := by
  rw [stepKey] at h
  split at h
  · cases h
    exact ⟨hmembers, houter⟩
  · cases h
  · cases h

/-- **A token keeps the names distinct**, in the objects that are open and in the values that
are finished. Names are only added where a member is put, and putting replaces a member of the
same name. -/
theorem step_distinct {s t : State} {l : Lexeme} (hs : s.Distinct) (h : step s l = .ok t) :
    t.Distinct := by
  cases s with
  | value outer => exact stepValue_distinct hs h
  -- a list has no names, but the values inside it have
  | firstItem outer =>
    rw [step] at h
    split at h
    · cases h
      exact deliver_distinct trivial hs
    · have hframes : ∀ frame ∈ Frame.list [] :: outer, frame.Distinct :=
        List.forall_mem_cons.mpr ⟨trivial, hs⟩
      exact stepValue_distinct hframes h
  | nextItem items outer =>
    rw [step] at h
    split at h
    · cases h
    · have hframes : ∀ frame ∈ Frame.list items :: outer, frame.Distinct :=
        List.forall_mem_cons.mpr hs
      exact stepValue_distinct hframes h
  | itemEnd items outer =>
    rw [step] at h
    split at h
    · cases h
      refine deliver_distinct (itemsDistinct_iff.mpr fun v hv => ?_) hs.2
      exact itemsDistinct_iff.mp hs.1 v (List.mem_reverse.mp hv)
    · cases h
      exact hs
    · cases h
  -- an object is empty in front of its first key
  | firstKey outer =>
    rw [step] at h
    split at h
    · cases h
      exact deliver_distinct namesDistinct_empty hs
    · exact stepKey_distinct namesDistinct_empty hs h
  | nextKey members outer =>
    rw [step] at h
    split at h
    · cases h
    · exact stepKey_distinct hs.1 hs.2 h
  | colon members key outer =>
    rw [step] at h
    split at h
    · cases h
      exact List.forall_mem_cons.mpr hs
    · cases h
  -- the value was put into the object by now, and the object is a value of what is around it
  | memberEnd members outer =>
    rw [step] at h
    split at h
    · cases h
      exact deliver_distinct hs.1 hs.2
    · cases h
      exact hs
    · cases h
  | finished v =>
    cases h
    exact hs

/-- All tokens of a text keep the names distinct, and so the value that they are has distinct
names. The induction is on the tokens, and what it carries is about all containers that are
open. -/
theorem run_distinct {finish : Position} {v : Value} {rest : List Lexeme} (ls : List Lexeme) :
    ∀ {s : State}, s.Distinct → run finish s ls = .ok (v, rest) → v.NamesDistinct := by
  induction ls with
  | nil =>
    intro s hs h
    cases s with
    | finished w =>
      cases h
      exact hs
    | _ => cases h
  | cons l ls ih =>
    intro s hs h
    cases s with
    | finished w =>
      -- the tokens that follow are left alone
      cases h
      exact hs
    | _ =>
      rw [run] at h
      · split at h
        · next hstep => exact ih (step_distinct hs hstep) h
        · cases h
      · exact nofun

end Reader

/-- A document that was read has distinct names. -/
theorem Value.namesDistinct_of_parse {text : String} {v : Value} (h : Value.parse text = .ok v) :
    v.NamesDistinct := by
  have hstart : (Reader.State.value []).Distinct := fun _ hframe => absurd hframe List.not_mem_nil
  rw [Value.parse] at h
  split at h
  · cases h
  · next hread =>
    cases h
    exact Reader.run_distinct _ hstart hread
  · cases h

end Shapewright.Json
