/-!
# Parts with separators

Joining parts with a separator between any two, as `List.intercalate` does: what is joined
consists of the separator and the parts, and may be joined in groups.

Main results:

* `mem_intercalate`, `forall_mem_toList_intercalate` — nothing else is in the joined parts.
* `intercalate_head_cons` — what stands first.
* `intercalate_append`, `intercalate_flatten` — parts joined in groups.
* `exists_getLast?_intercalate` — what stands last.
-/

namespace Shapewright.Text

variable {α β : Type}

/-- What stands in a join is from the separator or from a part. This is all that is needed where
a join is only asked which characters it is made of. -/
theorem mem_intercalate {c : α} {sep : List α} {parts : List (List α)}
    (h : c ∈ List.intercalate sep parts) : c ∈ sep ∨ c ∈ parts.flatten := by
  induction parts with
  | nil => exact absurd h List.not_mem_nil
  | cons part others ih =>
    cases others with
    | nil =>
      rw [List.intercalate_singleton] at h
      exact Or.inr (List.mem_flatten.mpr ⟨part, List.mem_singleton_self part, h⟩)
    | cons next more =>
      rw [List.intercalate_cons_cons, List.mem_append, List.mem_append] at h
      rw [List.flatten_cons, List.mem_append]
      -- it stands in the first part, in the separator behind it, or in the join of the others
      rcases h with (hpart | hsep) | hrest
      · exact Or.inr (Or.inl hpart)
      · exact Or.inl hsep
      · exact (ih hrest).imp_right Or.inr

/-- What begins the first part begins the whole. -/
theorem intercalate_head_cons (sep : List α) (x : α) (part : List α) (others : List (List α)) :
    sep.intercalate ((x :: part) :: others) = x :: sep.intercalate (part :: others) := by
  cases others with
  | nil => rw [List.intercalate_singleton, List.intercalate_singleton]
  | cons next more =>
    rw [List.intercalate_cons_cons, List.intercalate_cons_cons, List.cons_append, List.cons_append]

/-- Two lists of parts are joined with one more separator between them. Neither may be empty, as
there would be nothing to separate. -/
theorem intercalate_append {sep : List α} {xs ys : List (List α)} (hx : xs ≠ []) (hy : ys ≠ []) :
    sep.intercalate (xs ++ ys) = sep.intercalate xs ++ sep ++ sep.intercalate ys := by
  induction xs with
  | nil => exact absurd rfl hx
  | cons x more ih =>
    cases more with
    | nil => rw [List.singleton_append, List.intercalate_cons_of_ne_nil hy,
        List.intercalate_singleton]
    | cons next more =>
      have hmore := ih (List.cons_ne_nil next more)
      simp only [List.cons_append, List.intercalate_cons_cons, List.append_assoc] at hmore ⊢
      rw [hmore]

/-- Parts may be joined block by block, and the blocks by the same separator afterwards. An empty
block would leave a separator too many. -/
theorem intercalate_flatten {sep : List α} {blocks : List (List (List α))} (h : [] ∉ blocks) :
    sep.intercalate blocks.flatten =
      sep.intercalate (blocks.map fun block => sep.intercalate block) := by
  induction blocks with
  | nil => rfl
  | cons block more ih =>
    rw [List.mem_cons, not_or] at h
    have hmore := ih h.2
    cases more with
    | nil => simp
    | cons next more =>
      -- between two blocks there is one separator only if something follows
      have hnext : (next :: more).flatten ≠ [] := by
        rw [List.flatten_cons]
        exact List.append_ne_nil_of_left_ne_nil
          (fun hnil => h.2 (hnil ▸ List.mem_cons_self)) _
      rw [List.flatten_cons, intercalate_append (Ne.symm h.1) hnext, hmore]
      simp only [List.map_cons, List.intercalate_cons_cons]

/-- What is done to all characters is done to the separator and to each part. -/
theorem map_intercalate (f : α → β) (sep : List α) (xs : List (List α)) :
    (sep.intercalate xs).map f = (sep.map f).intercalate (xs.map (List.map f)) := by
  induction xs with
  | nil => rfl
  | cons x more ih =>
    cases more with
    | nil => rw [List.map_singleton, List.intercalate_singleton, List.intercalate_singleton]
    | cons next more =>
      simp only [List.map_cons, List.intercalate_cons_cons, List.map_append] at ih ⊢
      rw [ih]

/-- What is picked out of joined parts, if nothing is picked out of the separator. -/
theorem filterMap_intercalate {f : α → Option β} {sep : List α} (h : sep.filterMap f = [])
    (parts : List (List α)) :
    (sep.intercalate parts).filterMap f = parts.flatten.filterMap f := by
  induction parts with
  | nil => rfl
  | cons part more ih =>
    cases more with
    | nil => rw [List.intercalate_singleton, List.flatten_singleton]
    | cons next more =>
      rw [List.intercalate_cons_cons, List.filterMap_append, List.filterMap_append, h,
        List.append_nil, ih, ← List.filterMap_append]
      rfl

/-- What holds of the characters of the separator and of the parts holds of all characters of
the joined text. -/
theorem forall_mem_toList_intercalate {P : Char → Prop} {separator : String}
    (hseparator : ∀ c ∈ separator.toList, P c) {texts : List String}
    (h : ∀ text ∈ texts, ∀ c ∈ text.toList, P c) :
    ∀ c ∈ (separator.intercalate texts).toList, P c := by
  intro c hc
  rw [String.toList_intercalate] at hc
  rcases mem_intercalate hc with hseparated | hinside
  · exact hseparator c hseparated
  · obtain ⟨_, hpart, hc⟩ := List.mem_flatten.mp hinside
    obtain ⟨text, htext, rfl⟩ := List.mem_map.mp hpart
    exact h text htext c hc

/-- If no part is empty, a join ends in a character of one of its parts and not in the
separator. -/
theorem exists_getLast?_intercalate {sep : List α} {parts : List (List α)} (hne : parts ≠ [])
    (h : ∀ part ∈ parts, part ≠ []) :
    ∃ x ∈ (sep.intercalate parts).getLast?, ∃ part ∈ parts, x ∈ part := by
  induction parts with
  | nil => exact absurd rfl hne
  | cons part more ih =>
    obtain ⟨hpart, hmore⟩ := List.forall_mem_cons.mp h
    cases more with
    | nil =>
      -- the induction ends at the last part, which has a last character
      obtain ⟨x, hx⟩ := Option.ne_none_iff_exists'.mp (mt List.getLast?_eq_none_iff.mp hpart)
      rw [List.intercalate_singleton]
      exact ⟨x, hx, part, List.mem_cons_self, List.mem_of_getLast? hx⟩
    | cons next more =>
      obtain ⟨x, hx, other, hother, hmem⟩ := ih (List.cons_ne_nil _ _) hmore
      refine ⟨x, ?_, other, List.mem_cons_of_mem _ hother, hmem⟩
      rw [List.intercalate_cons_cons, List.getLast?_append, hx, Option.some_or]
      rfl

end Shapewright.Text
