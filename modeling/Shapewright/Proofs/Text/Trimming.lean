import Mathlib.Data.List.Basic
import Shapewright.Text.Blank

/-!
# Trimmed texts

What is left of a text without the blanks at its ends neither begins nor ends with a
blank, and that says all about it: a text has one such part with nothing but blanks
around.

Main definition: `IsTrimmed` — a part of a text has nothing but blanks around it, and
none at its own ends.

Main results:

* `isTrimmed_iff` — trimming leaves this part.
* `trim_eq_nil_iff` — nothing is left of blanks alone.
-/

namespace Shapewright.Text

/-- Around the part of the text that is inside there is nothing but blanks, and it has
no blank at its own ends. -/
structure IsTrimmed (inside cs : List Char) : Prop where
  around : ∃ front back, cs = front ++ (inside ++ back) ∧
    (∀ c ∈ front, isSpace c = true) ∧ ∀ c ∈ back, isSpace c = true
  first : ∀ c ∈ inside.head?, isSpace c = false
  last : ∀ c ∈ inside.getLast?, isSpace c = false

/-- No blank is left in front. -/
theorem isSpace_of_head?_trimStart {cs : List Char} :
    ∀ c ∈ (trimStart cs).head?, isSpace c = false := by
  intro c hc
  have hhead := List.head?_dropWhile_not isSpace cs
  rw [trimStart, Option.mem_def] at hc
  rw [hc] at hhead
  exact hhead

/-- Blanks in front are trimmed up to the first character that is none. -/
theorem trimStart_append {front rest : List Char} (hfront : ∀ c ∈ front, isSpace c = true)
    (hrest : ∀ c ∈ rest.head?, isSpace c = false) : trimStart (front ++ rest) = rest := by
  rw [trimStart, List.dropWhile_append_of_pos hfront]
  cases rest with
  | nil => rfl
  | cons c tail => exact List.dropWhile_cons_of_neg (by simp [hrest c rfl])

/-- The end of a text is the beginning of the text backwards. -/
theorem trimEnd_eq (cs : List Char) : trimEnd cs = (trimStart cs.reverse).reverse := rfl

/-- What is trimmed at the end was at the end, and it was blanks. -/
theorem exists_eq_append_trimEnd (cs : List Char) :
    ∃ back, cs = trimEnd cs ++ back ∧ ∀ c ∈ back, isSpace c = true := by
  refine ⟨(cs.reverse.takeWhile isSpace).reverse, ?_, ?_⟩
  · rw [trimEnd, ← List.reverse_append, List.takeWhile_append_dropWhile, List.reverse_reverse]
  · intro c hc
    exact List.all_eq_true.mp List.all_takeWhile c (List.mem_reverse.mp hc)

/-- **What trimming does**: blanks are taken off at both ends, none is left there, and nothing
between is changed. -/
theorem isTrimmed_trim (cs : List Char) : IsTrimmed (trim cs) cs where
  around := by
    obtain ⟨back, hback, hblank⟩ := exists_eq_append_trimEnd (trimStart cs)
    refine ⟨cs.takeWhile isSpace, back, ?_, ?_, hblank⟩
    · rw [trim, ← hback, trimStart, List.takeWhile_append_dropWhile]
    · exact List.all_eq_true.mp List.all_takeWhile
  first := by
    intro c hc
    -- what is left begins like the text without the blanks in front
    obtain ⟨back, hback, -⟩ := exists_eq_append_trimEnd (trimStart cs)
    have hhead : c ∈ (trimStart cs).head? := by
      rw [hback, List.head?_append, ← trim, Option.mem_def.mp hc]
      rfl
    exact isSpace_of_head?_trimStart c hhead
  last := by
    rw [trim, trimEnd_eq, List.getLast?_reverse]
    exact isSpace_of_head?_trimStart

/-- Trimming leaves the one part that has nothing but blanks around it, and none at its
ends. -/
theorem isTrimmed_iff {inside cs : List Char} : IsTrimmed inside cs ↔ inside = trim cs := by
  constructor
  · rintro ⟨⟨front, back, rfl, hfront, hback⟩, hfirst, hlast⟩
    have hend : trimEnd (inside ++ back) = inside := by
      have hreverse : ∀ c ∈ back.reverse, isSpace c = true := fun c hc =>
        hback c (List.mem_reverse.mp hc)
      rw [trimEnd_eq, List.reverse_append,
        trimStart_append hreverse (by rwa [List.head?_reverse]), List.reverse_reverse]
    cases inside with
    | nil =>
      -- there is nothing but blanks, and all of them are in front
      have hall := trimStart_append (List.forall_mem_append.mpr ⟨hfront, hback⟩)
        (fun c (hc : c ∈ [].head?) => nomatch hc)
      rw [List.append_nil] at hall
      rw [trim, List.nil_append, hall]
      rfl
    | cons c rest =>
      have hstart : trimStart (front ++ (c :: rest ++ back)) = c :: rest ++ back :=
        trimStart_append hfront hfirst
      rw [trim, hstart, hend]
  · rintro rfl
    exact isTrimmed_trim cs

/-- Only a text of nothing but blanks is trimmed to nothing. -/
theorem trim_eq_nil_iff {cs : List Char} : trim cs = [] ↔ ∀ c ∈ cs, isSpace c = true := by
  constructor
  · intro h
    obtain ⟨front, back, hcs, hfront, hback⟩ := (isTrimmed_iff.mpr h.symm).around
    rw [hcs]
    exact List.forall_mem_append.mpr ⟨hfront, hback⟩
  · intro h
    have hnothing : IsTrimmed [] cs := {
      around := ⟨cs, [], (List.append_nil cs).symm, h, nofun⟩
      first := nofun
      last := nofun }
    exact (isTrimmed_iff.mp hnothing).symm

end Shapewright.Text
