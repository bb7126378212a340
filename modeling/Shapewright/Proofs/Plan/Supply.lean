import Mathlib.Data.List.Nodup
import Shapewright.Dialect.Render
import Shapewright.Proofs.Name.Letters

/-!
# The supply of names

A name that is in use gives way to a numbered one, and a free number is always
found: the numbered names are spelled differently from one another, and only so
many spellings are reserved or in use.

This needs nothing of a target but that numbers survive its spelling
(`Reserved.Escapable`). A list of names spells them as they are. C spells type
names in snake case, so that one reserved word stands for infinitely many names;
but casing keeps digits.

Main results:

* `Reserved.Admitted.escapable` — numbers survive with every list of names and
  with every target.
* `claim_isFree` — a claimed name is free.
* `firstFree_eq` — it is the first free candidate.
-/

namespace Shapewright

namespace Naming

/-! ## Numbered names -/

/-- The names to try for `stem`, in order: the plain one, then those with a
number from two on. -/
def candidate (stem : String) : Nat → String
  | 0 => stem
  | i + 1 => stem ++ toString (i + 2)

/-- The candidates are numbered from nought on, the plain name being the first. -/
theorem candidates_eq (stem : String) (numbers : Nat) :
    candidates stem numbers = (List.range (numbers + 1)).map (candidate stem) := by
  rw [candidates, List.range_succ_eq_map, List.map_cons, List.map_map]
  rfl

/-- The digits behind the stem; none behind the plain name. -/
def suffixDigits : Nat → List Char
  | 0 => []
  | i + 1 => Nat.toDigits 10 (i + 2)

/-- A candidate is the stem with its digits behind. -/
theorem toList_candidate (stem : String) (i : Nat) :
    (candidate stem i).toList = stem.toList ++ suffixDigits i := by
  cases i with
  | zero => simp [candidate, suffixDigits]
  | succ i => simp [candidate, suffixDigits, Nat.toString_eq_repr]

/-- A number behind a name is written by digits alone, so that it ends where the name begins. -/
theorem isDigit_suffixDigits (i : Nat) : ∀ c ∈ suffixDigits i, c.isDigit = true := by
  intro c hc
  cases i with
  | zero => exact absurd hc List.not_mem_nil
  | succ i => exact Nat.isDigit_of_mem_toDigits (by omega) (by omega) hc

/-- Numbers are read back from their digits; the plain name is told by having none. -/
theorem suffixDigits_injective {i j : Nat} (h : suffixDigits i = suffixDigits j) : i = j := by
  have hread := congrArg (fun ds => Nat.ofDigitChars 10 ds 0) h
  cases i with
  | zero =>
    cases j with
    | zero => rfl
    | succ j => exact absurd h.symm Nat.toDigits_ne_nil
  | succ i =>
    cases j with
    | zero => exact absurd h Nat.toDigits_ne_nil
    | succ j =>
      simp only [suffixDigits, Nat.ofDigitChars_ten_toDigits] at hread
      omega

end Naming

open Naming

/-! ## Which names run out -/

namespace Reserved

/-- Whether a name is reserved is asked of the name as it is spelled. -/
theorem holds_iff {r : Reserved} {name : String} :
    r.holds name = true ↔ r.spell name ∈ r.words := List.contains_iff_mem

/-- Numbers survive the spelling: no two candidates for one stem are spelled alike. -/
def Escapable (r : Reserved) : Prop :=
  ∀ (stem : String) (i j : Nat), r.spell (candidate stem i) = r.spell (candidate stem j) → i = j

/-- What may be reserved: a list of names, or what one of the targets reserves. -/
def Admitted (r : Reserved) : Prop :=
  (∃ words : List String, r = .ofList words) ∨ ∃ t : Target, r = t.reserved

/-- Where names are reserved as they are, no two candidates are one name. -/
theorem escapable_ofList (words : List String) : (ofList words).Escapable := by
  intro stem i j h
  have hlist : (candidate stem i).toList = (candidate stem j).toList := congrArg String.toList h
  rw [toList_candidate, toList_candidate, List.append_cancel_left_eq] at hlist
  exact suffixDigits_injective hlist

/-- The digits of a candidate are the last letters of its snake case. -/
theorem escapable_c : C.reserved.Escapable := by
  intro stem i j h
  have hspelled : C.typeName (candidate stem i) = C.typeName (candidate stem j) := h
  have hlist := congrArg String.toList hspelled
  simp only [C.typeName, Name.snakeCase, String.toList_append, String.toList_ofList,
    List.append_cancel_right_eq] at hlist
  have hletters := congrArg Name.letters hlist
  rw [Name.letters_snake, Name.letters_snake, toList_candidate, toList_candidate,
    Name.letters_append, Name.letters_append, List.append_cancel_left_eq,
    Name.letters_of_isDigit (isDigit_suffixDigits i),
    Name.letters_of_isDigit (isDigit_suffixDigits j)] at hletters
  exact suffixDigits_injective hletters

/-- Whatever may be reserved, the candidates for a stem stay apart. Only one target reserves
names by another spelling than their own. -/
theorem Admitted.escapable {r : Reserved} (h : r.Admitted) : r.Escapable := by
  obtain ⟨words, rfl⟩ | ⟨t, rfl⟩ := h
  · exact escapable_ofList words
  · cases t with
    | c => exact escapable_c
    | _ => exact escapable_ofList _

end Reserved

/-! ## The search for a free name -/

namespace Naming

variable {r : Reserved} {taken : List String}

/-- A name is free if it is neither reserved nor taken. -/
theorem isFree_iff {name : String} :
    isFree r taken name = true ↔ r.holds name = false ∧ name ∉ taken := by
  simp [isFree]

/-- One candidate is left over: there is one more of them than there are
spellings that are reserved or in use. -/
theorem exists_isFree (h : r.Escapable) (taken : List String) (stem : String) :
    ∃ i, i ≤ taken.length + r.words.length ∧ isFree r taken (candidate stem i) = true := by
  refine Classical.byContradiction fun hnone => ?_
  -- otherwise every candidate is spelled like a word or a name in use
  have hcaught : ∀ i ∈ List.range (taken.length + r.words.length + 1),
      r.spell (candidate stem i) ∈ taken.map r.spell ++ r.words := by
    intro i hi
    rw [List.mem_range] at hi
    have hbusy : ¬ isFree r taken (candidate stem i) = true :=
      fun hfree => hnone ⟨i, by omega, hfree⟩
    rw [isFree_iff, not_and_or, Bool.not_eq_false, Classical.not_not] at hbusy
    rw [List.mem_append]
    rcases hbusy with hholds | hmem
    · exact Or.inr (Reserved.holds_iff.mp hholds)
    · exact Or.inl (List.mem_map_of_mem hmem)
  -- but there are too many of them, as no two are spelled alike
  have hnodup : ((List.range (taken.length + r.words.length + 1)).map
      fun i => r.spell (candidate stem i)).Nodup :=
    List.Nodup.map_on (fun i _ j _ hij => h stem i j hij) List.nodup_range
  have hle := List.Nodup.length_le_of_subset hnodup fun name hname => by
    obtain ⟨i, hi, rfl⟩ := List.mem_map.mp hname
    exact hcaught i hi
  rw [List.length_map, List.length_range, List.length_append, List.length_map] at hle
  omega

/-- The chosen candidate is the first free one: it is free, and all that come before it are
not. -/
theorem firstFree_eq (h : r.Escapable) (taken : List String) (stem : String) :
    ∃ i, firstFree r taken stem = candidate stem i ∧
      isFree r taken (candidate stem i) = true ∧
      ∀ j < i, isFree r taken (candidate stem j) = false := by
  obtain ⟨n, hn, hfree⟩ := exists_isFree h taken stem
  -- a free candidate is among the first ones, more than names are in use, so the search finds
  -- one
  have hsome : ((List.range (taken.length + r.words.length + 1)).find?
      fun i => isFree r taken (candidate stem i)).isSome = true := by
    rw [List.find?_isSome]
    exact ⟨n, List.mem_range.mpr (by omega), hfree⟩
  obtain ⟨i, hi⟩ := Option.isSome_iff_exists.mp hsome
  have hspec := List.find?_range_eq_some.mp hi
  refine ⟨i, ?_, hspec.1, fun j hj => ?_⟩
  · -- the candidates are searched in the order of their numbers
    rw [firstFree, candidates_eq, List.find?_map]
    show (((List.range _).find? fun i => isFree r taken (candidate stem i)).map
      (candidate stem)).getD stem = candidate stem i
    rw [hi]
    rfl
  · have hbusy := hspec.2.2 j hj
    rwa [Bool.not_eq_true'] at hbusy

/-- **The search for a free name finds one.** More candidates are tried than names are in use
or reserved, and no two candidates are equal, so that not all of them can be taken. -/
theorem firstFree_isFree (h : r.Escapable) (taken : List String) (stem : String) :
    isFree r taken (firstFree r taken stem) = true := by
  obtain ⟨i, hi, hfree, -⟩ := firstFree_eq h taken stem
  rw [hi]
  exact hfree

/-- So a claimed name is free, whether it had to be searched for or not. -/
theorem claim_isFree (h : r.Escapable) (taken : List String) (base parent : String) :
    isFree r taken (claim r taken base parent) = true := by
  rw [claim]
  split
  · next hfree => exact hfree
  · exact firstFree_isFree h taken _

end Naming
end Shapewright
