import Mathlib.Data.List.Chain
import Shapewright.Proofs.Name.Humps

/-!
# Underscores in snake case

An underscore in snake case stands between two humps, or in front of all of them. So
there are never two of them in a row, whatever the text.

Main definitions:

* `IsSpaced` — no underscore follows another one.

Main results:

* `isSpaced_snake` — snake case is like that.
* `snakeCase_ne_append_underscores` — nothing with two underscores in it is snake case.
-/

namespace Shapewright.Name

/-- No underscore follows another one. -/
def IsSpaced (cs : List Char) : Prop := cs.IsChain fun c d => ¬ (c = '_' ∧ d = '_')

/-- Without underscores there are no two in a row. -/
theorem isSpaced_of_not_mem {cs : List Char} (h : '_' ∉ cs) : IsSpaced cs := by
  rw [IsSpaced, List.isChain_iff_forall_rel_of_append_cons_cons]
  rintro c d front back rfl ⟨rfl, -⟩
  exact h (by simp)

/-- An underscore between parts does not meet another one, as there is none in a part and no
part is empty. -/
theorem isSpaced_intercalate {parts : List (List Char)}
    (h : ∀ part ∈ parts, part ≠ [] ∧ '_' ∉ part) : IsSpaced (List.intercalate ['_'] parts) := by
  induction parts with
  | nil => exact .nil
  | cons part more ih =>
    obtain ⟨⟨-, hpart⟩, hmore⟩ := List.forall_mem_cons.mp h
    cases more with
    | nil =>
      rw [List.intercalate_singleton]
      exact isSpaced_of_not_mem hpart
    | cons next others =>
      -- a part begins and ends with something else than an underscore
      have hhead := not_mem_head?_intercalate hmore
      rw [List.intercalate_cons_cons, List.append_assoc, List.singleton_append]
      refine List.isChain_append.mpr ⟨isSpaced_of_not_mem hpart, ?_, ?_⟩
      · -- the separator is followed by the first character of the next part
        refine List.isChain_cons.mpr ⟨?_, ih hmore⟩
        rintro d hd ⟨-, rfl⟩
        exact hhead hd
      · rintro d hd - - ⟨rfl, -⟩
        exact hpart (List.mem_of_getLast? hd)

/-- The underscore that mends a text is the only one at its beginning. -/
theorem isSpaced_finish {cs : List Char} (h : IsSpaced cs) : IsSpaced (finish cs) := by
  cases cs with
  | nil => exact .singleton '_'
  | cons c rest =>
    rw [finish]
    split
    · next hdigit =>
      refine List.isChain_cons.mpr ⟨?_, h⟩
      rintro d hd ⟨-, rfl⟩
      obtain rfl : c = '_' := Option.some.inj hd
      exact absurd hdigit (by decide)
    · exact h

/-- **No underscore follows another one in snake case**: humps are not empty, and none has an
underscore in it. -/
theorem isSpaced_snake (cs : List Char) : IsSpaced (snake cs) := by
  rw [snake_eq_finish]
  exact isSpaced_finish (isSpaced_intercalate fun _ => not_mem_of_mem_allHumps)

/-- So a text with two underscores in a row is no key's snake case. -/
theorem snakeCase_ne_append_underscores (key front back : String) :
    snakeCase key ≠ front ++ "__" ++ back := by
  intro h
  have hsnake : snake key.toList = front.toList ++ '_' :: '_' :: back.toList := by
    have hlists := congrArg String.toList h
    rw [snakeCase, String.toList_ofList, String.toList_append, String.toList_append,
      List.append_assoc] at hlists
    exact hlists
  have hspaced := isSpaced_snake key.toList
  rw [hsnake, IsSpaced, List.isChain_append_cons_cons] at hspaced
  exact hspaced.2.1 ⟨rfl, rfl⟩

end Shapewright.Name
