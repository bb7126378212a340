import Shapewright.Command.Documents
import Shapewright.Proofs.Files.Writing

/-!
# Places of joined paths

A name without slashes inside a directory leads one step on from where the directory is.
Names of declared files and the names that sources are called by are of this kind. The
former always lead to an entry of the directory; the latter do so but for those made of
points, which files can be called by whose names begin with several of them.

Main results:

* `Files.placeOf_join` — the place of a name inside a directory.
* `Files.next_fileName` — where the name of a declared file leads.
* `Source.stem_form` — the names that sources are called by.
-/

namespace Shapewright

/-! ## Pieces -/

namespace Text

/-- A separator ends one piece and begins another. -/
theorem pieces_append_separator (separator : Char) (xs ys : List Char) :
    pieces separator (xs ++ separator :: ys) = pieces separator xs ++ pieces separator ys := by
  induction xs with
  | nil => simp [pieces]
  | cons c rest ih =>
    rw [List.cons_append, pieces, pieces, ih]
    split
    · rfl
    · -- the character is put in front of the first piece, which is in the left part
      obtain ⟨piece, more, hpieces⟩ := List.exists_cons_of_ne_nil (pieces_ne_nil separator rest)
      rw [hpieces]
      rfl

/-- A text without separators is one piece. -/
theorem pieces_of_not_mem {separator : Char} {cs : List Char} (h : separator ∉ cs) :
    pieces separator cs = [cs] := by
  induction cs with
  | nil => rfl
  | cons c rest ih =>
    rw [List.mem_cons, not_or] at h
    rw [pieces, if_neg (Ne.symm h.1), ih h.2]

/-- There is no separator in a piece: each ends where one is. -/
theorem not_mem_of_mem_pieces {separator : Char} {cs piece : List Char}
    (h : piece ∈ pieces separator cs) : separator ∉ piece := by
  induction cs generalizing piece with
  | nil =>
    rw [List.mem_singleton.mp h]
    exact List.not_mem_nil
  | cons c rest ih =>
    -- a separator opens a new piece, and any other character is put in front of the first one
    obtain ⟨first, more, hpieces⟩ := List.exists_cons_of_ne_nil (pieces_ne_nil separator rest)
    rw [hpieces] at ih
    rw [pieces, hpieces] at h
    split at h
    · rcases List.mem_cons.mp h with rfl | hrest
      · exact List.not_mem_nil
      · exact ih hrest
    · next hc =>
      rcases List.mem_cons.mp h with rfl | hmore
      · rw [List.mem_cons, not_or]
        exact ⟨Ne.symm hc, ih List.mem_cons_self⟩
      · exact ih (List.mem_cons_of_mem _ hmore)

theorem not_mem_of_mem_piecesOf {separator : Char} {text piece : String}
    (h : piece ∈ piecesOf separator text) : separator ∉ piece.toList := by
  obtain ⟨cs, hcs, rfl⟩ := List.mem_map.mp h
  rw [String.toList_ofList]
  exact not_mem_of_mem_pieces hcs

end Text

namespace Files

open Files.Path

/-! ## Joined paths -/

/-- A plain name is not absolute. -/
theorem isAbsolute_of_not_mem {name : String} (h : '/' ∉ name.toList) :
    isAbsolute name = false := by
  unfold isAbsolute
  cases hname : name.toList with
  | nil => rfl
  | cons c rest =>
    rw [hname, List.mem_cons, not_or] at h
    exact beq_eq_false_iff_ne.mpr fun hc => h.1 (Option.some.inj hc).symm

/-- A joined path has a slash in front of the name, if there is a directory. What is in
front of the slash leads where the directory is. -/
theorem exists_join_eq {directory name : String} (hname : '/' ∉ name.toList)
    (hdirectory : directory ≠ "") :
    ∃ front, (join directory name).toList = front ++ '/' :: name.toList ∧
      isAbsolute (join directory name) = isAbsolute directory ∧
      ∀ place, (names directory).foldl next place =
        ((Text.pieces '/' front).map String.ofList).foldl next place := by
  have hlist : directory.toList ≠ [] := by simpa using hdirectory
  have hempty : directory.isEmpty = false := by simpa using hdirectory
  unfold join
  rw [isAbsolute_of_not_mem hname, hempty, Bool.false_or, if_neg Bool.false_ne_true]
  split
  · next hslash =>
    -- the slash is there, and what follows it in the directory is an empty name
    obtain ⟨front, hfront⟩ := List.getLast?_eq_some_iff.mp (beq_iff_eq.mp hslash)
    refine ⟨front, ?_, ?_, fun place => ?_⟩
    · rw [String.toList_append, hfront, List.append_assoc]
      rfl
    · rw [isAbsolute, isAbsolute, String.toList_append, hfront]
      cases front <;> rfl
    · rw [names, Text.piecesOf, hfront, Text.pieces_append_separator, List.map_append,
        List.foldl_append]
      rfl
  · refine ⟨directory.toList, ?_, ?_, fun place => rfl⟩
    · rw [String.toList_append, String.toList_append, List.append_assoc]
      rfl
    · obtain ⟨c, rest, hcons⟩ := List.exists_cons_of_ne_nil hlist
      rw [isAbsolute, isAbsolute, String.toList_append, String.toList_append, hcons]
      rfl

/-- **A name in a directory is one step from it.** What the directory is called does not
matter, be it by points or with slashes at its end. -/
theorem placeOf_join (files : Files) (directory : String) {name : String}
    (h : '/' ∉ name.toList) :
    files.placeOf (join directory name) = next (files.placeOf directory) name := by
  have hpieces : (Text.pieces '/' name.toList).map String.ofList = [name] := by
    rw [Text.pieces_of_not_mem h, List.map_singleton, String.ofList_toList]
  -- an empty directory is not joined at all, so the name is looked up from the same start
  by_cases hdirectory : directory = ""
  · have hjoin : join directory name = name := by
      rw [join, isAbsolute_of_not_mem h, hdirectory]
      exact String.empty_append
    have hstart : files.start name = files.placeOf directory := by
      rw [start, isAbsolute_of_not_mem h, hdirectory]
      rfl
    rw [hjoin, placeOf, hstart, names, Text.piecesOf, hpieces]
    rfl
  · obtain ⟨front, hfront, habsolute, hplace⟩ := exists_join_eq h hdirectory
    rw [placeOf, placeOf, start, start, habsolute, hplace, names, Text.piecesOf, hfront,
      Text.pieces_append_separator, List.map_append, List.foldl_append, hpieces]
    rfl

/-! ## Names of files -/

/-- A name with an extension is that of an entry: it is none of the names that lead nowhere or
back, as it ends in a letter. -/
theorem next_fileName (place : Location) (base : String) (t : Target) :
    next place (base ++ "." ++ t.extension) = place ++ [base ++ "." ++ t.extension] := by
  -- neither no name nor one of points ends in a letter, as extensions do
  have hlast : ∃ c, (base ++ "." ++ t.extension).toList.getLast? = some c ∧ c ≠ '.' := by
    rw [String.toList_append, List.getLast?_append]
    cases t <;> exact ⟨_, rfl, by decide⟩
  obtain ⟨c, hlast, hc⟩ := hlast
  have hne {name : String} (h : name.toList.getLast? ≠ some c) :
      base ++ "." ++ t.extension ≠ name := by
    intro heq
    rw [heq] at hlast
    exact h hlast
  have hempty : base ++ "." ++ t.extension ≠ "" := hne nofun
  have hpoint : base ++ "." ++ t.extension ≠ "." := hne fun h => hc (Option.some.inj h).symm
  have hpoints : base ++ "." ++ t.extension ≠ ".." := hne fun h => hc (Option.some.inj h).symm
  rw [next, if_neg (not_or.mpr ⟨hempty, hpoint⟩), if_neg hpoints]

/-- An extension makes no path of a name. -/
theorem not_mem_fileName {base : String} (h : '/' ∉ base.toList) (t : Target) :
    '/' ∉ (base ++ "." ++ t.extension).toList := by
  rw [String.toList_append, String.toList_append, List.mem_append, List.mem_append, not_or, not_or]
  exact ⟨⟨h, by decide⟩, by cases t <;> decide⟩

/-- Files with one extension are told apart by their base. -/
theorem fileName_inj {base other : String} {t : Target}
    (h : base ++ "." ++ t.extension = other ++ "." ++ t.extension) : base = other :=
  (String.append_left_inj ".").mp ((String.append_left_inj t.extension).mp h)

/-! ## Names of sources -/

/-- Trimming only takes names away: each that is left was there before. -/
theorem mem_of_mem_trimNames {absolute : Bool} {list : List String} {name : String}
    (h : name ∈ trimNames absolute list) : name ∈ list := by
  induction list generalizing absolute with
  | nil => exact h
  | cons first rest ih =>
    unfold trimNames at h
    split at h
    · -- only the last name can be left out, and then the ones in front of it
      split at h
      · exact absurd h List.not_mem_nil
      · rw [List.mem_singleton.mp h]
        exact List.mem_cons_self
    · rcases List.mem_cons.mp h with rfl | hrest
      · exact List.mem_cons_self
      · exact List.mem_cons_of_mem _ (ih hrest)

/-- The last name that is left is never an empty one, since these are what is trimmed at the
end. -/
theorem ne_empty_of_getLast?_trimNames {absolute : Bool} {list : List String} {name : String}
    (h : (trimNames absolute list).getLast? = some name) : name ≠ "" := by
  -- the names are trimmed from the end, which is where an empty one would stand
  induction list generalizing absolute with
  | nil => cases h
  | cons first rest ih =>
    unfold trimNames at h
    split at h
    · split at h
      · cases h
      · next hfirst =>
        obtain rfl : first = name := Option.some.inj h
        rintro rfl
        exact hfirst rfl
    · next hkept =>
      rw [List.getLast?_cons_of_ne_nil (by simpa using hkept)] at h
      exact ih h

/-- The last name of a path is a plain one, as names are cut out between slashes and empty
ones are trimmed at the end. -/
theorem split_snd_getLast? {path name : String} (h : (split path).2.getLast? = some name) :
    name ≠ "" ∧ '/' ∉ name.toList := by
  unfold split at h
  split at h
  · exact ⟨ne_empty_of_getLast?_trimNames h,
      Text.not_mem_of_mem_piecesOf (mem_of_mem_trimNames (List.mem_of_getLast? h))⟩
  · exact ⟨ne_empty_of_getLast?_trimNames h,
      Text.not_mem_of_mem_piecesOf (mem_of_mem_trimNames (List.mem_of_getLast? h))⟩

/-- A name is more than its extension: where a point stands first, it begins none. -/
theorem withoutExtension_ne_empty {name : String} (h : name ≠ "") : withoutExtension name ≠ "" := by
  unfold withoutExtension
  dsimp only
  split
  · exact h
  · next hkept =>
    intro hempty
    exact hkept (by simpa using hempty)

/-- Without its extension a name has the same characters, or fewer. -/
theorem mem_of_mem_withoutExtension {name : String} {c : Char}
    (h : c ∈ (withoutExtension name).toList) : c ∈ name.toList := by
  unfold withoutExtension at h
  dsimp only at h
  split at h
  · exact h
  · rw [String.toList_ofList, List.mem_reverse] at h
    exact List.mem_reverse.mp ((List.dropWhile_suffix _).subset (List.mem_of_mem_drop h))

/-- **A stem is a plain name.** It is not empty, and there is no slash in it, because it is
what the last name of a path has in front of its extension. -/
theorem stem?_eq_some {path stem : String} (h : Path.stem? path = some stem) :
    stem ≠ "" ∧ '/' ∉ stem.toList := by
  obtain ⟨name, hname, rfl⟩ := Option.map_eq_some_iff.mp h
  have hlast : (split path).2.getLast? = some name := by
    unfold lastName? at hname
    split at hname
    · cases hname
    · next last hlast =>
      -- two points are no name of a file
      split at hname
      · cases hname
      · rw [hlast, Option.some.inj hname]
  obtain ⟨hempty, hslash⟩ := split_snd_getLast? hlast
  exact ⟨withoutExtension_ne_empty hempty, fun hmem => hslash (mem_of_mem_withoutExtension hmem)⟩

end Files

/-- Sources are called by single names. -/
theorem Source.stem_form (source : Source) : source.stem ≠ "" ∧ '/' ∉ source.stem.toList := by
  cases source with
  | standardInput => decide
  | file path =>
    rw [stem]
    cases hstem : Files.Path.stem? path with
    | none => decide
    | some stem => exact Files.stem?_eq_some hstem

end Shapewright
