import Shapewright.Files.Basic

/-!
# What writing does to files

The names of a path decide the place that it leads to, if it leads anywhere. Writing a
file gives its text to that place and changes no other; making directories only adds.
Directories are never replaced, so a path that leads to a place goes on leading there.

Main definitions:

* `Files.placeOf` — the place that the names of a path lead to.
* `Files.Reaches` — whatever path led somewhere leads there still.
* `Files.Keeps` — whatever was somewhere is there still.

Main results:

* `keeps_makeDirectories` — making directories changes nothing that is there.
* `read_write_self`, `read_write` — what is read after a file has been written.
-/

namespace Shapewright.Files

variable {files more : Files} {path content : String}

/-! ## Places -/

/-- The place that the names of a path lead to. -/
def placeOf (files : Files) (path : String) : Location :=
  (Path.names path).foldl next (files.start path)

/-- A walk that succeeds ends where its names lead, as if there were directories everywhere. -/
theorem foldl_next_of_walk {names : List String} {place found : Location}
    (h : files.walk place names = .ok found) : names.foldl next place = found := by
  induction names generalizing place with
  | nil => exact Except.ok.inj h
  | cons name rest ih =>
    unfold walk at h
    split at h
    · cases h
    · -- each step of the walk is to a directory that is there, and to the place that follows
      split at h
      · cases h
      · exact ih h
    · cases h

/-- A path is located if it is one and can be walked. -/
theorem locate_eq_ok {place : Location} (h : files.locate path = .ok place) :
    pathFault? path = none ∧ files.walk (files.start path) (Path.names path) = .ok place := by
  unfold locate at h
  split at h
  · cases h
  · next hfault => exact ⟨hfault, h⟩

/-- Where a path is located is its place. -/
theorem placeOf_of_locate {place : Location} (h : files.locate path = .ok place) :
    files.placeOf path = place :=
  foldl_next_of_walk (locate_eq_ok h).2

/-- Paths start at the root or at the directory that the session is in. -/
theorem start_congr (h : more.here = files.here) (path : String) :
    more.start path = files.start path := by
  rw [start, start, h]

/-- Only the directory that paths start from matters for their places. -/
theorem placeOf_congr (h : more.here = files.here) (path : String) :
    more.placeOf path = files.placeOf path := by
  rw [placeOf, placeOf, start_congr h]

/-- A file can be read exactly if its path can be walked and there is a text at its place. A
directory is none, nor is a file that is no text. -/
theorem read_eq_ok_iff :
    files.read path = .ok content ↔
      files.locate path = .ok (files.placeOf path) ∧
        files.node? (files.placeOf path) = some (.text content) := by
  constructor
  · -- reading fails in three places: on the way, at the end of it, and at what is found there
    intro h
    unfold read find at h
    cases hlocate : files.locate path with
    | error e =>
      rw [hlocate] at h
      cases h
    | ok place =>
      rw [hlocate] at h
      rw [placeOf_of_locate hlocate]
      cases hnode : files.node? place with
      | none =>
        simp only [hnode] at h
        cases h
      | some node =>
        simp only [hnode] at h
        cases node with
        | text text => exact ⟨rfl, by rw [Except.ok.inj h]⟩
        | directory => cases h
        | binary => cases h
  · rintro ⟨hlocate, hnode⟩
    rw [read, find, hlocate]
    simp only [hnode]

/-! ## What stays -/

/-- Directories stay where they are. -/
structure Reaches (files more : Files) : Prop where
  here      : more.here = files.here
  directory : ∀ place, files.node? place = some .directory → more.node? place = some .directory

/-- As long as directories stay, what could be walked before can be walked still. The walk
asks for nothing but directories on its way. -/
theorem Reaches.walk (h : Reaches files more) {names : List String} {place found : Location}
    (hwalk : files.walk place names = .ok found) : more.walk place names = .ok found := by
  induction names generalizing place with
  | nil => exact hwalk
  | cons name rest ih =>
    -- what is on the way is a directory, and that is all that counts
    unfold Files.walk at hwalk
    split at hwalk
    · cases hwalk
    · next hnode =>
      rw [Files.walk, h.directory place hnode]
      split at hwalk
      · cases hwalk
      · next hname => simpa only [if_neg hname] using ih hwalk
    · cases hwalk

/-- What could be located is where it was, as long as directories stay. -/
theorem Reaches.locate (h : Reaches files more) {place : Location}
    (hlocate : files.locate path = .ok place) : more.locate path = .ok place := by
  obtain ⟨hfault, hwalk⟩ := locate_eq_ok hlocate
  rw [Files.locate, hfault, start_congr h.here]
  exact h.walk hwalk

/-- Everything stays where it is. -/
structure Keeps (files more : Files) : Prop where
  here : more.here = files.here
  node : ∀ place node, files.node? place = some node → more.node? place = some node

namespace Keeps

theorem refl (files : Files) : Keeps files files := ⟨rfl, fun _ _ h => h⟩

/-- What stays in each of two steps stays in both. -/
theorem trans {final : Files} (h : Keeps files more) (h' : Keeps more final) :
    Keeps files final :=
  ⟨h'.here.trans h.here, fun place node hnode => h'.node place node (h.node place node hnode)⟩

/-- Where everything stays, directories do. -/
theorem reaches (h : Keeps files more) : Reaches files more :=
  ⟨h.here, fun place hplace => h.node place .directory hplace⟩

/-- Where everything stays, a file can be read as before. -/
theorem read (h : Keeps files more) (hread : files.read path = .ok content) :
    more.read path = .ok content := by
  obtain ⟨hlocate, hnode⟩ := read_eq_ok_iff.mp hread
  rw [read_eq_ok_iff, placeOf_congr h.here]
  exact ⟨h.reaches.locate hlocate, h.node _ _ hnode⟩

end Keeps

/-! ## Directories -/

/-- The root is always a directory. -/
theorem ne_nil_of_node? {place : Location} (h : files.node? place ≠ some .directory) :
    place ≠ [] := by
  rintro rfl
  exact h (if_pos rfl)

/-- A node that is put in a free place changes nothing that was there. -/
theorem keeps_set {place : Location} (h : files.node? place = none) (node : Node) :
    Keeps files (files.set place node) := by
  have hplace : place ≠ [] := ne_nil_of_node? (by rw [h]; exact nofun)
  refine ⟨rfl, fun other old hold => ?_⟩
  rw [node?_set files other node hplace]
  split
  · next heq =>
    rw [heq, h] at hold
    cases hold
  · exact hold

/-- A directory is made where there was nothing. -/
theorem keeps_makeDirectory (h : files.makeDirectory path = .ok more) : Keeps files more := by
  unfold makeDirectory at h
  split at h
  · cases h
  · split at h
    · cases h
    · next hfree =>
      obtain rfl := Except.ok.inj h
      exact keeps_set hfree .directory

/-- So directories inside one another are made without touching anything that is there. The
way goes from the innermost outwards, and back in again. -/
theorem keeps_makeLineage (paths : List String) : Keeps files (files.makeLineage paths).1 := by
  induction paths with
  | nil => exact .refl files
  | cons path outer ih =>
    unfold makeLineage
    split
    · exact .refl files
    · split
      · next made hmade => exact keeps_makeDirectory hmade
      · -- the directories around it come first
        split
        · next outerMade e houter =>
          rw [houter] at ih
          exact ih
        · next outerMade houter =>
          rw [houter] at ih
          split
          · next made hmade => exact ih.trans (keeps_makeDirectory hmade)
          · exact ih
      · exact .refl files

/-- This is how the directories of a path are made. -/
theorem keeps_makeDirectories (files : Files) (path : String) :
    Keeps files (files.makeDirectories path).1 :=
  keeps_makeLineage (Path.lineage path)

/-! ## Files -/

/-- A file is written to the place of its path, unless that is a directory; everything else
stays as it was. -/
theorem write_eq_ok (h : files.write path content = .ok more) :
    files.locate path = .ok (files.placeOf path) ∧
      files.node? (files.placeOf path) ≠ some .directory ∧
      more = files.set (files.placeOf path) (.text content) := by
  -- the two refusals that come first look at the path alone
  unfold write at h
  split at h
  · cases h
  · split at h
    · cases h
    · cases hlocate : files.locate path with
      | error e =>
        simp only [hlocate] at h
        cases h
      | ok place =>
        simp only [hlocate] at h
        rw [placeOf_of_locate hlocate]
        split at h
        · cases h
        · next hnode => exact ⟨rfl, hnode, (Except.ok.inj h).symm⟩

/-- After a file has been written, its place has the text, and others have what they had. -/
theorem node?_write (h : files.write path content = .ok more) (place : Location) :
    more.node? place =
      if place = files.placeOf path then some (.text content) else files.node? place := by
  obtain ⟨-, hnode, rfl⟩ := write_eq_ok h
  exact node?_set files place (.text content) (ne_nil_of_node? hnode)

/-- No directory is overwritten by a file, so that every path can be walked as before. -/
theorem reaches_write (h : files.write path content = .ok more) : Reaches files more := by
  obtain ⟨-, hnode, hmore⟩ := write_eq_ok h
  refine ⟨by rw [hmore]; rfl, fun place hplace => ?_⟩
  rw [node?_write h, if_neg]
  · exact hplace
  · rintro rfl
    exact hnode hplace

/-- What has been written is read again, under the path that it was written to. -/
theorem read_write_self (h : files.write path content = .ok more) :
    more.read path = .ok content := by
  have hreaches := reaches_write h
  rw [read_eq_ok_iff, placeOf_congr hreaches.here, node?_write h, if_pos rfl]
  exact ⟨hreaches.locate (write_eq_ok h).1, rfl⟩

/-- By another path there is what has been written if it leads to the same place, and else
what there was. -/
theorem read_write (h : files.write path content = .ok more) {other old : String}
    (hread : files.read other = .ok old) :
    more.read other = .ok (if files.placeOf other = files.placeOf path then content else old) := by
  have hreaches := reaches_write h
  obtain ⟨hlocate, hnode⟩ := read_eq_ok_iff.mp hread
  rw [read_eq_ok_iff, placeOf_congr hreaches.here, node?_write h]
  refine ⟨hreaches.locate hlocate, ?_⟩
  split
  · rfl
  · exact hnode

end Shapewright.Files
