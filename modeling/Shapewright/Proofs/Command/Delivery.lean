import Shapewright.Proofs.Command.FailedRuns
import Shapewright.Proofs.Files.Writing

/-!
# What is there of the files that a run wrote

A run that succeeds has written the files of all documents, one after the other. Each place
that it wrote to has a text that was written there, and goes on having one when more is
written: its own, or that of another file in the same place. So all output is there
afterwards exactly if files that went to one place have one text.

Main definitions:

* `Files.Holds` — each place that was written to has a text that was written there.
* `Job.KeepsOutput` — all output of all documents can be read where it was written.

Main results:

* `Files.Holds.writeFile`, `Files.Holds.forM_writeFile` — one file, and several.
* `Job.deliver_holds` — the files of all documents.
* `Job.keepsOutput_iff` — when all output is there.
-/

namespace Shapewright

variable {s s' : Session} {directory : String}

/-! ## Steps that succeed -/

namespace Work

variable {α β : Type}

/-- Work in two steps succeeds only if both do, the second from where the first has left the
session. -/
theorem bind_eq_ok {work : Work α} {next : α → Work β} {b : β}
    (h : (work >>= next) s = .ok b s') : ∃ a t, work s = .ok a t ∧ next a t = .ok b s' := by
  change EStateM.bind work next s = .ok b s' at h
  rw [EStateM.bind] at h
  cases hwork : work s with
  | ok a t =>
    rw [hwork] at h
    exact ⟨a, t, rfl, h⟩
  -- the second step is not taken
  | error e t =>
    rw [hwork] at h
    cases h

/-- Going through a list, the first item comes first. -/
theorem forM_cons_eq_ok {f : α → Work Unit} {x : α} {items : List α}
    (h : (x :: items).forM f s = .ok () s') :
    ∃ t, f x s = .ok () t ∧ items.forM f t = .ok () s' := by
  change (f x >>= fun _ => items.forM f) s = .ok () s' at h
  obtain ⟨⟨⟩, t, hx, hitems⟩ := bind_eq_ok h
  exact ⟨t, hx, hitems⟩

/-- Making directories takes nothing away: nodes that are there stay what they are. -/
theorem makeDirectoryFor_eq_ok {path : String} (h : Work.makeDirectoryFor path s = .ok () s') :
    Files.Keeps s.files s'.files := by
  rw [makeDirectoryFor] at h
  cases hparent : Files.Path.parent? path with
  | none =>
    rw [hparent] at h
    cases h
    exact .refl s.files
  | some outer =>
    rw [hparent] at h
    obtain ⟨_, _, hget, hmake⟩ := bind_eq_ok h
    cases hget
    have hkeeps := Files.keeps_makeDirectories s.files outer
    -- directories may be made before one of them fails, and they are kept even then
    cases hmade : s.files.makeDirectories outer with
    | mk files fault? =>
      rw [hmade] at hmake hkeeps
      obtain ⟨⟨⟩, t, hset, hfault⟩ := bind_eq_ok hmake
      cases hset
      cases fault? with
      | none =>
        cases hfault
        exact hkeeps
      | some fault => cases hfault

/-- A file that is written is written after directories have been made, which takes nothing
away. -/
theorem writeFile_eq_ok {path content : String} (h : Work.writeFile path content s = .ok () s') :
    ∃ made, Files.Keeps s.files made ∧ made.write path content = .ok s'.files := by
  obtain ⟨⟨⟩, t, hdirectory, hfile⟩ := bind_eq_ok h
  obtain ⟨_, _, hget, hwrite⟩ := bind_eq_ok hfile
  cases hget
  -- between the two steps there are the directories and nothing else
  refine ⟨t.files, makeDirectoryFor_eq_ok hdirectory, ?_⟩
  cases hfiles : t.files.write path content with
  | error e =>
    rw [hfiles] at hwrite
    cases hwrite
  | ok files =>
    rw [hfiles] at hwrite
    cases hwrite
    rfl

end Work

/-! ## Files that were written -/

/-- What there is of the files that were written since `start`: every place that was
written to can be read, and has a text that was written there. -/
structure Files.Holds (start files : Files) (written : List (String × String)) : Prop where
  here : files.here = start.here
  text : ∀ file ∈ written, ∃ other ∈ written,
    start.placeOf other.1 = start.placeOf file.1 ∧ files.read file.1 = .ok other.2

namespace Files.Holds

variable {start files more : Files} {written : List (String × String)}

/-- Where nothing was written there is nothing to look for. -/
theorem nil (start : Files) : Holds start start [] :=
  ⟨rfl, fun _ hfile => absurd hfile List.not_mem_nil⟩

/-- What was written is still there while everything stays. -/
theorem keeps (h : Holds start files written) (hkeeps : Keeps files more) :
    Holds start more written := by
  refine ⟨hkeeps.here.trans h.here, fun file hfile => ?_⟩
  obtain ⟨other, hother, hplace, hread⟩ := h.text file hfile
  exact ⟨other, hother, hplace, hkeeps.read hread⟩

/-- One more file is written: its own text is there, and its text is also what is read from
then on of the files that are in its place. -/
theorem write (h : Holds start files written) {path content : String}
    (hwrite : files.write path content = .ok more) :
    Holds start more (written ++ [(path, content)]) := by
  have hlast : (path, content) ∈ written ++ [(path, content)] :=
    List.mem_append_right _ (List.mem_singleton_self _)
  refine ⟨(reaches_write hwrite).here.trans h.here, fun file hfile => ?_⟩
  rcases List.mem_append.mp hfile with hold | hnew
  · obtain ⟨other, hother, hplace, hread⟩ := h.text file hold
    -- either the new text took the place of the old one, or the old one is still there
    have hafter := read_write hwrite hread
    rw [placeOf_congr h.here, placeOf_congr h.here] at hafter
    split at hafter
    · next hsame => exact ⟨_, hlast, hsame.symm, hafter⟩
    · exact ⟨other, List.mem_append_left _ hother, hplace, hafter⟩
  · rw [List.mem_singleton.mp hnew]
    exact ⟨_, hlast, rfl, read_write_self hwrite⟩

/-- Writing one more file: making its directories changes no file, and the last one that was
written in a place is what is found there. -/
theorem writeFile (h : Holds start s.files written) {path content : String}
    (hwrite : Work.writeFile path content s = .ok () s') :
    Holds start s'.files (written ++ [(path, content)]) := by
  obtain ⟨made, hkeeps, hmade⟩ := Work.writeFile_eq_ok hwrite
  exact (h.keeps hkeeps).write hmade

/-- Writing several files one after the other, by the step for one of them. -/
theorem forM_writeFile {list : List (String × String)} (h : Holds start s.files written)
    (hwrite : (list.forM fun (path, content) => Work.writeFile path content) s = .ok () s') :
    Holds start s'.files (written ++ list) := by
  induction list generalizing s written with
  | nil =>
    cases hwrite
    rw [List.append_nil]
    exact h
  | cons file rest ih =>
    obtain ⟨t, hfile, hrest⟩ := Work.forM_cons_eq_ok hwrite
    -- the rest is written over what has been written so far
    have hall := ih (h.writeFile hfile) hrest
    rwa [List.append_assoc] at hall

end Files.Holds

/-! ## Documents that were written -/

namespace Job

/-- The files of a document; none if it has no declarations. -/
def outputFiles (job : Job) (directory : String) (document : Document) : List (String × String) :=
  match job.declarations document with
  | .ok output => job.filesIn directory document output
  | .error _ => []

/-- The files of all documents, in the order they are written. -/
def allFiles (job : Job) (directory : String) : List (String × String) :=
  job.documents.flatMap (job.outputFiles directory)

/-- Every document has declarations, and all of its output can be read. -/
def KeepsOutput (job : Job) (directory : String) (files : Files) : Prop :=
  ∀ document ∈ job.documents, ∃ output, job.declarations document = .ok output ∧
    ∀ file ∈ job.filesIn directory document output, files.read file.1 = .ok file.2

/-- The files of a document are those of its declarations. -/
theorem outputFiles_eq {job : Job} {document : Document} {output : Rendered}
    (h : job.declarations document = .ok output) :
    job.outputFiles directory document = job.filesIn directory document output := by
  rw [outputFiles, h]

variable {job : Job} {document : Document}

/-- Delivering a document into a directory is writing its files one after the other. -/
theorem deliverOne_eq_ok (hdestination : job.destination = .directory directory)
    (h : job.deliverOne document s = .ok () s') :
    ∃ output, job.declarations document = .ok output ∧
      ((job.filesIn directory document output).forM fun (path, content) =>
        Work.writeFile path content) s = .ok () s' := by
  obtain ⟨output, t, hdeclarations, hput⟩ := Work.bind_eq_ok h
  obtain ⟨houtput, rfl⟩ := Work.ofExcept_eq_ok_iff.mp hdeclarations
  unfold put at hput
  rw [hdestination] at hput
  exact ⟨output, houtput, hput⟩

/-- **The invariant of a run**: whatever has been written so far can be read, up to what was
written to the same place later. The induction is on the documents, with those before them
delivered. -/
theorem deliver_holds {start : Files} {written : List (String × String)}
    (hdestination : job.destination = .directory directory) {documents : List Document}
    (h : documents.forM job.deliverOne s = .ok () s') (hholds : start.Holds s.files written) :
    start.Holds s'.files (written ++ documents.flatMap (job.outputFiles directory)) ∧
      ∀ document ∈ documents, ∃ output, job.declarations document = .ok output := by
  induction documents generalizing s written with
  | nil =>
    cases h
    rw [List.flatMap_nil, List.append_nil]
    exact ⟨hholds, fun _ hdocument => absurd hdocument List.not_mem_nil⟩
  | cons document rest ih =>
    obtain ⟨t, hdocument, hrest⟩ := Work.forM_cons_eq_ok h
    obtain ⟨output, houtput, hfiles⟩ := deliverOne_eq_ok hdestination hdocument
    -- the files of the first document join those that were written before
    have hfirst := hholds.forM_writeFile hfiles
    rw [← outputFiles_eq houtput] at hfirst
    obtain ⟨hall, hdeclared⟩ := ih hrest hfirst
    rw [List.append_assoc] at hall
    refine ⟨hall, fun other hother => ?_⟩
    rcases List.mem_cons.mp hother with rfl | hother
    · exact ⟨output, houtput⟩
    · exact hdeclared other hother

/-- All output is there exactly if texts that went to one place are equal. The run has written
every file, and of several files in one place the last one has stayed. -/
theorem keepsOutput_iff {start files : Files} (hholds : start.Holds files (job.allFiles directory))
    (hdeclared : ∀ document ∈ job.documents, ∃ output, job.declarations document = .ok output) :
    job.KeepsOutput directory files ↔
      ∀ file ∈ job.allFiles directory, ∀ other ∈ job.allFiles directory,
        start.placeOf file.1 = start.placeOf other.1 → file.2 = other.2 := by
  constructor
  · intro hkeeps
    have hread : ∀ file ∈ job.allFiles directory, files.read file.1 = .ok file.2 := by
      intro file hfile
      obtain ⟨document, hdocument, hmem⟩ := List.mem_flatMap.mp hfile
      obtain ⟨output, houtput, hfiles⟩ := hkeeps document hdocument
      rw [outputFiles_eq houtput] at hmem
      exact hfiles file hmem
    intro file hfile other hother hplace
    -- both are what is read at the place
    have hnode := (Files.read_eq_ok_iff.mp (hread file hfile)).2
    have hnode' := (Files.read_eq_ok_iff.mp (hread other hother)).2
    rw [Files.placeOf_congr hholds.here, hplace, ← Files.placeOf_congr hholds.here, hnode'] at hnode
    exact (Files.Node.text.inj (Option.some.inj hnode)).symm
  · intro hequal document hdocument
    obtain ⟨output, houtput⟩ := hdeclared document hdocument
    refine ⟨output, houtput, fun file hfile => ?_⟩
    rw [← outputFiles_eq houtput] at hfile
    have hmem : file ∈ job.allFiles directory := List.mem_flatMap.mpr ⟨document, hdocument, hfile⟩
    obtain ⟨other, hother, hplace, hread⟩ := hholds.text file hmem
    rw [hread, hequal file hmem other hother hplace.symm]

end Job

end Shapewright
