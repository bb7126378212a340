import Shapewright.Proofs.Command.Delivery
import Shapewright.Proofs.Files.Paths
import Shapewright.Proofs.Plan.NameForms

/-!
# What a batch leaves in its directory

Declarations for several documents go to one directory, each under the name that its
source is called by: as a file, or as a directory for separate files. Documents that are
called differently are never in each other's way, nor are the types of one document. But
files in different directories can be called alike, and then the last one is left.

Main definitions:

* `Job.ways` — where in the directory the files of a document are.

Main results:

* `Job.exists_way` — every file is on a way from the directory.
* `Job.stem_eq_of_mem_ways`, `Job.text_eq_of_mem_ways` — what is on one way.
* `batch_keeps_output_iff` — when a batch loses nothing.
-/

namespace Shapewright

variable {s s' : Session} {directory : String}

/-! ## Places of files -/

/-- The document is called by a name that does not lead out of a directory. -/
structure Document.IsInside (document : Document) : Prop where
  nonempty : document.stem ≠ ""
  slash    : '/' ∉ document.stem.toList
  points   : document.stem ≠ ".."

namespace Job

/-- The way from the output directory to that of a document's separate files. -/
def stemWay (job : Job) (document : Document) : Files.Location :=
  if 1 < job.documents.length ∧ document.stem ≠ "." then [document.stem] else []

/-- The ways from the output directory to the files of a document, and their texts. -/
def ways (job : Job) (document : Document) : Rendered → List (Files.Location × String)
  | .single content _ => [([document.stem ++ "." ++ job.target.extension], content)]
  | .files list => list.map fun f => (job.stemWay document ++ [f.filename], f.content)

end Job

/-- The output of a target is one text, or a file for each type. Which of them it is
depends on the options alone. -/
theorem Target.render_eq (t : Target) (options : t.Options) :
    (∀ p, ∃ content, t.render p options = .single content t) ∨
      ∃ (text : Declaration → String) (header : String), ∀ p, t.render p options =
        .files (perTypeFiles (p.types.map fun d => (d.name, text d)) header t.extension t) := by
  cases t with
  | java =>
    by_cases hfiles : JavaOptions.multipleFiles options = true
    · exact Or.inr ⟨Java.renderClass options "public ", Java.header options, fun p => if_pos hfiles⟩
    · exact Or.inl fun p => ⟨Java.renderText p options, if_neg hfiles⟩
  | kotlin =>
    by_cases hfiles : KotlinOptions.multipleFiles options = true
    · exact Or.inr ⟨Kotlin.renderClass options, Kotlin.header options, fun p => if_pos hfiles⟩
    · exact Or.inl fun p => ⟨_, if_neg hfiles⟩
  -- the other targets know of one text only
  | _ => exact Or.inl fun p => ⟨_, rfl⟩

/-- No name of a type has a slash, and no two types have one name. -/
theorem Plan.types_names (t : Target) (rootName : String) (s : Shape) :
    ((planFor t rootName s).types.map Declaration.name).Nodup ∧
      ∀ d ∈ (planFor t rootName s).types, '/' ∉ d.name.toList := by
  have hr : t.reserved.Escapable := Reserved.Admitted.escapable (Or.inr ⟨t, rfl⟩)
  refine ⟨(Plan.isSupply_declaredNames hr rootName s).nodup, fun d hd => ?_⟩
  exact (Plan.isDeclarable_of_mem_declaredNames hr d.name (List.mem_map_of_mem hd)).not_mem rfl

namespace Job

variable {job : Job} {document other : Document} {output output' : Rendered}

/-- Separate files of several documents go to directories of their own, called by the stems.
The directory of a document that is called by a point is the output directory itself. -/
theorem placeOf_directoryFor (job : Job) (hstem : document.IsInside) (files : Files)
    (directory : String) (list : List SourceFile) :
    files.placeOf (job.directoryFor directory document (.files list)) =
      files.placeOf directory ++ job.stemWay document := by
  unfold directoryFor stemWay
  dsimp only
  by_cases hseveral : 1 < job.documents.length
  · rw [if_pos hseveral, Files.placeOf_join files directory hstem.slash, Files.next]
    -- a stem that is a point is no step at all
    by_cases hpoint : document.stem = "."
    · rw [if_pos (Or.inr hpoint), if_neg (fun h => h.2 hpoint), List.append_nil]
    · rw [if_neg (not_or.mpr ⟨hstem.nonempty, hpoint⟩), if_neg hstem.points,
        if_pos ⟨hseveral, hpoint⟩]
  · rw [if_neg hseveral, if_neg (fun h => hseveral h.1), List.append_nil]

/-- What a document's declarations have been made from: its shape, and the options of the
whole run. -/
theorem declarations_eq_ok (h : job.declarations document = .ok output) :
    ∃ options shape, job.target.form.decode? job.bag = .ok options ∧
      output = job.target.render (planFor job.target job.rootName shape) options := by
  rw [declarations_eq] at h
  split at h
  · cases h
  · next shape _ =>
    split at h
    · cases h
    · next options hoptions => exact ⟨options, shape, hoptions, (Except.ok.inj h).symm⟩

/-- The files of a document are where their ways lead to from the directory. The ways do not
depend on the directory, nor on what is in the file system. -/
theorem placeOf_filesIn (h : job.declarations document = .ok output) (hstem : document.IsInside)
    (files : Files) (directory : String) :
    (job.filesIn directory document output).map (fun file => (files.placeOf file.1, file.2)) =
      (job.ways document output).map fun way => (files.placeOf directory ++ way.1, way.2) := by
  obtain ⟨options, shape, -, houtput⟩ := declarations_eq_ok h
  -- one text has the name of the document, and several have those of the types
  rcases Target.render_eq job.target options with hsingle | ⟨text, header, hfiles⟩
  · obtain ⟨content, hcontent⟩ := hsingle (planFor job.target job.rootName shape)
    rw [houtput, hcontent]
    simp only [filesIn, directoryFor, ways, List.map_singleton]
    rw [Files.placeOf_join _ _ (Files.not_mem_fileName hstem.slash job.target),
      Files.next_fileName]
  · have hdirectory : files.placeOf (job.directoryFor directory document output) =
        files.placeOf directory ++ job.stemWay document := by
      rw [houtput, hfiles]
      exact job.placeOf_directoryFor hstem files directory _
    rw [houtput, hfiles] at hdirectory ⊢
    simp only [filesIn, ways, perTypeFiles, List.map_map] at hdirectory ⊢
    refine List.map_congr_left fun d hd => ?_
    have hname := (Plan.types_names job.target job.rootName shape).2 d hd
    simp only [Function.comp_apply]
    rw [Files.placeOf_join _ _ (Files.not_mem_fileName hname job.target), Files.next_fileName,
      hdirectory, List.append_assoc]

/-- In a batch of several documents, the directories of two of them differ with their stems.
There is none where there is only one document. -/
theorem stem_eq_of_stemWay_eq (h : job.stemWay document = job.stemWay other) :
    document.stem = other.stem ∨ job.documents.length ≤ 1 := by
  by_cases hseveral : 1 < job.documents.length
  · unfold stemWay at h
    simp only [hseveral, true_and, ne_eq] at h
    split at h <;> split at h
    · exact Or.inl (List.singleton_inj.mp h)
    · cases h
    · cases h
    · -- both are called by a point
      next hpoint hpoint' =>
      exact Or.inl ((not_not.mp hpoint).trans (not_not.mp hpoint').symm)
  · exact Or.inr (Nat.not_lt.mp hseveral)

/-- Only documents that are called alike have files on one way. The name of a single text is
made of the stem, and separate files of several documents are in directories called by it. -/
theorem stem_eq_of_mem_ways (hdocument : job.declarations document = .ok output)
    (hother : job.declarations other = .ok output') {way : Files.Location} {text text' : String}
    (hmem : (way, text) ∈ job.ways document output)
    (hmem' : (way, text') ∈ job.ways other output') :
    document.stem = other.stem ∨ job.documents.length ≤ 1 := by
  obtain ⟨options, shape, hoptions, rfl⟩ := declarations_eq_ok hdocument
  obtain ⟨options', shape', hoptions', rfl⟩ := declarations_eq_ok hother
  -- all documents have the same options, and so output of the same kind
  obtain rfl : options = options' := Except.ok.inj (hoptions.symm.trans hoptions')
  rcases Target.render_eq job.target options with hsingle | ⟨declared, header, hfiles⟩
  · obtain ⟨content, hcontent⟩ := hsingle (planFor job.target job.rootName shape)
    obtain ⟨content', hcontent'⟩ := hsingle (planFor job.target job.rootName shape')
    rw [hcontent, ways, List.mem_singleton, Prod.mk.injEq] at hmem
    rw [hcontent', ways, List.mem_singleton, Prod.mk.injEq] at hmem'
    have hname := List.singleton_inj.mp (hmem.1.symm.trans hmem'.1)
    exact Or.inl (Files.fileName_inj hname)
  · rw [hfiles, ways] at hmem hmem'
    obtain ⟨f, -, hf⟩ := List.mem_map.mp hmem
    obtain ⟨f', -, hf'⟩ := List.mem_map.mp hmem'
    have hway := (Prod.mk.inj hf).1.trans (Prod.mk.inj hf').1.symm
    exact stem_eq_of_stemWay_eq (List.append_inj_left' hway rfl)

/-- The types of a document have files of their own: they are called by their types, and no
two types of a plan have one name. -/
theorem text_eq_of_mem_ways (hdocument : job.declarations document = .ok output)
    {way : Files.Location} {text text' : String} (hmem : (way, text) ∈ job.ways document output)
    (hmem' : (way, text') ∈ job.ways document output) : text = text' := by
  obtain ⟨options, shape, -, rfl⟩ := declarations_eq_ok hdocument
  rcases Target.render_eq job.target options with hsingle | ⟨declared, header, hfiles⟩
  · obtain ⟨content, hcontent⟩ := hsingle (planFor job.target job.rootName shape)
    rw [hcontent, ways, List.mem_singleton, Prod.mk.injEq] at hmem hmem'
    exact hmem.2.trans hmem'.2.symm
  · rw [hfiles, ways, perTypeFiles, List.map_map, List.map_map] at hmem hmem'
    obtain ⟨d, hd, heq⟩ := List.mem_map.mp hmem
    obtain ⟨d', hd', heq'⟩ := List.mem_map.mp hmem'
    obtain ⟨hway, htext⟩ := Prod.mk.inj heq
    obtain ⟨hway', htext'⟩ := Prod.mk.inj heq'
    -- no two types have one name, so that the name of the file tells the type
    have hname := Files.fileName_inj
      (List.singleton_inj.mp (List.append_cancel_left (hway.trans hway'.symm)))
    have hnodup := (Plan.types_names job.target job.rootName shape).1
    obtain rfl : d = d' := List.inj_on_of_nodup_map hnodup hd hd' hname
    exact htext.symm.trans htext'

/-- Every file of a run is on a way from the directory, and belongs to one of the documents. -/
theorem exists_way (hinside : ∀ document ∈ job.documents, document.IsInside) (files : Files)
    {file : String × String} (hfile : file ∈ job.allFiles directory) :
    ∃ document ∈ job.documents, ∃ output, job.declarations document = .ok output ∧
      ∃ way, (way, file.2) ∈ job.ways document output ∧
        files.placeOf file.1 = files.placeOf directory ++ way := by
  obtain ⟨document, hdocument, hmem⟩ := List.mem_flatMap.mp hfile
  cases houtput : job.declarations document with
  | error e =>
    rw [outputFiles, houtput] at hmem
    exact absurd hmem List.not_mem_nil
  | ok output =>
    rw [outputFiles_eq houtput] at hmem
    -- among the places of the files of this document there is the one that was asked for
    have hplace : (files.placeOf file.1, file.2) ∈
        (job.filesIn directory document output).map fun file => (files.placeOf file.1, file.2) :=
      List.mem_map_of_mem hmem
    rw [placeOf_filesIn houtput (hinside document hdocument)] at hplace
    obtain ⟨⟨way, text⟩, hway, heq⟩ := List.mem_map.mp hplace
    obtain ⟨hplace, rfl⟩ := Prod.mk.inj heq
    exact ⟨document, hdocument, output, houtput, way, hway, hplace.symm⟩

/-- Files of documents with names of their own are in one place only if they have one text:
they are files of one document then, and there even of one type. -/
theorem eq_of_placeOf_eq (hstems : (job.documents.map Document.stem).Nodup)
    (hinside : ∀ document ∈ job.documents, document.IsInside) (files : Files) :
    ∀ file ∈ job.allFiles directory, ∀ other ∈ job.allFiles directory,
      files.placeOf file.1 = files.placeOf other.1 → file.2 = other.2 := by
  intro file hfile other hother hplace
  obtain ⟨document, hdocument, output, houtput, way, hway, heq⟩ := exists_way hinside files hfile
  obtain ⟨document', hdocument', output', houtput', way', hway', heq'⟩ :=
    exists_way hinside files hother
  rw [heq, heq', List.append_cancel_left_eq] at hplace
  rw [hplace] at hway
  -- separate files of a single document go to the directory itself, however it is called
  have hsame : document = document' := by
    rcases stem_eq_of_mem_ways houtput houtput' hway hway' with hstem | hone
    · exact List.inj_on_of_nodup_map hstems hdocument hdocument' hstem
    · obtain ⟨first, rest, hdocuments⟩ := List.exists_cons_of_ne_nil (List.ne_nil_of_mem hdocument)
      rw [hdocuments] at hdocument hdocument' hone
      obtain rfl : rest = [] := List.eq_nil_of_length_eq_zero (by simpa using hone)
      rw [List.mem_singleton.mp hdocument, List.mem_singleton.mp hdocument']
  obtain rfl := hsame
  obtain rfl : output = output' := Except.ok.inj (houtput.symm.trans houtput')
  exact text_eq_of_mem_ways houtput hway hway'

end Job

/-! ## Whole runs -/

/-- The stem of every document is the name of a file, so that it leads nowhere but into the
output directory. Two points alone would lead out of it. -/
theorem Selection.isInside_of_load {selection : Selection} {engine : Query.Engine} {files : Files}
    {sources : List Source} {input : Except Files.Fault String} {documents : List Document}
    (h : selection.load engine files input sources = .ok documents) :
    ∀ document ∈ documents, document.stem ≠ ".." → document.IsInside := by
  induction sources generalizing input documents with
  | nil =>
    cases h
    exact fun _ hdocument => absurd hdocument List.not_mem_nil
  | cons source rest ih =>
    rw [load] at h
    obtain ⟨content, -, h⟩ := bind_eq_ok h
    obtain ⟨first, hfirst, h⟩ := bind_eq_ok h
    obtain ⟨more, hmore, h⟩ := bind_eq_ok h
    cases h
    intro document hdocument hpoints
    rcases List.mem_cons.mp hdocument with rfl | hdocument
    · -- the document is called like its source
      obtain ⟨v, -, hfirst⟩ := bind_eq_ok hfirst
      obtain ⟨value, -, hfirst⟩ := bind_eq_ok hfirst
      cases hfirst
      exact ⟨source.stem_form.1, source.stem_form.2, hpoints⟩
    · exact ih hmore document hdocument hpoints

namespace Generation

variable {what : Generation} {engine : Query.Engine} {files : Files}
  {input : Except Files.Fault String} {job : Job}

/-- The documents of a job are all inside: loading is the only step that makes documents. -/
theorem isInside_of_prepare (h : what.prepare engine files input = .ok job) :
    ∀ document ∈ job.documents, document.stem ≠ ".." → document.IsInside := by
  obtain ⟨sources, -, hload⟩ := bind_eq_ok (what.prepare_eq_ok engine files input h).2.1
  exact Selection.isInside_of_load hload

end Generation

/-- **A batch loses output exactly if two files with different texts go to one place.** They
never do if the documents are called by different names, none of them two points; then all
output is inside the directory. The engine that picks the documents may be any. -/
theorem batch_keeps_output_iff {what : Generation} {engine : Query.Engine}
    {input : Except Files.Fault String}
    (hdestination : what.destination = .directory directory)
    (hrun : (Command.generate what).runWith engine input s = .ok () s') :
    ∃ job, what.prepare engine s.files input = .ok job ∧
      (job.KeepsOutput directory s'.files ↔
        ∀ file ∈ job.allFiles directory, ∀ other ∈ job.allFiles directory,
          s.files.placeOf file.1 = s.files.placeOf other.1 → file.2 = other.2) ∧
      ((job.documents.map Document.stem).Nodup →
        (∀ document ∈ job.documents, document.stem ≠ "..") →
          job.KeepsOutput directory s'.files ∧
            ∀ file ∈ job.allFiles directory,
              s.files.placeOf directory <+: s.files.placeOf file.1) := by
  -- a run that succeeds has read what it needs, and then delivered all of it
  obtain ⟨_, _, hget, hprepared⟩ := Work.bind_eq_ok hrun
  cases hget
  obtain ⟨job, _, hread, hdeliver⟩ := Work.bind_eq_ok hprepared
  obtain ⟨hprepare, rfl⟩ := Work.ofExcept_eq_ok_iff.mp hread
  have hjob : job.destination = .directory directory :=
    (what.prepare_eq_ok engine s.files input hprepare).1.trans hdestination
  obtain ⟨hholds, hdeclared⟩ := Job.deliver_holds hjob hdeliver (.nil s.files)
  have hiff := Job.keepsOutput_iff hholds hdeclared
  refine ⟨job, hprepare, hiff, fun hstems hpoints => ?_⟩
  -- what leads out of the directory is a document that is called by two points
  have hinside : ∀ document ∈ job.documents, document.IsInside := fun document hdocument =>
    Generation.isInside_of_prepare hprepare document hdocument (hpoints document hdocument)
  refine ⟨hiff.mpr (Job.eq_of_placeOf_eq hstems hinside s.files), fun file hfile => ?_⟩
  obtain ⟨_, -, _, -, way, -, hplace⟩ := Job.exists_way hinside s.files hfile
  rw [hplace]
  exact List.prefix_append _ way

/-- Whether output is kept can be computed. -/
instance (job : Job) (directory : String) (files : Files) :
    Decidable (job.KeepsOutput directory files) :=
  decidable_of_iff
    (∀ document ∈ job.documents, (job.declarations document).isOk = true ∧
      ∀ file ∈ job.outputFiles directory document, files.read file.1 = .ok file.2) <| by
    refine forall₂_congr fun document _ => ?_
    rw [Job.outputFiles]
    cases job.declarations document with
    | ok output => simp [Except.isOk, Except.toBool]
    | error e => simp [Except.isOk, Except.toBool]

/-- Numbers and truth values in three files, two of which are called alike. -/
def samples : Session where
  files :=
    { entries := [(["a"], .directory), (["a", "x.json"], .text "\x7b\"a\":1\x7d"),
        (["b"], .directory), (["b", "x.json"], .text "\x7b\"b\":true\x7d"),
        (["b", "y.json"], .text "\x7b\"b\":true\x7d")]
      here := [] }
  printed := ""
  notes := ""

/-- Declarations for some inputs, in the directory `o`. -/
def declarationsIn (target : String) (multipleFiles : Bool) (inputs : List String) :
    Generation where
  selection := { inputs, pointer? := none, filter? := none }
  target
  rootName := "Root"
  pairs := []
  optionsFile? := none
  multipleFiles
  destination := .directory "o"

/-- What a run that succeeds leaves behind. -/
def sessionAfter (r : EStateM.Result RunFailure Session Unit) : Option Session :=
  match r with
  | .ok _ s => some s
  | .error _ _ => none

/-- A run that leaves a session has succeeded. -/
theorem eq_ok_of_sessionAfter {r : EStateM.Result RunFailure Session Unit}
    (h : sessionAfter r = some s) : r = .ok () s := by
  cases r with
  | ok =>
    cases h
    rfl
  | error => cases h

/-- Separate files for two documents that are called differently. -/
theorem batch_keeps_output_iff_twoNames :
    let what := declarationsIn "kotlin" true ["a/x.json", "b/y.json"]
    ∃ s' job, (Command.generate what).runWith Query.core (.ok "") samples = .ok () s' ∧
      what.prepare Query.core samples.files (.ok "") = .ok job ∧
      job.documents.map Document.stem = ["x", "y"] ∧
      job.KeepsOutput "o" s'.files ∧
      s'.files.read "o/x/Root.kt" = .ok "data class Root(\n    val a: Int\n)\n" ∧
      s'.files.read "o/y/Root.kt" = .ok "data class Root(\n    val b: Boolean\n)\n" := by
  intro what
  have hdone : (sessionAfter ((Command.generate what).runWith Query.core (.ok "") samples)).map
      (fun s' => (s'.files.read "o/x/Root.kt", s'.files.read "o/y/Root.kt")) =
        some (.ok "data class Root(\n    val a: Int\n)\n",
          .ok "data class Root(\n    val b: Boolean\n)\n") := by
    decide +kernel
  obtain ⟨s', hafter, hread⟩ := Option.map_eq_some_iff.mp hdone
  have hrun := eq_ok_of_sessionAfter hafter
  obtain ⟨job, hprepare, -, hkeeps⟩ := batch_keeps_output_iff rfl hrun
  have hstems : (what.prepare Query.core samples.files (.ok "")).map
      (fun job => job.documents.map Document.stem) = .ok ["x", "y"] := by
    decide +kernel
  rw [hprepare] at hstems
  have hnames : job.documents.map Document.stem = ["x", "y"] := Except.ok.inj hstems
  refine ⟨s', job, hrun, hprepare, hnames, (hkeeps ?_ ?_).1, (Prod.mk.inj hread).1,
    (Prod.mk.inj hread).2⟩
  · rw [hnames]
    decide
  · intro document hdocument hpoints
    have hmem : document.stem ∈ ["x", "y"] := hnames ▸ List.mem_map_of_mem hdocument
    rw [hpoints] at hmem
    exact absurd hmem (by decide)

/-- Two documents from files of one name in different directories: the run succeeds, and of
the first document nothing is left. -/
theorem batch_loses_output :
    let what := declarationsIn "typescript" false ["a/x.json", "b/x.json"]
    ∃ s' job, (Command.generate what).runWith Query.core (.ok "") samples = .ok () s' ∧
      what.prepare Query.core samples.files (.ok "") = .ok job ∧
      job.documents.map Document.label = ["a/x.json", "b/x.json"] ∧
      s'.notes = "wrote o/x.ts\nwrote o/x.ts\n" ∧
      s'.files.read "o/x.ts" = .ok "interface Root \x7b\n  b: boolean;\n\x7d\n" ∧
      ¬ job.KeepsOutput "o" s'.files := by
  intro what
  have hdone : (sessionAfter ((Command.generate what).runWith Query.core (.ok "") samples)).map
      (fun s' => (s'.notes, s'.files.read "o/x.ts",
        (what.prepare Query.core samples.files (.ok "")).map fun job =>
          (job.documents.map Document.label, decide (job.KeepsOutput "o" s'.files)))) =
        some ("wrote o/x.ts\nwrote o/x.ts\n",
          .ok "interface Root \x7b\n  b: boolean;\n\x7d\n",
          .ok (["a/x.json", "b/x.json"], false)) := by
    decide +kernel
  obtain ⟨s', hafter, hresult⟩ := Option.map_eq_some_iff.mp hdone
  obtain ⟨hnotes, hresult⟩ := Prod.mk.inj hresult
  obtain ⟨hread, hresult⟩ := Prod.mk.inj hresult
  cases hprepare : what.prepare Query.core samples.files (.ok "") with
  | error e =>
    rw [hprepare] at hresult
    cases hresult
  | ok job =>
    rw [hprepare] at hresult
    obtain ⟨hlabels, hkeeps⟩ := Prod.mk.inj (Except.ok.inj hresult)
    exact ⟨s', job, eq_ok_of_sessionAfter hafter, rfl, hlabels, hnotes, hread,
      of_decide_eq_false hkeeps⟩

end Shapewright
