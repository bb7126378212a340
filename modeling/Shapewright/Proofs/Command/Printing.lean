import Mathlib.Data.List.Forall2
import Shapewright.Proofs.Command.Delivery
import Shapewright.Proofs.Name.Blanks

/-!
# What a run prints

A run that prints declarations goes another way than a request for those of one text: it
reads all documents before it looks at any of them, and its root name is trimmed. Still both
make the same declarations, and fail for the same texts. A run prints what the requests for
its texts answer, one after the other.

Main definitions:

* `Generation.Prints` — the run prints declarations for whole files with the given texts.

Main results:

* `generate_eq_ok_iff` — what a request for one text takes.
* `Selection.load_eq_ok_iff` — the documents of files.
* `Job.deliver_console_iff` — printing declarations for all documents.
* `Generation.run_eq_ok_iff` — a run against the requests for its texts.
-/

namespace Shapewright

variable {s s' : Session} {engine : Query.Engine} {input : Except Files.Fault String}

/-! ## Requests -/

/-- A request is answered if its text is a document that has a shape, and the target is known
and takes the options. -/
theorem generate_eq_ok_iff {text target rootName : String} {bag : Json.Value} {output : Rendered} :
    generate text target rootName bag = .ok output ↔
      ∃ v, Json.Value.parse text = .ok v ∧ ∃ shape, inferShape v = .ok shape ∧
        ∃ t, findTarget target = .ok t ∧ emit t shape rootName bag = .ok output := by
  rw [generate, readDocument]
  simp only [bind_eq_ok_iff, mapError_eq_ok_iff]

/-- A request with a known target succeeds if its text is a document whose shape the target
can be given. -/
theorem generate_eq_ok_iff_of_findTarget {target : String} {t : Target}
    (h : findTarget target = .ok t) {text rootName : String} {bag : Json.Value}
    {output : Rendered} :
    generate text target rootName bag = .ok output ↔
      ∃ v, Json.Value.parse text = .ok v ∧
        ∃ shape, inferShape v = .ok shape ∧ emit t shape rootName bag = .ok output := by
  rw [generate_eq_ok_iff]
  simp only [h, Except.ok.injEq, exists_eq_left']

/-- The blanks around a root name that is accepted make no difference: it is accepted without
them, and the plan of the name with them is the same. -/
theorem emit_validate {given rootName : String} (h : Name.validate given = .ok rootName)
    (t : Target) (shape : Shape) (bag : Json.Value) :
    emit t shape rootName bag = emit t shape given bag := by
  -- a name that is accepted is returned as it was found between the blanks
  have htrim : rootName = String.ofList (Text.trim given.toList) := by
    unfold Name.validate at h
    dsimp only at h
    split at h
    · cases h
    · split at h
      · cases h
      · split at h
        · cases h
        · split at h
          · cases h
          · exact (Except.ok.inj h).symm
  -- the plan is the only thing that is made of the name, and it trims the name by itself
  have hplan : planFor t rootName shape = planFor t given shape := by
    rw [htrim, planFor, planFor, Plan.ofShape, Plan.ofShape, Name.pascalCase_trim]
  rw [emit, emit, hplan]

/-- Elements that are related through something in between are related through a list of such
things, one for each pair. -/
theorem forall₂_comp_iff {α β γ : Type} {R : α → β → Prop} {S : β → γ → Prop} {xs : List α}
    {zs : List γ} :
    List.Forall₂ (fun x z => ∃ y, R x y ∧ S y z) xs zs ↔
      ∃ ys, List.Forall₂ R xs ys ∧ List.Forall₂ S ys zs := by
  constructor
  · intro h
    induction h with
    | nil => exact ⟨[], .nil, .nil⟩
    | cons hxz _ ih =>
      obtain ⟨y, hxy, hyz⟩ := hxz
      obtain ⟨ys, hxs, hzs⟩ := ih
      exact ⟨y :: ys, .cons hxy hxs, .cons hyz hzs⟩
  · rintro ⟨ys, hxs, hzs⟩
    induction hxs generalizing zs with
    | nil =>
      cases hzs
      exact .nil
    | cons hxy _ ih =>
      cases hzs with
      | cons hyz hrest => exact .cons ⟨_, hxy, hyz⟩ (ih hrest)

/-- There is a list of answers if there is an answer for every item. -/
theorem exists_forall₂_iff {α β : Type} {R : α → β → Prop} {xs : List α} :
    (∃ ys, List.Forall₂ R xs ys) ↔ ∀ x ∈ xs, ∃ y, R x y := by
  induction xs with
  | nil => exact iff_of_true ⟨[], .nil⟩ (fun _ hx => absurd hx List.not_mem_nil)
  | cons x rest ih =>
    rw [List.forall_mem_cons, ← ih]
    constructor
    · rintro ⟨_, h⟩
      cases h with
      | cons hx hrest => exact ⟨⟨_, hx⟩, _, hrest⟩
    · rintro ⟨⟨y, hx⟩, ys, hrest⟩
      exact ⟨y :: ys, .cons hx hrest⟩

/-! ## Documents of files -/

/-- Plain paths are sources as they are: neither the hyphen nor a pattern is among them. -/
theorem Source.resolveAll_files {files : Files} {inputs : List String}
    (h : ∀ path ∈ inputs, path ≠ "-" ∧ isPattern path = false) :
    resolveAll files inputs = .ok (inputs.map .file) := by
  induction inputs with
  | nil => rfl
  | cons path rest ih =>
    obtain ⟨⟨hhyphen, hpattern⟩, hrest⟩ := List.forall_mem_cons.mp h
    have hresolve : resolve files path = .ok [.file path] := by
      rw [resolve, if_neg (by simpa using hhyphen), if_neg (by simpa using hpattern)]
    rw [resolveAll, hresolve, ih hrest]
    rfl

namespace Selection

variable {selection : Selection} {files : Files}

/-- Without a pointer and without a filter a document is taken whole, and the engine is not
asked. -/
theorem pick_whole (hpointer : selection.pointer? = none) (hfilter : selection.filter? = none)
    (v : Json.Value) : selection.pick engine v = .ok v := by
  rw [pick, follow, hpointer]
  dsimp only
  rw [hfilter]

/-- The document of a source that is meant as a whole. -/
theorem document_eq_ok_iff (hpointer : selection.pointer? = none)
    (hfilter : selection.filter? = none) {source : Source} {text : String} {document : Document} :
    selection.document engine source text = .ok document ↔
      ∃ v, Json.Value.parse text = .ok v ∧ document = ⟨source.label, source.stem, v⟩ := by
  rw [Selection.document]
  simp only [bind_eq_ok_iff, mapError_eq_ok_iff, pick_whole hpointer hfilter]
  constructor
  · rintro ⟨v, hv, w, hw, hdocument⟩
    cases hw
    exact ⟨v, hv, (Except.ok.inj hdocument).symm⟩
  · rintro ⟨v, hv, rfl⟩
    exact ⟨v, hv, v, rfl, rfl⟩

/-- The documents of files are read if all their texts are documents. Without a pointer and a
filter the values are those that the texts are parsed to, in the order of the files. -/
theorem load_eq_ok_iff (hpointer : selection.pointer? = none)
    (hfilter : selection.filter? = none) {paths texts : List String}
    (hread : List.Forall₂ (fun path text => files.read path = .ok text) paths texts)
    {values : List Json.Value} :
    (∃ documents, selection.load engine files input (paths.map .file) = .ok documents ∧
        documents.map Document.value = values) ↔
      List.Forall₂ (fun text v => Json.Value.parse text = .ok v) texts values := by
  induction hread generalizing values with
  | nil =>
    rw [List.forall₂_nil_left_iff]
    constructor
    · rintro ⟨documents, hload, hvalues⟩
      cases hload
      exact hvalues.symm
    · rintro rfl
      exact ⟨[], rfl, rfl⟩
  -- a text that is read is followed by the same question about the files behind it
  | @cons path text paths texts hpath hpaths ih =>
    have htext : Selection.text files input (.file path) = .ok text := by
      rw [Selection.text, hpath]
      rfl
    rw [List.map_cons, load, htext]
    simp only [bind_eq_ok_iff, document_eq_ok_iff hpointer hfilter]
    constructor
    · rintro ⟨documents, ⟨_, hfirst, _, ⟨v, hv, rfl⟩, more, hmore, hdocuments⟩, rfl⟩
      cases hfirst
      cases hdocuments
      exact .cons hv (ih.mp ⟨more, hmore, rfl⟩)
    · intro hvalues
      cases hvalues with
      | cons hv hrest =>
        obtain ⟨more, hmore, rfl⟩ := ih.mpr hrest
        exact ⟨_, ⟨text, rfl, _, ⟨_, hv, rfl⟩, more, hmore, rfl⟩, rfl⟩

end Selection

/-! ## Printing -/

namespace Work

variable {α β : Type}

/-- Work in two steps succeeds if both do, one from where the other has left the session. -/
theorem bind_eq_ok_iff {work : Work α} {next : α → Work β} {b : β} :
    (work >>= next) s = .ok b s' ↔ ∃ a t, work s = .ok a t ∧ next a t = .ok b s' := by
  constructor
  · exact bind_eq_ok
  · rintro ⟨a, t, hwork, hnext⟩
    show EStateM.bind work next s = .ok b s'
    rw [EStateM.bind, hwork]
    exact hnext

/-- Steps that only read come first, and leave the session as it is for those behind them. -/
theorem ofExcept_bind_eq_ok_iff {result : Except RunFailure α} {next : α → Work β} {b : β} :
    (Work.ofExcept result >>= next) s = .ok b s' ↔
      ∃ a, result = .ok a ∧ next a s = .ok b s' := by
  rw [bind_eq_ok_iff]
  constructor
  · rintro ⟨a, t, ha, hnext⟩
    obtain ⟨hresult, rfl⟩ := ofExcept_eq_ok_iff.mp ha
    exact ⟨a, hresult, hnext⟩
  · rintro ⟨a, hresult, hnext⟩
    exact ⟨a, s, ofExcept_eq_ok_iff.mpr ⟨hresult, rfl⟩, hnext⟩

/-- Printing adds a text to what is printed and changes nothing else. -/
theorem print_eq_ok_iff {text : String} :
    Work.print text s = .ok () s' ↔ s' = { s with printed := s.printed ++ text } := by
  show EStateM.Result.ok () { s with printed := s.printed ++ text } = .ok () s' ↔ _
  rw [EStateM.Result.ok.injEq, and_iff_right rfl, eq_comm]

end Work

namespace Job

variable {job : Job}

/-- The declarations of a document are those that a single request for it would be answered
by. -/
theorem declarations_eq_ok_iff {document : Document} {output : Rendered} :
    job.declarations document = .ok output ↔
      ∃ shape, inferShape document.value = .ok shape ∧
        emit job.target shape job.rootName job.bag = .ok output := by
  rw [declarations, mapError_eq_ok_iff]
  exact bind_eq_ok_iff

/-- One document: its declarations are printed. -/
theorem deliverOne_console_iff (h : job.destination = .console) {document : Document} :
    job.deliverOne document s = .ok () s' ↔
      ∃ output, job.declarations document = .ok output ∧
        s' = { s with printed := s.printed ++ output.printed } := by
  rw [deliverOne, Work.ofExcept_bind_eq_ok_iff]
  refine exists_congr fun output => and_congr_right fun _ => ?_
  unfold put
  rw [h]
  exact Work.print_eq_ok_iff

/-- The run over all documents: it succeeds exactly if each has declarations, and what is
printed is put together in the order of the documents. The induction is on the documents, with
what has been printed before in front. -/
theorem deliver_console_iff (h : job.destination = .console) {documents : List Document} :
    documents.forM job.deliverOne s = .ok () s' ↔
      ∃ outputs, List.Forall₂ (fun document output => job.declarations document = .ok output)
          documents outputs ∧
        s' = { s with printed := s.printed ++ String.join (outputs.map Rendered.printed) } := by
  induction documents generalizing s with
  | nil =>
    -- no document, no text: the session is left as it is
    have hnothing : { s with printed := s.printed ++ "" } = s := by rw [String.append_empty]
    constructor
    · intro hdone
      cases hdone
      exact ⟨[], .nil, hnothing.symm⟩
    · rintro ⟨outputs, houtputs, rfl⟩
      cases houtputs
      exact congrArg (EStateM.Result.ok ()) hnothing.symm
  | cons document rest ih =>
    show (job.deliverOne document >>= fun _ => rest.forM job.deliverOne) s = .ok () s' ↔ _
    rw [Work.bind_eq_ok_iff]
    constructor
    · -- the rest is printed behind what the first document has put on standard output
      rintro ⟨⟨⟩, t, hdocument, hrest⟩
      obtain ⟨output, houtput, rfl⟩ := (deliverOne_console_iff h).mp hdocument
      obtain ⟨outputs, houtputs, rfl⟩ := ih.mp hrest
      refine ⟨output :: outputs, .cons houtput houtputs, ?_⟩
      rw [List.map_cons, String.join_cons, String.append_assoc]
    · rintro ⟨outputs, houtputs, rfl⟩
      cases houtputs with
      | @cons _ output _ outputs houtput hrest =>
        refine ⟨(), _, (deliverOne_console_iff h).mpr ⟨output, houtput, rfl⟩, ih.mpr ?_⟩
        refine ⟨outputs, hrest, ?_⟩
        rw [List.map_cons, String.join_cons, String.append_assoc]

end Job

/-! ## Runs -/

namespace Generation

variable {what : Generation} {files : Files} {texts : List String} {bag : Json.Value}

/-- The run prints declarations for whole files, at least one, which have the given texts. -/
structure Prints (what : Generation) (files : Files) (texts : List String) : Prop where
  console  : what.destination = .console
  pointer  : what.selection.pointer? = none
  filter   : what.selection.filter? = none
  /-- The inputs are paths, not standard input or patterns. -/
  paths    : ∀ input ∈ what.selection.inputs, input ≠ "-" ∧ Source.isPattern input = false
  read     : List.Forall₂ (fun path text => files.read path = .ok text) what.selection.inputs texts
  nonempty : texts ≠ []

/-- What is read for declarations that are printed: the root name, the target, the options and
the documents, in this order. No number of documents is too large, as none is written to a
file. -/
theorem prepare_console_eq_ok_iff (h : what.destination = .console) {job : Job} :
    what.prepare engine files input = .ok job ↔
      ∃ rootName, Name.validate what.rootName = .ok rootName ∧
        ∃ t, findTarget what.target = .ok t ∧
          ∃ bag, what.bag files = .ok bag ∧
            ∃ documents, what.selection.documents engine files input = .ok documents ∧
              job = ⟨t, rootName, bag, documents, .console⟩ := by
  rw [prepare]
  simp only [bind_eq_ok_iff, mapError_eq_ok_iff, h]
  refine exists_congr fun rootName => and_congr_right fun _ => exists_congr fun t =>
    and_congr_right fun _ => exists_congr fun bag => and_congr_right fun _ =>
      exists_congr fun documents => and_congr_right fun _ => ?_
  show Except.ok _ = Except.ok job ↔ _
  rw [Except.ok.injEq, eq_comm]

/-- The documents that are meant are those in the texts. -/
theorem Prints.documents_eq_ok_iff (h : what.Prints files texts) {values : List Json.Value} :
    (∃ documents, what.selection.documents engine files input = .ok documents ∧
        documents.map Document.value = values) ↔
      List.Forall₂ (fun text v => Json.Value.parse text = .ok v) texts values := by
  rw [Selection.documents, Source.resolveAll_files h.paths]
  exact Selection.load_eq_ok_iff h.pointer h.filter h.read

/-- A run that prints declarations does what the requests for its texts do. Both take the same
steps on each document; the run takes those that do not depend on documents only once. -/
theorem run_eq_ok_iff (h : what.Prints s.files texts) {rootName : String}
    (hname : Name.validate what.rootName = .ok rootName) (hbag : what.bag s.files = .ok bag) :
    what.run engine input s = .ok () s' ↔
      ∃ outputs, List.Forall₂
          (fun text output => generate text what.target what.rootName bag = .ok output)
          texts outputs ∧
        s' = { s with printed := s.printed ++ String.join (outputs.map Rendered.printed) } := by
  have hrun : what.run engine input s = .ok () s' ↔
      ∃ job, what.prepare engine s.files input = .ok job ∧ job.deliver s = .ok () s' :=
    Work.ofExcept_bind_eq_ok_iff
  -- the declarations of documents are those of their values, under the name as it was given
  have hvalues {t : Target} {all documents : List Document} {outputs : List Rendered} :
      List.Forall₂ (fun document output =>
          Job.declarations ⟨t, rootName, bag, all, .console⟩ document = .ok output)
        documents outputs ↔
      List.Forall₂ (fun v output => ∃ shape, inferShape v = .ok shape ∧
          emit t shape what.rootName bag = .ok output) (documents.map Document.value) outputs := by
    rw [List.forall₂_map_left_iff]
    simp only [Job.declarations_eq_ok_iff, emit_validate hname]
  rw [hrun]
  simp only [prepare_console_eq_ok_iff h.console, hname, hbag]
  constructor
  · rintro ⟨job, ⟨_, hroot, t, ht, _, hjob, documents, hdocuments, rfl⟩, hdeliver⟩
    cases hroot
    cases hjob
    obtain ⟨outputs, houtputs, rfl⟩ := (Job.deliver_console_iff rfl).mp hdeliver
    have hparsed := h.documents_eq_ok_iff.mp ⟨documents, hdocuments, rfl⟩
    refine ⟨outputs, ?_, rfl⟩
    simp only [generate_eq_ok_iff_of_findTarget ht]
    exact forall₂_comp_iff.mpr ⟨_, hparsed, hvalues.mp houtputs⟩
  · rintro ⟨outputs, houtputs, rfl⟩
    -- the first request knows the target
    obtain ⟨t, ht⟩ : ∃ t, findTarget what.target = .ok t := by
      cases houtputs with
      | nil => exact absurd rfl h.nonempty
      | cons hfirst _ =>
        obtain ⟨_, -, _, -, t, ht, -⟩ := generate_eq_ok_iff.mp hfirst
        exact ⟨t, ht⟩
    simp only [generate_eq_ok_iff_of_findTarget ht] at houtputs
    obtain ⟨_, hparsed, hall⟩ := forall₂_comp_iff.mp houtputs
    obtain ⟨documents, hdocuments, rfl⟩ := h.documents_eq_ok_iff.mpr hparsed
    exact ⟨_, ⟨rootName, rfl, t, ht, bag, rfl, documents, hdocuments, rfl⟩,
      (Job.deliver_console_iff rfl).mpr ⟨outputs, hvalues.mpr hall, rfl⟩⟩

end Generation

/-- **A run that prints agrees with the requests for its texts.** It succeeds exactly if every
request is answered, whatever is on standard input. Then all it does is print the answers one
after the other: an answer in one text as it is, and of one in several files each file behind
a line with its name. Blanks around the root name make no difference to a request, and as no
filter is run, neither does the engine. -/
theorem printing_run_agrees_with_requests {what : Generation} {texts : List String}
    (h : what.Prints s.files texts) {rootName : String}
    (hname : Name.validate what.rootName = .ok rootName) {bag : Json.Value}
    (hbag : what.bag s.files = .ok bag) (engine : Query.Engine)
    (input : Except Files.Fault String) :
    ((∃ s', (Command.generate what).runWith engine input s = .ok () s') ↔
      ∀ text ∈ texts, ∃ output, generate text what.target what.rootName bag = .ok output) ∧
    (∀ outputs, List.Forall₂
        (fun text output => generate text what.target what.rootName bag = .ok output)
        texts outputs →
      (Command.generate what).runWith engine input s =
        .ok () { s with
          printed := s.printed ++ String.join (outputs.map fun
            | .single content _ => content
            | .files list => String.join (list.map fun f =>
                "// ==> " ++ f.filename ++ "\n" ++ f.content)) }) ∧
    ∀ text,
      generate text what.target rootName bag = generate text what.target what.rootName bag := by
  refine ⟨?_, ?_, ?_⟩
  · -- a list of answers exists exactly if every text has one
    rw [← exists_forall₂_iff]
    constructor
    · rintro ⟨s', hrun⟩
      obtain ⟨outputs, houtputs, -⟩ := (Generation.run_eq_ok_iff h hname hbag).mp hrun
      exact ⟨outputs, houtputs⟩
    · rintro ⟨outputs, houtputs⟩
      exact ⟨_, (Generation.run_eq_ok_iff h hname hbag).mpr ⟨outputs, houtputs, rfl⟩⟩
  · intro outputs houtputs
    exact (Generation.run_eq_ok_iff h hname hbag).mpr ⟨outputs, houtputs, rfl⟩
  · intro text
    rw [generate, generate]
    simp only [emit_validate hname]

/-- A directory with two documents and an options file. -/
def measured : Session where
  files :=
    { entries := [(["a.json"], .text "\x7b\"id\":1\x7d"),
        (["b.json"], .text "[\x7b\"at\":[0.5]\x7d]"),
        (["options.json"], .text "\x7b\"useJsonProperty\":true\x7d")]
      here := [] }
  printed := "> "
  notes := ""

/-- Separate files for both documents, printed. -/
def declarationsOfMeasured : Generation where
  selection := { inputs := ["a.json", "b.json"], pointer? := none, filter? := none }
  target := " KT"
  rootName := " point "
  pairs := ["useJsonProperty=false"]
  optionsFile? := some "options.json"
  multipleFiles := true
  destination := .console

/-- One text for each of them, in another target. -/
def interfacesOfMeasured : Generation :=
  { declarationsOfMeasured with target := "ts", pairs := [], optionsFile? := none,
                                multipleFiles := false }

/-- Two answers in files and two in one text, printed behind what is there already. -/
theorem printing_run_agrees_with_requests_measured :
    declarationsOfMeasured.Prints measured.files ["\x7b\"id\":1\x7d", "[\x7b\"at\":[0.5]\x7d]"] ∧
      Name.validate declarationsOfMeasured.rootName = .ok "point" ∧
      (Command.generate declarationsOfMeasured).runWith Query.core (.ok "") measured =
        .ok () { measured with
          printed := "> // ==> Point.kt\ndata class Point(\n    val id: Int\n)\n" ++
            "// ==> Point.kt\ndata class Point(\n    val at: List<Double>\n)\n" } ∧
      interfacesOfMeasured.Prints measured.files ["\x7b\"id\":1\x7d", "[\x7b\"at\":[0.5]\x7d]"] ∧
      (Command.generate interfacesOfMeasured).runWith Query.core (.ok "") measured =
        .ok () { measured with
          printed := "> interface Point \x7b\n  id: number;\n\x7d\n" ++
            "interface Point \x7b\n  at: number[];\n\x7d\n\ntype PointArray = Point[];\n" } := by
  have hread : List.Forall₂ (fun path text => measured.files.read path = .ok text)
      ["a.json", "b.json"] ["\x7b\"id\":1\x7d", "[\x7b\"at\":[0.5]\x7d]"] :=
    .cons (by decide +kernel) (.cons (by decide +kernel) .nil)
  have hfiles : declarationsOfMeasured.Prints measured.files
      ["\x7b\"id\":1\x7d", "[\x7b\"at\":[0.5]\x7d]"] :=
    ⟨rfl, rfl, rfl, by decide +kernel, hread, by decide⟩
  have htexts : interfacesOfMeasured.Prints measured.files
      ["\x7b\"id\":1\x7d", "[\x7b\"at\":[0.5]\x7d]"] :=
    ⟨rfl, rfl, rfl, by decide +kernel, hread, by decide⟩
  have hname : Name.validate declarationsOfMeasured.rootName = .ok "point" := by decide +kernel
  refine ⟨hfiles, hname, ?_, htexts, ?_⟩
  · -- the bag is compared through what the requests answer with it
    have hanswers : (declarationsOfMeasured.bag measured.files).map (fun bag =>
          (generate "\x7b\"id\":1\x7d" " KT" " point " bag,
            generate "[\x7b\"at\":[0.5]\x7d]" " KT" " point " bag)) =
        .ok (.ok (.files [⟨"Point.kt", "data class Point(\n    val id: Int\n)\n", .kotlin⟩]),
          .ok (.files
            [⟨"Point.kt", "data class Point(\n    val at: List<Double>\n)\n", .kotlin⟩])) := by
      decide +kernel
    cases hbag : declarationsOfMeasured.bag measured.files with
    | error f => rw [hbag] at hanswers; cases hanswers
    | ok bag =>
      rw [hbag] at hanswers
      obtain ⟨hfirst, hsecond⟩ := Prod.mk.inj (Except.ok.inj hanswers)
      exact (printing_run_agrees_with_requests hfiles hname hbag Query.core (.ok "")).2.1
        [.files [⟨"Point.kt", _, .kotlin⟩], .files [⟨"Point.kt", _, .kotlin⟩]]
        (.cons hfirst (.cons hsecond .nil))
  · have hfirst : generate "\x7b\"id\":1\x7d" "ts" " point " (.object []) =
        .ok (.single "interface Point \x7b\n  id: number;\n\x7d\n" .typeScript) := by
      decide +kernel
    have hsecond : generate "[\x7b\"at\":[0.5]\x7d]" "ts" " point " (.object []) =
        .ok (.single "interface Point \x7b\n  at: number[];\n\x7d\n\ntype PointArray = Point[];\n"
          .typeScript) := by
      decide +kernel
    exact (printing_run_agrees_with_requests htexts hname rfl Query.core (.ok "")).2.1
      [.single _ .typeScript, .single _ .typeScript] (.cons hfirst (.cons hsecond .nil))

end Shapewright
