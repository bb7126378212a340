import Shapewright.Proofs.Command.Preparing

/-!
# What a failed command leaves behind

A command reads all it needs before it writes, so what is wrong with the request
as a whole comes up before the first document is written: the name, the target and
the inputs while they are read, the options with the first document. Only a
document that is too deep, and a file that cannot be written, can stop a command
half-way; in the first case the documents in front of it are complete.

Main definitions:

* `RunFailure.isFromWriting` — the failures to create or write output.

Main results:

* `Work.forM_eq_error_iff` — a loop fails at the first item that fails.
* `Job.deliverOne_eq_error` — why a document is not written.
* `failed_run_output` — what there is after a command failed.
-/

namespace Shapewright

/-- Whether a failure comes from creating or writing output. -/
def RunFailure.isFromWriting : RunFailure → Bool
  | .noDirectory _ => true
  | .unwritable _ _ => true
  | _ => false

variable {s s' : Session} {e : RunFailure}

/-! ## Steps -/

namespace Work

variable {α β : Type}

/-- Work in two steps fails in the first, and then where that has stopped, or else in the
second. -/
theorem bind_eq_error_iff {work : Work α} {next : α → Work β} :
    (work >>= next) s = .error e s' ↔
      work s = .error e s' ∨ ∃ a t, work s = .ok a t ∧ next a t = .error e s' := by
  show EStateM.bind work next s = .error e s' ↔ _
  rw [EStateM.bind]
  cases work s with
  | ok a t =>
    constructor
    · exact fun h => Or.inr ⟨a, t, rfl, h⟩
    · rintro (h | ⟨b, u, h, hnext⟩)
      · cases h
      · cases h
        exact hnext
  -- there is no second step after a failure
  | error f t =>
    constructor
    · intro h
      cases h
      exact Or.inl rfl
    · rintro (h | ⟨b, u, h, -⟩)
      · cases h
        rfl
      · cases h

/-- A result that is only handed on leaves the session as it is, whether it is a failure or
not. -/
theorem ofExcept_eq_error_iff {result : Except RunFailure α} :
    Work.ofExcept result s = .error e s' ↔ result = .error e ∧ s = s' := by
  cases result with
  | ok a => exact ⟨nofun, nofun⟩
  | error f =>
    show EStateM.Result.error f s = .error e s' ↔ _
    simp

theorem ofExcept_eq_ok_iff {result : Except RunFailure α} {a : α} :
    Work.ofExcept result s = .ok a s' ↔ result = .ok a ∧ s = s' := by
  cases result with
  | ok b =>
    show EStateM.Result.ok b s = .ok a s' ↔ _
    simp
  | error f => exact ⟨nofun, nofun⟩

/-- Steps that only read come first: either they fail, and nothing has changed, or
the other steps go on where they began. -/
theorem ofExcept_bind_eq_error_iff {result : Except RunFailure α} {next : α → Work β} :
    (Work.ofExcept result >>= next) s = .error e s' ↔
      (result = .error e ∧ s = s') ∨ ∃ a, result = .ok a ∧ next a s = .error e s' := by
  rw [bind_eq_error_iff, ofExcept_eq_error_iff]
  constructor
  · rintro (h | ⟨a, t, ha, hnext⟩)
    · exact Or.inl h
    · obtain ⟨hresult, rfl⟩ := ofExcept_eq_ok_iff.mp ha
      exact Or.inr ⟨a, hresult, hnext⟩
  · rintro (h | ⟨a, hresult, hnext⟩)
    · exact Or.inl h
    · exact Or.inr ⟨a, s, ofExcept_eq_ok_iff.mpr ⟨hresult, rfl⟩, hnext⟩

/-- A loop fails at the first item that fails, after all items in front of it. What these have
done to the session is what the failing item starts from. -/
theorem forM_eq_error_iff {f : α → Work Unit} {items : List α} :
    items.forM f s = .error e s' ↔
      ∃ before x after t, items = before ++ x :: after ∧
        before.forM f s = .ok () t ∧ f x t = .error e s' := by
  induction items generalizing s with
  | nil =>
    constructor
    · exact nofun
    · rintro ⟨before, x, after, t, hitems, -, -⟩
      exact absurd hitems.symm (List.append_ne_nil_of_right_ne_nil before (List.cons_ne_nil _ _))
  | cons y items ih =>
    show (f y >>= fun _ => items.forM f) s = .error e s' ↔ _
    -- the first item fails, or it is done and the loop over the others fails
    rw [bind_eq_error_iff]
    constructor
    · rintro (hy | ⟨⟨⟩, t, hy, hrest⟩)
      · exact ⟨[], y, items, s, rfl, rfl, hy⟩
      · obtain ⟨before, x, after, u, rfl, hbefore, hx⟩ := ih.mp hrest
        refine ⟨y :: before, x, after, u, rfl, ?_, hx⟩
        show EStateM.bind (f y) (fun _ => before.forM f) s = .ok () u
        rw [EStateM.bind, hy]
        exact hbefore
    · rintro ⟨before, x, after, t, hitems, hbefore, hx⟩
      cases before with
      | nil =>
        obtain ⟨rfl, rfl⟩ := List.cons.inj hitems
        cases hbefore
        exact Or.inl hx
      | cons z before =>
        obtain ⟨rfl, rfl⟩ := List.cons.inj hitems
        change EStateM.bind (f y) (fun _ => before.forM f) s = .ok () t at hbefore
        rw [EStateM.bind] at hbefore
        cases hy : f y s with
        | ok a u =>
          rw [hy] at hbefore
          exact Or.inr ⟨a, u, rfl, ih.mpr ⟨before, x, after, t, rfl, hbefore, hx⟩⟩
        | error g u =>
          rw [hy] at hbefore
          cases hbefore

/-! ## Writing -/

theorem print_ne_error (text : String) : Work.print text s ≠ .error e s' := nofun

/-- Where the directories of a file cannot be made, the failure is one of writing. -/
theorem makeDirectoryFor_eq_error {path : String}
    (h : Work.makeDirectoryFor path s = .error e s') : e.isFromWriting = true := by
  rw [makeDirectoryFor] at h
  cases hparent : Files.Path.parent? path with
  | none =>
    rw [hparent] at h
    cases h
  | some directory =>
    rw [hparent] at h
    rcases bind_eq_error_iff.mp h with hget | ⟨t, u, -, hmake⟩
    · cases hget
    cases hmade : t.files.makeDirectories directory with
    | mk files fault? =>
      rw [hmade] at hmake
      -- what has been made stays, and the fault decides
      rcases bind_eq_error_iff.mp hmake with hset | ⟨⟨⟩, v, -, hfault⟩
      · cases hset
      cases fault? with
      | none => cases hfault
      | some fault =>
        cases hfault
        rfl

/-- A file is not written because of its directory or because of itself. Both are failures of
writing. -/
theorem writeFile_eq_error {path content : String}
    (h : Work.writeFile path content s = .error e s') : e.isFromWriting = true := by
  rcases bind_eq_error_iff.mp h with hdirectory | ⟨⟨⟩, t, -, hfile⟩
  · exact makeDirectoryFor_eq_error hdirectory
  rcases bind_eq_error_iff.mp hfile with hget | ⟨u, v, -, hwrite⟩
  · cases hget
  -- the directories are there by now, so that it is the file itself that fails
  cases hfiles : u.files.write path content with
  | error fault =>
    rw [hfiles] at hwrite
    cases hwrite
    rfl
  | ok files =>
    rw [hfiles] at hwrite
    cases hwrite

end Work

/-! ## One document -/

namespace Job

variable {job : Job} {document : Document}

/-- If writing does not fail, output is refused only where there are several files and place
for one, and then nothing has been written. -/
theorem put_eq_error {output : Rendered} (h : job.put document output s = .error e s')
    (he : e.isFromWriting = false) :
    s' = s ∧ e = .severalFiles ∧ ∃ path, job.destination = .file path := by
  -- a file that is not written is a failure to write, and there is none
  have hwrites {path content : String} {t : Session}
      (hwrite : Work.writeFile path content t = .error e s') : False :=
    absurd (he.symm.trans (Work.writeFile_eq_error hwrite)) Bool.false_ne_true
  cases hdestination : job.destination with
  | console =>
    simp only [put, hdestination] at h
    exact absurd h (Work.print_ne_error _)
  | file path =>
    cases output with
    | single content language =>
      simp only [put, hdestination] at h
      exact (hwrites h).elim
    | files list =>
      simp only [put, hdestination] at h
      cases h
      exact ⟨rfl, rfl, path, rfl⟩
  | directory directory =>
    simp only [put, hdestination] at h
    obtain ⟨before, ⟨path, content⟩, after, t, -, -, hwrite⟩ := Work.forM_eq_error_iff.mp h
    exact (hwrites hwrite).elim

/-- The stages of a document's declarations: its shape comes before the options are decoded,
which are the same for all documents. -/
theorem declarations_eq (job : Job) (document : Document) :
    job.declarations document =
      match inferShape document.value with
      | .error f => .error (.generation f)
      | .ok shape =>
        match job.target.form.decode? job.bag with
        | .error misfit => .error (.generation (.invalidOptions job.target misfit))
        | .ok options =>
          .ok (job.target.render (planFor job.target job.rootName shape) options) := by
  rw [declarations]
  cases inferShape document.value with
  | error f => rfl
  | ok shape =>
    show (emit job.target shape job.rootName job.bag).mapError RunFailure.generation = _
    rw [emit, decodeOptions]
    cases job.target.form.decode? job.bag <;> rfl

/-- There are no declarations of a document that is too deep, nor of any document
if the options are wrong. -/
theorem declarations_eq_error (h : job.declarations document = .error e) :
    (e = .generation .tooDeep ∧ inferShape document.value = .error .tooDeep) ∨
      (e ≠ .generation .tooDeep ∧ ∀ other output, job.declarations other ≠ .ok output) := by
  have hdocument := declarations_eq job document
  cases hshape : inferShape document.value with
  | error f =>
    have hdeep : f = .tooDeep := by
      rw [inferShape] at hshape
      split at hshape
      · cases hshape
      · cases hshape
        rfl
    rw [hshape, h] at hdocument
    cases hdocument
    rw [hdeep]
    exact Or.inl ⟨rfl, rfl⟩
  | ok shape =>
    rw [hshape, h] at hdocument
    cases hoptions : job.target.form.decode? job.bag with
    | ok options =>
      rw [hoptions] at hdocument
      cases hdocument
    | error misfit =>
      rw [hoptions] at hdocument
      cases hdocument
      refine Or.inr ⟨nofun, fun other output hother => ?_⟩
      -- the options are wrong for every document
      rw [declarations_eq, hoptions] at hother
      split at hother <;> cases hother

/-- A document that is not written changes nothing, except by a failure to write.
Either it is too deep; or no document has declarations; or it has several files
where there is place for one. -/
theorem deliverOne_eq_error (h : job.deliverOne document s = .error e s')
    (he : e.isFromWriting = false) :
    s' = s ∧
      ((e = .generation .tooDeep ∧ inferShape document.value = .error .tooDeep) ∨
        (e ≠ .generation .tooDeep ∧ ((∀ other output, job.declarations other ≠ .ok output) ∨
          ∃ path, job.destination = .file path))) := by
  rcases Work.ofExcept_bind_eq_error_iff.mp h with ⟨hdeclarations, rfl⟩ | ⟨output, -, hput⟩
  · -- nothing has been written when the declarations fail
    rcases declarations_eq_error hdeclarations with hdeep | ⟨hother, hnone⟩
    · exact ⟨rfl, Or.inl hdeep⟩
    · exact ⟨rfl, Or.inr ⟨hother, Or.inl hnone⟩⟩
  · obtain ⟨hs, rfl, hfile⟩ := put_eq_error hput he
    exact ⟨hs, Or.inr ⟨nofun, Or.inr hfile⟩⟩

/-- Of a document that was written there are declarations. -/
theorem exists_declarations_of_forM {documents : List Document}
    (h : (document :: documents).forM job.deliverOne s = .ok () s') :
    ∃ output, job.declarations document = .ok output := by
  cases hdeclarations : job.declarations document with
  | ok output => exact ⟨output, rfl⟩
  | error f =>
    -- without declarations the whole list would fail at its first document
    have hfailed : (document :: documents).forM job.deliverOne s = .error f s :=
      Work.forM_eq_error_iff.mpr ⟨[], document, documents, s, rfl, rfl,
        Work.ofExcept_bind_eq_error_iff.mpr (Or.inl ⟨hdeclarations, rfl⟩)⟩
    rw [hfailed] at h
    cases h

end Job

/-! ## Whole commands -/

namespace Generation

variable {what : Generation} {engine : Query.Engine} {input : Except Files.Fault String}

/-- A run fails while it is prepared, and then it has done nothing, or in its delivery. -/
theorem run_eq_error_iff :
    what.run engine input s = .error e s' ↔
      (what.prepare engine s.files input = .error e ∧ s = s') ∨
        ∃ job, what.prepare engine s.files input = .ok job ∧ job.deliver s = .error e s' :=
  Work.ofExcept_bind_eq_error_iff

/-- A run that fails, but not while it writes, and not because of a document that is
too deep, has written nothing. -/
theorem run_eq_error (h : what.run engine input s = .error e s') (hdeep : e ≠ .generation .tooDeep)
    (hwriting : e.isFromWriting = false) : s' = s := by
  rcases run_eq_error_iff.mp h with ⟨-, rfl⟩ | ⟨job, hprepare, hdeliver⟩
  · rfl
  · obtain ⟨before, document, after, t, hdocuments, hbefore, hdocument⟩ :=
      Work.forM_eq_error_iff.mp hdeliver
    obtain ⟨rfl, hcause⟩ := Job.deliverOne_eq_error hdocument hwriting
    -- such a failure comes with the first document
    have hfirst : before = [] := by
      rcases hcause with ⟨hdeep', -⟩ | ⟨-, hnone | ⟨path, hfile⟩⟩
      · exact absurd hdeep' hdeep
      · cases before with
        | nil => rfl
        | cons other before =>
          obtain ⟨output, houtput⟩ := Job.exists_declarations_of_forM hbefore
          exact absurd houtput (hnone other output)
      · have hone := (what.prepare_eq_ok engine s.files input hprepare).2.2 path hfile
        rw [hdocuments, List.length_append, List.length_cons] at hone
        exact List.eq_nil_of_length_eq_zero (by omega)
    rw [hfirst] at hbefore
    cases hbefore
    rfl

/-- A run fails at a document that is too deep when the documents in front of it
have been written. -/
theorem run_eq_tooDeep_iff :
    what.run engine input s = .error (.generation .tooDeep) s' ↔
      ∃ job before document after, what.prepare engine s.files input = .ok job ∧
        job.documents = before ++ document :: after ∧
        inferShape document.value = .error .tooDeep ∧
        before.forM job.deliverOne s = .ok () s' := by
  rw [run_eq_error_iff]
  constructor
  · rintro (⟨hprepare, -⟩ | ⟨job, hprepare, hdeliver⟩)
    · -- no document is looked at by then
      rcases what.prepare_failsWith engine s.files input _ hprepare with
        hreading | ⟨_, h⟩ | ⟨_, h⟩ | ⟨_, h⟩ <;> cases ‹_›
    · obtain ⟨before, document, after, t, hdocuments, hbefore, hdocument⟩ :=
        Work.forM_eq_error_iff.mp hdeliver
      obtain ⟨rfl, ⟨-, hinfer⟩ | ⟨hother, -⟩⟩ := Job.deliverOne_eq_error hdocument rfl
      · exact ⟨job, before, document, after, hprepare, hdocuments, hinfer, hbefore⟩
      · exact absurd rfl hother
  · rintro ⟨job, before, document, after, hprepare, hdocuments, hinfer, hbefore⟩
    refine Or.inr ⟨job, hprepare, Work.forM_eq_error_iff.mpr ?_⟩
    refine ⟨before, document, after, s', hdocuments, hbefore, ?_⟩
    have hdeclarations : job.declarations document = .error (.generation .tooDeep) := by
      rw [Job.declarations_eq, hinfer]
    exact Work.ofExcept_bind_eq_error_iff.mpr (Or.inl ⟨hdeclarations, rfl⟩)

end Generation

/-- A schema is all there is to write, so that nothing is written before a failure. -/
theorem writeSchema_eq_error {selection : Selection} {out? : Option String}
    {engine : Query.Engine} {input : Except Files.Fault String}
    (h : writeSchema selection out? engine input s = .error e s')
    (hwriting : e.isFromWriting = false) : s' = s := by
  -- both steps in front of the writing only read
  rcases Work.ofExcept_bind_eq_error_iff.mp h with ⟨-, rfl⟩ | ⟨documents, -, h⟩
  · rfl
  rcases Work.ofExcept_bind_eq_error_iff.mp h with ⟨-, rfl⟩ | ⟨view, -, h⟩
  · rfl
  cases out? with
  | none => exact absurd h (Work.print_ne_error _)
  | some path =>
    exact absurd (hwriting.symm.trans (Work.writeFile_eq_error h)) Bool.false_ne_true

/-- **A failed command does not leave half its work behind.** If declarations fail
for another reason than a document that is too deep, and not while output is
written, nothing has been printed and no file made or changed. If a document is
too deep, there is what the same run writes for the documents in front of it, and
nothing else. Schemas that fail, but not while they are written, leave nothing. All this
holds whatever the engine makes of the filters. -/
theorem failed_run_output (engine : Query.Engine) (input : Except Files.Fault String)
    (s s' : Session) (e : RunFailure) :
    (∀ what : Generation,
      ((Command.generate what).runWith engine input s = .error e s' → e ≠ .generation .tooDeep →
        e.isFromWriting = false → s' = s) ∧
      ((Command.generate what).runWith engine input s = .error (.generation .tooDeep) s' ↔
        ∃ job before document after, what.prepare engine s.files input = .ok job ∧
          job.documents = before ++ document :: after ∧
          inferShape document.value = .error .tooDeep ∧
          before.forM job.deliverOne s = .ok () s')) ∧
    ∀ (selection : Selection) (out? : Option String),
      (Command.schema selection out?).runWith engine input s = .error e s' →
        e.isFromWriting = false → s' = s :=
  ⟨fun _ => ⟨Generation.run_eq_error, Generation.run_eq_tooDeep_iff⟩,
    fun _ _ => writeSchema_eq_error⟩

/-- The failure that a run ends in, and what it leaves behind. -/
def failureOf : EStateM.Result RunFailure Session Unit → Option (RunFailure × Session)
  | .ok _ _ => none
  | .error e s => some (e, s)

/-- A run that has a failure has failed with it. -/
theorem eq_error_of_failureOf {r : EStateM.Result RunFailure Session Unit}
    (h : failureOf r = some (e, s)) : r = .error e s := by
  cases r with
  | ok => cases h
  | error =>
    cases h
    rfl

/-- A file with a number, and a file with one list more inside each other than are
looked at. -/
def secondTooDeep : Session where
  files :=
    { entries := [(["a.json"], .text "1"),
        (["b.json"], .text (String.ofList (List.replicate 65 '[' ++ List.replicate 65 ']')))]
      here := [] }
  printed := ""
  notes := ""

def bothFiles : Selection where
  inputs := ["a.json", "b.json"]
  pointer? := none
  filter? := none

def declarationsOfBoth (pairs : List String) : Generation where
  selection := bothFiles
  target := "rust"
  rootName := "Root"
  pairs
  optionsFile? := none
  multipleFiles := false
  destination := .console

/-- The options are refused before the first file is written, the second file after
it, and nothing is there of the schemas. -/
theorem failed_run_output_secondTooDeep :
    (∃ misfit, (Command.generate (declarationsOfBoth ["color=red"])).runWith Query.core (.ok "") secondTooDeep =
      .error (.generation (.invalidOptions .rust misfit)) secondTooDeep) ∧
    (∃ s' job before document after,
      (Command.generate (declarationsOfBoth [])).runWith Query.core (.ok "") secondTooDeep =
        .error (.generation .tooDeep) s' ∧
      s'.printed = "use serde::\x7bDeserialize, Serialize\x7d;\n\n" ++
        "#[derive(Debug, Clone, Serialize, Deserialize)]\npub struct Root \x7b\n" ++
        "    // no fields observed\n\x7d\n" ∧
      (declarationsOfBoth []).prepare Query.core secondTooDeep.files (.ok "") = .ok job ∧
      job.documents = before ++ document :: after ∧
      inferShape document.value = .error .tooDeep ∧
      before.forM job.deliverOne secondTooDeep = .ok () s') ∧
    (Command.schema bothFiles none).runWith Query.core (.ok "") secondTooDeep =
      .error (.generation .tooDeep) secondTooDeep := by
  refine ⟨?_, ?_, ?_⟩
  · obtain ⟨misfit, s', h⟩ : ∃ misfit s',
        (Command.generate (declarationsOfBoth ["color=red"])).runWith Query.core (.ok "") secondTooDeep =
          .error (.generation (.invalidOptions .rust misfit)) s' :=
      ⟨⟨[.key "color"], .unknownField "color" ["multipleFiles"]⟩, secondTooDeep,
        eq_error_of_failureOf (by decide +kernel)⟩
    -- whatever it left behind, it left everything as it was
    have hs : s' = secondTooDeep :=
      ((failed_run_output _ _ _ _ _).1 _).1 h (by simp) rfl
    rw [hs] at h
    exact ⟨misfit, h⟩
  · have h : (Command.generate (declarationsOfBoth [])).runWith Query.core (.ok "") secondTooDeep =
        .error (.generation .tooDeep) { secondTooDeep with
          printed := "use serde::\x7bDeserialize, Serialize\x7d;\n\n" ++
            "#[derive(Debug, Clone, Serialize, Deserialize)]\npub struct Root \x7b\n" ++
            "    // no fields observed\n\x7d\n" } :=
      eq_error_of_failureOf (by decide +kernel)
    obtain ⟨job, before, document, after, hrun⟩ := ((failed_run_output _ _ _ _
      (.generation .tooDeep)).1 _).2.mp h
    exact ⟨_, job, before, document, after, h, rfl, hrun⟩
  · obtain ⟨s', h⟩ : ∃ s', (Command.schema bothFiles none).runWith Query.core (.ok "") secondTooDeep =
        .error (.generation .tooDeep) s' :=
      ⟨secondTooDeep, eq_error_of_failureOf (by decide +kernel)⟩
    have hs : s' = secondTooDeep := (failed_run_output _ _ _ _ _).2 _ _ h rfl
    rw [hs] at h
    exact h

end Shapewright
