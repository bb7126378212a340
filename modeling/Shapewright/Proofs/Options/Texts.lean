import Shapewright.Proofs.Command.FailedRuns
import Shapewright.Proofs.Json.Heads

/-!
# Options files

The text of an options file is read up to the end of the object that it begins with.
A document, and the value of an option that is given on its own, must be the whole of
its text. So the two ways to read agree on an object with nothing but blanks behind it
and on what is no object, and differ on an object with more behind it: as options it
is accepted, and what is behind it is dropped.

Main definitions:

* `BeginsWithObject` — what is read of an options file.
* `HasMoreBehind` — there is more than the object at the head.

Main results:

* `membersOfText?_eq_ok_iff` — an options file is read exactly if it begins with an object.
* `readsAsDocument_iff` — it is read like a document exactly if there is no more behind it.
* `Generation.run_eq_badOptionsFile_iff` — the runs that refuse their options file.
-/

namespace Shapewright

open Json (Value isBlank)

/-! ## Texts of options -/

namespace Options

variable {text : String} {members : List (String × Value)}

/-- The text begins with an object that has these members. -/
def BeginsWithObject (text : String) (members : List (String × Value)) : Prop :=
  ∃ head rest, text = head ++ rest ∧ Value.parse head = .ok (.object members)

/-- There is more than blanks behind an object at the head of the text. -/
def HasMoreBehind (text : String) : Prop :=
  ∃ head rest members, text = head ++ rest ∧ Value.parse head = .ok (.object members) ∧
    rest.toList.all isBlank = false

/-- Options are read from a text exactly if an object can be read from it, whatever is left
behind. -/
theorem membersOfText?_eq_ok_iff_readValue :
    membersOfText? text = .ok members ↔
      ∃ behind, (Json.Source.ofText text).readValue = .ok (.object members, behind) := by
  constructor
  · intro h
    rw [membersOfText?] at h
    split at h
    · cases h
    · split at h
      · next hread =>
        cases h
        exact ⟨_, hread⟩
      all_goals cases h
  · rintro ⟨behind, hread⟩
    -- an object begins with a brace, and this is what is looked at first
    obtain ⟨l, ls, hlexemes, htoken⟩ := Json.Source.openObject_of_readValue hread
    simp only [membersOfText?, hlexemes, htoken, hread]

/-- **An options file is read up to the end of its object.** Some head of the text is a
document that is an object; its members are the answer, and nothing behind it is looked at. -/
theorem membersOfText?_eq_ok_iff :
    membersOfText? text = .ok members ↔ BeginsWithObject text members := by
  rw [membersOfText?_eq_ok_iff_readValue]
  constructor
  · rintro ⟨behind, hread⟩
    exact Json.Source.head_of_readValue hread
  · rintro ⟨head, rest, rfl, hhead⟩
    obtain ⟨behind, hread, -⟩ := Json.Source.readValue_append hhead rest
    exact ⟨behind, hread⟩

/-- What is read as a document is read as options with the same members. -/
theorem membersOfText?_of_parse (h : Value.parse text = .ok (.object members)) :
    membersOfText? text = .ok members :=
  membersOfText?_eq_ok_iff.mpr ⟨text, "", String.append_empty.symm, h⟩

/-- With an object at its head, a text is a document only if blanks follow. -/
theorem parse_append_iff {head rest : String} {other : List (String × Value)}
    (hhead : Value.parse head = .ok (.object members)) :
    Value.parse (head ++ rest) = .ok (.object other) ↔
      other = members ∧ rest.toList.all isBlank = true := by
  obtain ⟨behind, hread, hblank⟩ := Json.Source.readValue_append hhead rest
  rw [Json.Value.parse_eq_ok_iff, hread, ← hblank]
  constructor
  · intro h
    cases h
    exact ⟨rfl, rfl⟩
  · rintro ⟨rfl, rfl⟩
    rfl

/-- So reading options is reading a document unless there is more behind the object, and only
blanks may be there. -/
theorem readsAsDocument_iff :
    (∀ members, membersOfText? text = .ok members ↔ Value.parse text = .ok (.object members)) ↔
      ¬ HasMoreBehind text := by
  constructor
  · rintro h ⟨head, rest, members, rfl, hhead, hrest⟩
    have hdocument := (h members).mp (membersOfText?_eq_ok_iff.mpr ⟨head, rest, rfl, hhead⟩)
    rw [((parse_append_iff hhead).mp hdocument).2] at hrest
    cases hrest
  · intro h members
    refine ⟨fun hmembers => ?_, membersOfText?_of_parse⟩
    obtain ⟨head, rest, rfl, hhead⟩ := membersOfText?_eq_ok_iff.mp hmembers
    refine (parse_append_iff hhead).mpr ⟨rfl, ?_⟩
    cases hrest : rest.toList.all isBlank with
    | true => rfl
    | false => exact absurd ⟨head, rest, members, rfl, hhead, hrest⟩ h

end Options

/-! ## Runs with an options file -/

open Options

variable {path : String} {misfit : TextMisfit} {s s' : Session}

/-- Options are not read again when declarations are written. -/
theorem Job.deliver_ne_badOptionsFile {job : Job} :
    job.deliver s ≠ .error (.badOptionsFile path misfit) s' := by
  intro h
  obtain ⟨before, document, after, t, -, -, hdocument⟩ := Work.forM_eq_error_iff.mp h
  rcases Work.ofExcept_bind_eq_error_iff.mp hdocument with ⟨hdeclarations, -⟩ | ⟨output, -, hput⟩
  · obtain ⟨failure, -, hfailure⟩ := mapError_eq_error_iff.mp hdeclarations
    cases hfailure
  · cases (Job.put_eq_error hput rfl).2.1

namespace Generation

variable {what : Generation} {engine : Query.Engine} {files : Files}
  {input : Except Files.Fault String}

/-- The options file gives members if there is none, or if it can be read and begins with an
object. -/
theorem fileMembers_eq_ok_iff {members : List (String × Value)} :
    what.fileMembers files = .ok members ↔
      (what.optionsFile? = none ∧ members = []) ∨
        ∃ path text, what.optionsFile? = some path ∧ files.read path = .ok text ∧
          BeginsWithObject text members := by
  rw [fileMembers]
  cases what.optionsFile? with
  | none => simp [eq_comm]
  | some place =>
    dsimp only
    constructor
    · -- two steps may fail, and each is put in the words of a failure of its own
      intro h
      obtain ⟨text, htext, h⟩ := bind_eq_ok h
      exact Or.inr ⟨place, text, rfl, mapError_eq_ok_iff.mp htext,
        membersOfText?_eq_ok_iff.mp (mapError_eq_ok_iff.mp h)⟩
    · rintro (⟨h, -⟩ | ⟨path, text, hpath, htext, h⟩)
      · cases h
      · cases hpath
        rw [htext]
        exact mapError_eq_ok_iff.mpr (membersOfText?_eq_ok_iff.mpr h)

/-- The options file is bad if it can be read and its text cannot. -/
theorem fileMembers_eq_badOptionsFile_iff :
    what.fileMembers files = .error (.badOptionsFile path misfit) ↔
      what.optionsFile? = some path ∧
        ∃ text, files.read path = .ok text ∧ membersOfText? text = .error misfit := by
  rw [fileMembers]
  cases what.optionsFile? with
  | none => simp
  | some place =>
    dsimp only
    rw [bind_eq_error_iff, Option.some_inj]
    constructor
    · rintro (h | ⟨text, htext, h⟩)
      · -- a file that cannot be read is another failure
        obtain ⟨fault, -, hfault⟩ := mapError_eq_error_iff.mp h
        cases hfault
      · obtain ⟨misfit', hmisfit, hfailure⟩ := mapError_eq_error_iff.mp h
        cases hfailure
        exact ⟨rfl, text, mapError_eq_ok_iff.mp htext, hmisfit⟩
    · rintro ⟨rfl, text, htext, hmisfit⟩
      exact Or.inr ⟨text, mapError_eq_ok_iff.mpr htext,
        mapError_eq_error_iff.mpr ⟨misfit, hmisfit, rfl⟩⟩

/-- The pairs that are put over it do not make it bad, nor do they mend it. -/
theorem bag_eq_badOptionsFile_iff :
    what.bag files = .error (.badOptionsFile path misfit) ↔
      what.fileMembers files = .error (.badOptionsFile path misfit) := by
  rw [bag, bind_eq_error_iff]
  constructor
  · rintro (h | ⟨members, -, h⟩)
    · exact h
    · cases ((addPairs_failsWith what.pairs members).map _) _ h
  · exact Or.inl

/-- The options file is refused when the name and the target are right, and before any
document is looked at. -/
theorem prepare_eq_badOptionsFile_iff :
    what.prepare engine files input = .error (.badOptionsFile path misfit) ↔
      (∃ name, Name.validate what.rootName = .ok name) ∧
        (∃ t, findTarget what.target = .ok t) ∧
        what.fileMembers files = .error (.badOptionsFile path misfit) := by
  rw [prepare]
  constructor
  · intro h
    -- of the steps one after the other, only the options can fail like this
    rcases bind_eq_error_iff.mp h with hname | ⟨name, hname, h⟩
    · obtain ⟨refusal, -, hrefusal⟩ := mapError_eq_error_iff.mp hname
      cases hrefusal
    rcases bind_eq_error_iff.mp h with htarget | ⟨t, htarget, h⟩
    · obtain ⟨unknown, -, hunknown⟩ := mapError_eq_error_iff.mp htarget
      cases hunknown
    rcases bind_eq_error_iff.mp h with hbag | ⟨bag, -, h⟩
    · exact ⟨⟨name, mapError_eq_ok_iff.mp hname⟩, ⟨t, mapError_eq_ok_iff.mp htarget⟩,
        bag_eq_badOptionsFile_iff.mp hbag⟩
    rcases bind_eq_error_iff.mp h with hdocuments | ⟨documents, -, h⟩
    · cases what.selection.documents_failsWith engine files input _ hdocuments
    -- what is left is to count the documents
    cases hdestination : what.destination with
    | file place =>
      rw [hdestination] at h
      dsimp only at h
      split at h <;> cases h
    | console =>
      rw [hdestination] at h
      cases h
    | directory place =>
      rw [hdestination] at h
      cases h
  · rintro ⟨⟨name, hname⟩, ⟨t, ht⟩, hmembers⟩
    refine bind_eq_error_iff.mpr (Or.inr ⟨name, mapError_eq_ok_iff.mpr hname, ?_⟩)
    refine bind_eq_error_iff.mpr (Or.inr ⟨t, mapError_eq_ok_iff.mpr ht, ?_⟩)
    exact bind_eq_error_iff.mpr (Or.inl (bag_eq_badOptionsFile_iff.mpr hmembers))

/-- **A run fails with its options file exactly if it gets there and the file begins with no
object.** The name of the root and the target are looked at before, and documents after, so
that neither these nor the engine matter. -/
theorem run_eq_badOptionsFile_iff :
    (∃ misfit, what.run engine input s = .error (.badOptionsFile path misfit) s') ↔
      s' = s ∧ (∃ name, Name.validate what.rootName = .ok name) ∧
        (∃ t, findTarget what.target = .ok t) ∧ what.optionsFile? = some path ∧
          ∃ text, s.files.read path = .ok text ∧ ∀ members, ¬ BeginsWithObject text members := by
  -- such a failure comes up while all is read, and is never one of writing
  have hrun (misfit : TextMisfit) :
      what.run engine input s = .error (.badOptionsFile path misfit) s' ↔
        what.prepare engine s.files input = .error (.badOptionsFile path misfit) ∧ s = s' := by
    rw [run_eq_error_iff]
    constructor
    · rintro (h | ⟨job, -, hdeliver⟩)
      · exact h
      · exact absurd hdeliver Job.deliver_ne_badOptionsFile
    · exact Or.inl
  constructor
  · rintro ⟨misfit, h⟩
    obtain ⟨hprepare, rfl⟩ := (hrun misfit).mp h
    obtain ⟨hname, htarget, hmembers⟩ := prepare_eq_badOptionsFile_iff.mp hprepare
    obtain ⟨hpath, text, htext, hmisfit⟩ := fileMembers_eq_badOptionsFile_iff.mp hmembers
    refine ⟨rfl, hname, htarget, hpath, text, htext, fun members hhead => ?_⟩
    cases hmisfit.symm.trans (membersOfText?_eq_ok_iff.mpr hhead)
  · rintro ⟨rfl, hname, htarget, hpath, text, htext, hhead⟩
    cases hmembers : membersOfText? text with
    | ok members => exact absurd (membersOfText?_eq_ok_iff.mp hmembers) (hhead members)
    | error misfit =>
      refine ⟨misfit, (hrun misfit).mpr ⟨prepare_eq_badOptionsFile_iff.mpr ?_, rfl⟩⟩
      exact ⟨hname, htarget, fileMembers_eq_badOptionsFile_iff.mpr ⟨hpath, text, htext, hmembers⟩⟩

end Generation

/-- **An options file is accepted for the object that it begins with.** The members in a
text are those of the object at its head, whatever is behind it; they are what is read
of the whole text as a document exactly if there is nothing but blanks behind. A run
takes the members of its options file in this way. It refuses the file, and leaves all
as it was, exactly if its name and its target are right and the file begins with no
object. -/
theorem options_file_is_read_as_head (text : String) (what : Generation) (engine : Query.Engine)
    (input : Except Files.Fault String) (s s' : Session) (path : String) :
    (∀ members, membersOfText? text = .ok members ↔ BeginsWithObject text members) ∧
    ((∀ members, membersOfText? text = .ok members ↔
        Value.parse text = .ok (.object members)) ↔ ¬ HasMoreBehind text) ∧
    (∀ members, what.fileMembers s.files = .ok members ↔
      (what.optionsFile? = none ∧ members = []) ∨
        ∃ place content, what.optionsFile? = some place ∧ s.files.read place = .ok content ∧
          BeginsWithObject content members) ∧
    ((∃ misfit, (Command.generate what).runWith engine input s =
        .error (.badOptionsFile path misfit) s') ↔
      s' = s ∧ (∃ name, Name.validate what.rootName = .ok name) ∧
        (∃ t, findTarget what.target = .ok t) ∧ what.optionsFile? = some path ∧
          ∃ content, s.files.read path = .ok content ∧
            ∀ members, ¬ BeginsWithObject content members) :=
  ⟨fun _ => membersOfText?_eq_ok_iff, readsAsDocument_iff,
    fun _ => Generation.fileMembers_eq_ok_iff, Generation.run_eq_badOptionsFile_iff⟩

/-- A document, and an options file with a word behind its object. -/
def wordBehind : Session where
  files :=
    { entries := [(["a.json"], .text "\x7b\"a\":1\x7d"), (["o.json"], .text "\x7b\x7d x")]
      here := [] }
  printed := ""
  notes := ""

/-- Declarations with the options in that file. -/
def withOptionsFile : Generation where
  selection := { inputs := ["a.json"], pointer? := none, filter? := none }
  target := "ts"
  rootName := "Root"
  pairs := []
  optionsFile? := some "o.json"
  multipleFiles := false
  destination := .console

/-- What is no document is accepted as an options file, and nothing fails. -/
theorem options_file_with_word_behind :
    Value.parse "\x7b\x7d x" = .error ⟨.trailingCharacters, ⟨1, 4⟩⟩ ∧
      membersOfText? "\x7b\x7d x" = .ok [] ∧
      wordBehind.files.read "o.json" = .ok "\x7b\x7d x" ∧
      failureOf ((Command.generate withOptionsFile).run (.ok "") wordBehind) = none := by
  refine ⟨?_, ?_, ?_, ?_⟩
  · with_unfolding_all rfl
  · with_unfolding_all rfl
  · rfl
  · decide +kernel

end Shapewright
