import Shapewright.Command.Run

/-!
# What is read before anything is written

All that a command needs is read first, and the reading fails in ways of its own.
Of the failures to make declarations only a refused name and an unknown target
come up by then, and what has been read fits the place that it is for.

Main definitions:

* `FailsWith` — a result that is there, or else a failure of a certain kind.
* `RunFailure.isFromReading` — the failures of reading options and documents.

Main results:

* `Selection.documents_failsWith`, `Generation.bag_failsWith` — reading fails in
  these ways alone.
* `Generation.prepare_failsWith` — and so does all that precedes the writing, apart
  from what is wrong with the request itself.
* `Generation.prepare_eq_ok` — what has been read when the writing begins.
-/

namespace Shapewright

/-- Whether a failure comes from reading options or documents. -/
def RunFailure.isFromReading : RunFailure → Bool
  | .noPair _ | .emptyKey _ | .badOptionsFile _ _ => true
  | .badPattern _ | .noMatch _ | .unreadable _ _ => true
  | .invalidDocument _ _ | .unselected _ _ => true
  | _ => false

/-- Whether a failure comes from reading documents. -/
def RunFailure.isFromDocuments : RunFailure → Bool
  | .badPattern _ | .noMatch _ | .unreadable _ _ => true
  | .invalidDocument _ _ | .unselected _ _ => true
  | _ => false

/-- Whether a failure comes from reading options that are given one by one. -/
def RunFailure.isFromPairs : RunFailure → Bool
  | .noPair _ | .emptyKey _ => true
  | _ => false

/-- What is wrong with documents or with pairs comes up while things are read, before anything
is made of them. -/
theorem RunFailure.isFromReading_of_isFromDocuments {e : RunFailure}
    (h : e.isFromDocuments = true) : e.isFromReading = true := by
  cases e <;> first | rfl | cases h

theorem RunFailure.isFromReading_of_isFromPairs {e : RunFailure} (h : e.isFromPairs = true) :
    e.isFromReading = true := by
  cases e <;> first | rfl | cases h

/-! ## Results and failures -/

variable {α β ε ε' : Type}

/-- Whatever failure there is has a property. -/
def FailsWith (P : RunFailure → Prop) (result : Except RunFailure α) : Prop :=
  ∀ e, result = .error e → P e

section

variable {P : RunFailure → Prop}

theorem failsWith_ok (a : α) : FailsWith P (.ok a : Except RunFailure α) := nofun

theorem failsWith_error {e : RunFailure} (h : P e) :
    FailsWith P (.error e : Except RunFailure α) := by
  intro f hf
  exact Except.error.inj hf ▸ h

/-- Two steps fail with what each of them may fail with. This is how the failures of a run are
gathered from those of its steps. -/
theorem FailsWith.bind {result : Except RunFailure α} {next : α → Except RunFailure β}
    (hresult : FailsWith P result) (hnext : ∀ a, FailsWith P (next a)) :
    FailsWith P (result >>= next) := by
  intro e h
  cases result with
  | ok a => exact hnext a e h
  | error f => exact Except.error.inj h ▸ hresult f rfl

/-- What is done with a result adds no failure. -/
theorem FailsWith.map {result : Except RunFailure α} (h : FailsWith P result) (f : α → β) :
    FailsWith P (result.map f) := by
  intro e he
  cases result with
  | ok a => cases he
  | error g => exact Except.error.inj he ▸ h g rfl

/-- A failure that is put in other words fails with these. -/
theorem failsWith_mapError {result : Except ε α} {failure : ε → RunFailure}
    (h : ∀ e, P (failure e)) : FailsWith P (result.mapError failure) := by
  cases result with
  | ok a => exact failsWith_ok a
  | error e => exact failsWith_error (h e)

/-- What a step may fail with may be said less precisely. -/
theorem FailsWith.mono {Q : RunFailure → Prop} {result : Except RunFailure α}
    (h : FailsWith P result) (hPQ : ∀ e, P e → Q e) : FailsWith Q result :=
  fun e he => hPQ e (h e he)

end

/-- A result of two steps is one of the second on the result of the first. -/
theorem bind_eq_ok {result : Except ε α} {next : α → Except ε β} {b : β}
    (h : (result >>= next) = .ok b) : ∃ a, result = .ok a ∧ next a = .ok b := by
  cases result with
  | ok a => exact ⟨a, rfl, h⟩
  | error e => cases h

/-- Two steps succeed if the first does and the second does with what the first has found. -/
theorem bind_eq_ok_iff {result : Except ε α} {next : α → Except ε β} {b : β} :
    (result >>= next) = .ok b ↔ ∃ a, result = .ok a ∧ next a = .ok b := by
  constructor
  · exact bind_eq_ok
  · rintro ⟨a, rfl, h⟩
    exact h

/-- A result of two steps fails at the first, or at the second with what the first has
returned. -/
theorem bind_eq_error_iff {result : Except ε α} {next : α → Except ε β} {e : ε} :
    (result >>= next) = .error e ↔ result = .error e ∨ ∃ a, result = .ok a ∧ next a = .error e := by
  cases result with
  | ok a =>
    constructor
    · exact fun h => Or.inr ⟨a, rfl, h⟩
    · rintro (h | ⟨b, hb, h⟩)
      · cases h
      · cases hb
        exact h
  -- the first step has failed already, and with this failure
  | error f =>
    show (.error f : Except ε β) = .error e ↔ _
    constructor
    · intro h
      cases h
      exact Or.inl rfl
    · rintro (h | ⟨b, hb, -⟩)
      · cases h
        rfl
      · cases hb

/-- Putting a failure in other words leaves a success alone. -/
theorem mapError_eq_ok_iff {result : Except ε α} {f : ε → ε'} {a : α} :
    result.mapError f = .ok a ↔ result = .ok a := by
  cases result with
  | ok b =>
    constructor <;>
    · intro h
      cases h
      rfl
  | error e => exact ⟨nofun, nofun⟩

theorem mapError_eq_error_iff {result : Except ε α} {f : ε → ε'} {e : ε'} :
    result.mapError f = .error e ↔ ∃ cause, result = .error cause ∧ f cause = e := by
  cases result with
  | ok a => exact ⟨nofun, nofun⟩
  | error cause =>
    show (.error (f cause) : Except ε' α) = .error e ↔ _
    simp

/-- A result whose failures are those of reading. -/
abbrev FailsReading (result : Except RunFailure α) : Prop :=
  FailsWith (fun e => e.isFromReading = true) result

/-- A result whose failures are those of reading documents. -/
abbrev FailsInDocuments (result : Except RunFailure α) : Prop :=
  FailsWith (fun e => e.isFromDocuments = true) result

/-- A result whose failures are those of reading options one by one. -/
abbrev FailsInPairs (result : Except RunFailure α) : Prop :=
  FailsWith (fun e => e.isFromPairs = true) result

/-! ## Documents -/

/-- An input that names no source is a pattern that is wrong or matches nothing. -/
theorem Source.resolve_failsWith (files : Files) (input : String) :
    FailsInDocuments (Source.resolve files input) := by
  rw [resolve]
  split
  · exact failsWith_ok _
  · -- a pattern may be malformed, or match nothing
    split
    · split
      · exact failsWith_error rfl
      · split
        · exact failsWith_error rfl
        · exact failsWith_ok _
    · exact failsWith_ok _

/-- The inputs are resolved one after the other, each failing like any. -/
theorem Source.resolveAll_failsWith (files : Files) (inputs : List String) :
    FailsInDocuments (Source.resolveAll files inputs) := by
  induction inputs with
  | nil => exact failsWith_ok _
  | cons input rest ih =>
    rw [resolveAll]
    exact (resolve_failsWith files input).bind fun sources => ih.bind fun more => failsWith_ok _

namespace Selection

variable (selection : Selection) (engine : Query.Engine) (files : Files)
  (input : Except Files.Fault String)

/-- A source that cannot be read is a failure of documents. -/
theorem text_failsWith (source : Source) : FailsInDocuments (text files input source) := by
  cases source with
  | standardInput => exact failsWith_mapError fun fault => rfl
  | file path => exact failsWith_mapError fun fault => rfl

/-- A text that is no document is a failure of documents, and so is one that nothing can be
selected from. The engine that selects may fail as it likes: the failure is named after the
source. -/
theorem document_failsWith (source : Source) (content : String) :
    FailsInDocuments (selection.document engine source content) := by
  rw [document]
  exact FailsWith.bind (failsWith_mapError fun fault => rfl) fun v =>
    FailsWith.bind (failsWith_mapError fun failure => rfl) fun value => failsWith_ok _

/-- All sources fail alike, whichever of them has used up the input before. -/
theorem load_failsWith (sources : List Source) :
    ∀ input, FailsInDocuments (selection.load engine files input sources) := by
  induction sources with
  | nil => exact fun input => failsWith_ok _
  | cons source rest ih =>
    intro input
    rw [load]
    exact (text_failsWith files input source).bind fun content =>
      (selection.document_failsWith engine source content).bind fun document =>
        (ih _).bind fun more => failsWith_ok _

/-- Resolving and loading together fail with nothing else. -/
theorem documents_failsWith : FailsInDocuments (selection.documents engine files input) := by
  rw [documents]
  exact (Source.resolveAll_failsWith files selection.inputs).bind fun sources =>
    selection.load_failsWith engine files sources input

end Selection

/-! ## Options -/

/-- A pair fails for the want of a sign or of a key. -/
theorem readPair_failsWith (pair : String) : FailsInPairs (readPair pair) := by
  rw [readPair]
  split
  · exact failsWith_error rfl
  · split
    · exact failsWith_error rfl
    · exact failsWith_ok _

/-- So do all pairs, over whatever bag they are put. -/
theorem addPairs_failsWith (pairs : List String) :
    ∀ members, FailsInPairs (addPairs members pairs) := by
  induction pairs with
  | nil => exact fun members => failsWith_ok _
  | cons pair rest ih =>
    intro members
    rw [addPairs]
    exact (readPair_failsWith pair).bind fun entry => ih _

namespace Generation

variable (what : Generation) (engine : Query.Engine) (files : Files)
  (input : Except Files.Fault String)

/-- The options file fails while it is read, be it that there is no such file or that its text
is no object. -/
theorem fileMembers_failsWith : FailsReading (what.fileMembers files) := by
  rw [fileMembers]
  cases what.optionsFile? with
  | none => exact failsWith_ok _
  | some path =>
    exact FailsWith.bind (failsWith_mapError fun fault => rfl) fun text =>
      failsWith_mapError fun misfit => rfl

/-- The bag fails with its file or with its pairs. -/
theorem bag_failsWith : FailsReading (what.bag files) := by
  rw [bag]
  refine (what.fileMembers_failsWith files).bind fun members => ?_
  exact ((addPairs_failsWith what.pairs members).map _).mono
    fun e => RunFailure.isFromReading_of_isFromPairs

/-! ## All that precedes the writing -/

/-- What can be wrong with a request before its documents are looked at. -/
def IsRefusal (e : RunFailure) : Prop :=
  e.isFromReading = true ∨ (∃ refusal, e = .generation (.refusedName refusal)) ∨
    (∃ word, e = .generation (.unsupportedTarget word)) ∨ ∃ count, e = .severalInputs count

/-- The only thing wrong with a target is that there is none of that name. -/
theorem findTarget_mapError_failsWith (word : String) :
    FailsWith IsRefusal ((findTarget word).mapError .generation) := by
  rw [findTarget]
  cases Target.parse? word with
  | some t => exact failsWith_ok t
  | none => exact failsWith_error (Or.inr (Or.inr (Or.inl ⟨word, rfl⟩)))

/-- **A run that is not prepared has been refused**: it could not read something, the name of
the root is no name, there is no such target, or too many inputs go to one file. -/
theorem prepare_failsWith : FailsWith IsRefusal (what.prepare engine files input) := by
  have hreading {γ : Type} {result : Except RunFailure γ} (h : FailsReading result) :
      FailsWith IsRefusal result := h.mono fun e he => Or.inl he
  rw [prepare]
  -- the name, the target, the options and the documents, in this order
  refine (failsWith_mapError fun refusal => Or.inr (Or.inl ⟨refusal, rfl⟩)).bind fun rootName => ?_
  refine (findTarget_mapError_failsWith what.target).bind fun target => ?_
  refine (hreading (what.bag_failsWith files)).bind fun bag => ?_
  refine (hreading ((what.selection.documents_failsWith engine files input).mono
    fun e => RunFailure.isFromReading_of_isFromDocuments)).bind fun documents => ?_
  cases what.destination with
  | file path =>
    dsimp only
    split
    · exact failsWith_error (Or.inr (Or.inr (Or.inr ⟨_, rfl⟩)))
    · exact failsWith_ok _
  | console => exact failsWith_ok _
  | directory path => exact failsWith_ok _

/-- What has been read is for the place that was asked for, and is all documents that are
meant. Several documents are not for one file. -/
theorem prepare_eq_ok {job : Job} (h : what.prepare engine files input = .ok job) :
    job.destination = what.destination ∧
      what.selection.documents engine files input = .ok job.documents ∧
      ∀ path, job.destination = .file path → job.documents.length ≤ 1 := by
  rw [prepare] at h
  obtain ⟨rootName, -, h⟩ := bind_eq_ok h
  obtain ⟨target, -, h⟩ := bind_eq_ok h
  obtain ⟨bag, -, h⟩ := bind_eq_ok h
  obtain ⟨documents, hdocuments, h⟩ := bind_eq_ok h
  -- the documents are counted when all have been read, if they are for one file
  cases hdestination : what.destination with
  | file place =>
    rw [hdestination] at h
    dsimp only at h
    split at h
    · cases h
    · next hlength =>
      cases h
      exact ⟨rfl, hdocuments, fun _ _ => Nat.not_lt.mp hlength⟩
  | console =>
    rw [hdestination] at h
    cases h
    exact ⟨rfl, hdocuments, nofun⟩
  | directory place =>
    rw [hdestination] at h
    cases h
    exact ⟨rfl, hdocuments, nofun⟩

end Generation
end Shapewright
