import Shapewright.Proofs.Plan.Search
import Shapewright.Proofs.Shape.Pruning

/-!
# The stages of a request

A request can fail at four stages: the text may be no document, the document too
deep, the target unknown, and the options may not fit the target. The stages come in
this order, and what comes after them, naming the types and writing them down, always
ends well. So the first stage that fails says why there are no declarations. Each
stage looks at its own input and at what the stages before it made; the name of the
root is none of these inputs.

Main definitions:

* `Passes` — all stages succeed.
* `FailsFirst` — the failure of the first stage that fails.

Main results:

* `Passes.generate_eq`, `FailsFirst.generate_eq` — what a request answers.
* `passes_or_failsFirst` — one of these is the case.
* `request_fails_at_first_stage` — requests succeed and fail as their stages do, and
  a failure stays when inputs of later stages change.
-/

namespace Shapewright

open Json (Value)

variable {text target : String} {bag : Value}

/-! ## Stages -/

/-- The stages of a request all succeed: the text is a document, no more than 64
lists and objects are nested in the part of it that is looked at, the word means a
target, and the bag fills in its options. -/
structure Passes (text target : String) (bag : Value) (v : Value) (t : Target)
    (options : t.Options) : Prop where
  reads   : Value.parse text = .ok v
  shallow : v.pruned.depth ≤ 64
  known   : Target.parse? target = some t
  fits    : t.form.decode? bag = .ok options

/-- The first stage that fails, and how. The stages before it succeed. -/
inductive FailsFirst (text target : String) (bag : Value) : Failure → Prop where
  | reading {fault : Json.Fault} (hreads : Value.parse text = .error fault) :
      FailsFirst text target bag (.invalidJson fault)
  | depth {v : Value} (hreads : Value.parse text = .ok v) (hdeep : 64 < v.pruned.depth) :
      FailsFirst text target bag .tooDeep
  | target {v : Value} (hreads : Value.parse text = .ok v) (hshallow : v.pruned.depth ≤ 64)
      (hunknown : Target.parse? target = none) :
      FailsFirst text target bag (.unsupportedTarget target)
  | options {v : Value} {t : Target} {misfit : Options.Misfit}
      (hreads : Value.parse text = .ok v) (hshallow : v.pruned.depth ≤ 64)
      (hknown : Target.parse? target = some t) (hmisfit : t.form.decode? bag = .error misfit) :
      FailsFirst text target bag (.invalidOptions t misfit)

/-- A request passes all stages or fails at the first that it does not pass. The stages are
gone through in their order, and each is decided by what the ones before it have found. -/
theorem passes_or_failsFirst (text target : String) (bag : Value) :
    (∃ v t options, Passes text target bag v t options) ∨
      ∃ f, FailsFirst text target bag f := by
  cases hreads : Value.parse text with
  | error fault => exact Or.inr ⟨_, .reading hreads⟩
  | ok v =>
    by_cases hshallow : v.pruned.depth ≤ 64
    · cases hknown : Target.parse? target with
      | none => exact Or.inr ⟨_, .target hreads hshallow hknown⟩
      | some t =>
        cases hfits : t.form.decode? bag with
        | error misfit => exact Or.inr ⟨_, .options hreads hshallow hknown hfits⟩
        | ok options => exact Or.inl ⟨v, t, options, hreads, hshallow, hknown, hfits⟩
    · exact Or.inr ⟨_, .depth hreads (Nat.not_le.mp hshallow)⟩

/-! ## Answers -/

section

variable {v : Value}

/-- The first stage is the parser: what it makes of the text is what the others are given. -/
theorem readDocument_eq (h : Value.parse text = .ok v) : readDocument text = .ok v := by
  rw [readDocument, h]
  rfl

/-- A document with room for its containers has its shape. -/
theorem inferShape_of_le (h : v.pruned.depth ≤ 64) : inferShape v = .ok v.shape := by
  rw [inferShape_eq, if_pos h]

/-- A target is found by its identifier. -/
theorem findTarget_eq {t : Target} (h : Target.parse? target = some t) :
    findTarget target = .ok t := by
  rw [findTarget, h]

/-- A text that is a document leaves three stages: its shape, the target, and the options. -/
theorem generate_of_reads (h : Value.parse text = .ok v) (target rootName : String)
    (bag : Value) :
    generate text target rootName bag = (do
      let s ← inferShape v
      let t ← findTarget target
      emit t s rootName bag) := by
  rw [generate, readDocument_eq h]
  rfl

/-- A document that is not too deep has a shape, and leaves the target and the options. -/
theorem generate_of_shallow (hreads : Value.parse text = .ok v) (h : v.pruned.depth ≤ 64)
    (target rootName : String) (bag : Value) :
    generate text target rootName bag = (do
      let t ← findTarget target
      emit t v.shape rootName bag) := by
  rw [generate_of_reads hreads, inferShape_of_le h]
  exact pure_bind v.shape _

/-- A known target leaves the options, which are decoded for it. -/
theorem generate_of_known {t : Target} (hreads : Value.parse text = .ok v)
    (hshallow : v.pruned.depth ≤ 64) (h : Target.parse? target = some t) (rootName : String)
    (bag : Value) : generate text target rootName bag = emit t v.shape rootName bag := by
  rw [generate_of_shallow hreads hshallow, findTarget_eq h]
  rfl

end

/-- A request that passes all stages is answered by the target's own rendering of the plan. -/
theorem Passes.generate_eq {v : Value} {t : Target} {options : t.Options}
    (h : Passes text target bag v t options) (rootName : String) :
    generate text target rootName bag = .ok (t.render (planFor t rootName v.shape) options) := by
  rw [generate_of_known h.reads h.shallow h.known, emit, decodeOptions, h.fits]
  rfl

/-- A request that fails is answered by the failure of its first stage, whatever the name of
the root. -/
theorem FailsFirst.generate_eq {f : Failure} (h : FailsFirst text target bag f)
    (rootName : String) : generate text target rootName bag = .error f := by
  cases h with
  | reading hreads =>
    rw [generate, readDocument, hreads]
    rfl
  | depth hreads hdeep =>
    rw [generate_of_reads hreads, inferShape_eq, if_neg (Nat.not_le.mpr hdeep)]
    rfl
  | target hreads hshallow hunknown =>
    rw [generate_of_shallow hreads hshallow, findTarget, hunknown]
    rfl
  | options hreads hshallow hknown hmisfit =>
    rw [generate_of_known hreads hshallow hknown, emit, decodeOptions, hmisfit]
    rfl

/-- The failures are those of the stages, and no other. -/
theorem generate_eq_error_iff {rootName : String} {f : Failure} :
    generate text target rootName bag = .error f ↔ FailsFirst text target bag f := by
  constructor
  · intro h
    rcases passes_or_failsFirst text target bag with ⟨v, t, options, hpasses⟩ | ⟨g, hfails⟩
    · rw [hpasses.generate_eq] at h
      cases h
    · rw [hfails.generate_eq] at h
      cases h
      exact hfails
  · exact fun h => h.generate_eq rootName

/-- And a request succeeds exactly if it passes all stages. -/
theorem exists_generate_eq_ok_iff {rootName : String} :
    (∃ output, generate text target rootName bag = .ok output) ↔
      ∃ v t options, Passes text target bag v t options := by
  constructor
  · rintro ⟨output, h⟩
    rcases passes_or_failsFirst text target bag with hpasses | ⟨f, hfails⟩
    · exact hpasses
    · rw [hfails.generate_eq] at h
      cases h
  · rintro ⟨v, t, options, h⟩
    exact ⟨_, h.generate_eq rootName⟩

/-! ## What a failure depends on -/

/-- Whether the failure is one to find the shape of the text. -/
def Failure.isOfText : Failure → Bool
  | .invalidJson _ | .tooDeep => true
  | _ => false

/-- Whether the failure is one to fill in the options. -/
def Failure.isOfOptions : Failure → Bool
  | .invalidOptions _ _ => true
  | _ => false

/-- A failure that lies in the text is found before the target and the options are looked at. -/
theorem FailsFirst.of_isOfText {f : Failure} (h : FailsFirst text target bag f)
    (hf : f.isOfText = true) (target' : String) (bag' : Value) :
    FailsFirst text target' bag' f := by
  cases h with
  | reading hreads => exact .reading hreads
  | depth hreads hdeep => exact .depth hreads hdeep
  | target => cases hf
  | options => cases hf

/-- Options are decoded last, so that all other failures are found without them. -/
theorem FailsFirst.of_not_isOfOptions {f : Failure} (h : FailsFirst text target bag f)
    (hf : f.isOfOptions = false) (bag' : Value) : FailsFirst text target bag' f := by
  cases h with
  | reading hreads => exact .reading hreads
  | depth hreads hdeep => exact .depth hreads hdeep
  | target hreads hshallow hunknown => exact .target hreads hshallow hunknown
  | options => cases hf

/-- **Only the four stages can fail, in their order, whatever the root is called.**
A request is answered if and only if its stages all succeed, and then the unbounded
search for the names of the types ends with the plan whose declarations are the
answer. Otherwise the answer is the failure of the first stage that fails. It is the
same with every other root name; with other options, unless it is the options that do
not fit; and with another target too, if there is no shape of the text. -/
theorem request_fails_at_first_stage (text target rootName : String) (bag : Value) :
    ((∃ output, generate text target rootName bag = .ok output) ↔
        ∃ v t options, Passes text target bag v t options) ∧
      (∀ v t options, Passes text target bag v t options →
        ∃ p, (∀ q, Plan.Plans t.reserved rootName v.shape q ↔ q = p) ∧
          generate text target rootName bag = .ok (t.render p options)) ∧
      (∀ f, generate text target rootName bag = .error f ↔ FailsFirst text target bag f) ∧
      ∀ f, generate text target rootName bag = .error f →
        (∀ rootName', generate text target rootName' bag = .error f) ∧
          (f.isOfOptions = false → ∀ rootName' bag',
            generate text target rootName' bag' = .error f) ∧
          (f.isOfText = true → ∀ target' rootName' bag',
            generate text target' rootName' bag' = .error f) := by
  refine ⟨exists_generate_eq_ok_iff, ?_, fun f => generate_eq_error_iff, fun f h => ?_⟩
  · intro v t options hpasses
    -- every target leaves names to choose from, so the search for them ends
    have hreserved : t.reserved.Escapable := Reserved.Admitted.escapable (Or.inr ⟨t, rfl⟩)
    exact ⟨planFor t rootName v.shape, fun q => Plan.plans_iff hreserved,
      hpasses.generate_eq rootName⟩
  · have hfails := generate_eq_error_iff.mp h
    refine ⟨fun rootName' => hfails.generate_eq rootName', ?_, ?_⟩
    · -- the bag is looked at last
      intro hf rootName' bag'
      exact (hfails.of_not_isOfOptions hf bag').generate_eq rootName'
    · intro hf target' rootName' bag'
      exact (hfails.of_isOfText hf target' bag').generate_eq rootName'

/-- Of three faults the first one is reported, and of two. Without any, a target in
another case and an empty root name are fine. -/
theorem request_fails_at_first_stage_manyFaults :
    (∀ target rootName bag,
        generate "[" target rootName bag = .error (.invalidJson ⟨.endInList, ⟨1, 1⟩⟩)) ∧
      (∀ rootName bag,
        generate "[]" "swift" rootName bag = .error (.unsupportedTarget "swift")) ∧
      ∃ p, (∀ q, Plan.Plans Go.reserved "" (.array .any) q ↔ q = p) ∧
        generate "[]" " Go " "" .null = .ok (Go.render p {}) := by
  have hunread : generate "[" "swift" "" (.boolean true) =
      .error (.invalidJson ⟨.endInList, ⟨1, 1⟩⟩) := by
    decide +kernel
  have hunknown : generate "[]" "swift" "" (.boolean true) =
      .error (.unsupportedTarget "swift") := by
    decide +kernel
  have hpasses : Passes "[]" " Go " .null (.array []) .go {} :=
    ⟨by with_unfolding_all rfl, by decide, by decide +kernel, rfl⟩
  refine ⟨?_, ?_, ?_⟩
  · exact ((request_fails_at_first_stage _ _ _ _).2.2.2 _ hunread).2.2 rfl
  · exact ((request_fails_at_first_stage _ _ _ _).2.2.2 _ hunknown).2.1 rfl
  · exact (request_fails_at_first_stage _ _ _ _).2.1 _ _ _ hpasses

end Shapewright
