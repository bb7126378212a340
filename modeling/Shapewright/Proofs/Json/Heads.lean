import Shapewright.Json.Reader
import Shapewright.Proofs.Json.Prefixes

/-!
# Objects at the head of a text

The reader stops at the token that completes the value, which for an object is its
closing brace. What it has read does not depend on the tokens behind it, and neither
do the tokens up to the brace depend on the text behind it. So an object is read at
the head of a text exactly if the text, cut behind some brace, is that object.

Main definitions:

* `Reader.State.InList` — all that is read belongs to a list.

Main results:

* `Reader.run_object` — the tokens of an object are taken up to its closing brace.
* `Reader.openObject_of_run` — the first of them is its opening brace.
* `Source.head_of_readValue`, `Source.readValue_append` — an object at the head of a
  text is a text of its own, and is read whatever follows it.
-/

namespace Shapewright.Json

namespace Reader

variable {finish : Position} {s s' : State} {l : Lexeme} {ls behind : List Lexeme} {v w : Value}
  {outer : List Frame} {members : List (String × Value)}

/-! ## The end of an object -/

/-- Once a document is finished nothing more is read. -/
theorem run_finished : run finish (.finished v) ls = .ok (v, ls) := by
  rw [run]

/-- Until a document is finished, its tokens are taken one after the other, and the first that
cannot be taken fails the whole. -/
theorem run_cons (hs : ∀ v, s ≠ .finished v) :
    run finish s (l :: ls) =
      match step s l with
      | .ok s => run finish s ls
      | .error f => .error f := by
  cases s with
  | finished v => exact absurd rfl (hs v)
  | _ => rfl

/-- A value finishes the document only if nothing is open around it, and then it is the
document. -/
theorem eq_of_deliver_eq_finished (h : deliver v outer = .finished w) : v = w := by
  cases outer with
  | nil =>
    cases h
    rfl
  | cons frame outer => cases frame <;> cases h

/-- Where a value must begin, a token is a value other than a list or an object, or it
opens one of these. -/
theorem stepValue_cases (h : stepValue outer l = .ok s) :
    (∃ v, s = deliver v outer ∧ ∀ members, v ≠ .object members) ∨
      s = .firstItem outer ∨ (l.token = .openObject ∧ s = .firstKey outer) := by
  rw [stepValue] at h
  dsimp only at h
  split at h
  -- the words, numbers and strings
  any_goals
    cases h
    exact Or.inl ⟨_, rfl, nofun⟩
  · split at h
    · cases h
    · exact Or.inr (Or.inl (Except.ok.inj h).symm)
  · next htoken =>
    split at h
    · cases h
    · exact Or.inr (Or.inr ⟨htoken, (Except.ok.inj h).symm⟩)
  all_goals cases h

/-- Where a name may stand, nothing else may but the end of the object, and a colon must
follow. -/
theorem stepKey_eq_ok (h : stepKey members outer l = .ok s) :
    ∃ key, s = .colon members key outer := by
  rw [stepKey] at h
  split at h
  · exact ⟨_, (Except.ok.inj h).symm⟩
  all_goals cases h

/-- No single token is an object: one that begins is not finished with that. -/
theorem stepValue_ne_finished_object : stepValue outer l ≠ .ok (.finished (.object members)) := by
  intro h
  rcases stepValue_cases h with ⟨v, hv, hobject⟩ | hv | ⟨-, hv⟩
  · exact hobject members (eq_of_deliver_eq_finished hv.symm)
  · cases hv
  · cases hv

/-- Only a closing brace completes an object. Of all the steps there are, it is the only one
that delivers an object to the outside. -/
theorem closeObject_of_step (hs : ∀ v, s ≠ .finished v)
    (h : step s l = .ok (.finished (.object members))) : l.token = .closeObject := by
  -- a brace is the only token that hands on an object; what a value hands on is none
  cases s with
  | value outer => exact absurd h stepValue_ne_finished_object
  | firstItem outer =>
    rw [step] at h
    split at h
    · cases eq_of_deliver_eq_finished (Except.ok.inj h)
    · exact absurd h stepValue_ne_finished_object
  | nextItem items outer =>
    rw [step] at h
    split at h
    · cases h
    · exact absurd h stepValue_ne_finished_object
  | itemEnd items outer =>
    rw [step] at h
    split at h
    · cases eq_of_deliver_eq_finished (Except.ok.inj h)
    all_goals cases h
  | firstKey outer =>
    rw [step] at h
    split at h
    · assumption
    · obtain ⟨key, hkey⟩ := stepKey_eq_ok h
      cases hkey
  | nextKey members outer =>
    rw [step] at h
    split at h
    · cases h
    · obtain ⟨key, hkey⟩ := stepKey_eq_ok h
      cases hkey
  | colon members key outer =>
    rw [step] at h
    split at h <;> cases h
  | memberEnd members outer =>
    rw [step] at h
    split at h
    · assumption
    all_goals cases h
  | finished v => exact absurd rfl (hs v)

/-- An object is complete at a closing brace, and what is behind does not count: the same
tokens up to the brace are the same object, whatever is put behind them. -/
theorem run_object (hs : ∀ v, s ≠ .finished v)
    (h : run finish s ls = .ok (.object members, behind)) :
    ∃ taken last, ls = taken ++ last :: behind ∧ last.token = .closeObject ∧
      ∀ finish' more, run finish' s (taken ++ last :: more) = .ok (.object members, more) := by
  induction ls generalizing s with
  | nil =>
    cases s with
    | finished v => exact absurd rfl (hs v)
    | _ => cases h
  | cons l ls ih =>
    rw [run_cons hs] at h
    cases hstep : step s l with
    | error f =>
      rw [hstep] at h
      cases h
    | ok s' =>
      rw [hstep] at h
      dsimp only at h
      -- either this token completes the object, or the others do
      by_cases hs' : ∃ v, s' = .finished v
      · obtain ⟨v, rfl⟩ := hs'
        rw [run_finished] at h
        cases h
        refine ⟨[], l, rfl, closeObject_of_step hs hstep, fun finish' more => ?_⟩
        rw [List.nil_append, run_cons hs, hstep]
        exact run_finished
      · obtain ⟨taken, last, rfl, hlast, hmore⟩ := ih (fun v hv => hs' ⟨v, hv⟩) h
        refine ⟨l :: taken, last, rfl, hlast, fun finish' more => ?_⟩
        rw [List.cons_append, run_cons hs, hstep]
        exact hmore finish' more

/-! ## The beginning of an object -/

/-- Whether a container is a list. -/
def Frame.isList : Frame → Bool
  | .list _ => true
  | .member _ _ => false

/-- Whether each of the open containers is a list, the innermost one first. -/
def State.kinds : State → List Bool
  | .value outer => outer.map Frame.isList
  | .firstItem outer | .nextItem _ outer | .itemEnd _ outer => true :: outer.map Frame.isList
  | .firstKey outer | .nextKey _ outer | .colon _ _ outer | .memberEnd _ outer =>
    false :: outer.map Frame.isList
  | .finished _ => []

/-- The outermost container is a list, open or complete. -/
def State.InList (s : State) : Prop :=
  s.kinds.getLast? = some true ∨ ∃ items, s = .finished (.array items)

/-- Handing on a value closes nothing that was open around it. -/
theorem kinds_deliver (houter : outer ≠ []) :
    (deliver v outer).kinds = outer.map Frame.isList := by
  cases outer with
  | nil => exact absurd rfl houter
  | cons frame outer => cases frame <;> rfl

/-- As long as the outermost container is a list, it remains so: when a value is handed on,
when one begins, and when a name is read. -/
theorem deliver_inList (houter : (outer.map Frame.isList).getLast? = some true) :
    (deliver v outer).InList := by
  have hne : outer ≠ [] := by
    rintro rfl
    cases houter
  exact Or.inl ((congrArg List.getLast? (kinds_deliver hne)).trans houter)

/-- The list around all others may be the value itself. -/
theorem deliver_array_inList {items : List Value}
    (h : (true :: outer.map Frame.isList).getLast? = some true) :
    (deliver (.array items) outer).InList := by
  cases outer with
  | nil => exact Or.inr ⟨items, rfl⟩
  | cons frame outer => exact deliver_inList h

/-- The object around all others is not in a list. -/
theorem deliver_object_inList (h : (false :: outer.map Frame.isList).getLast? = some true) :
    (deliver (.object members) outer).InList := by
  cases outer with
  | nil => cases h
  | cons frame outer => exact deliver_inList h

theorem stepValue_inList (houter : (outer.map Frame.isList).getLast? = some true)
    (h : stepValue outer l = .ok s') : s'.InList := by
  have hinside (kind : Bool) : (kind :: outer.map Frame.isList).getLast? = some true := by
    rw [List.getLast?_cons, houter]
    rfl
  rcases stepValue_cases h with ⟨v, rfl, -⟩ | rfl | ⟨-, rfl⟩
  · exact deliver_inList houter
  · exact Or.inl (hinside true)
  · exact Or.inl (hinside false)

theorem stepKey_inList (houter : (false :: outer.map Frame.isList).getLast? = some true)
    (h : stepKey members outer l = .ok s') : s'.InList := by
  obtain ⟨key, rfl⟩ := stepKey_eq_ok h
  exact Or.inl houter

/-- No token leads out of a list that is the value: it stays the outermost container until it
is finished. -/
theorem step_inList (hs : s.InList) (h : step s l = .ok s') : s'.InList := by
  -- the outermost container stays what it is while it is open, and is then the value
  rcases hs with hs | ⟨items, rfl⟩
  · cases s with
    | value outer => exact stepValue_inList hs h
    | firstItem outer =>
      rw [step] at h
      split at h
      · cases h
        exact deliver_array_inList hs
      · have hframes : ((Frame.list [] :: outer).map Frame.isList).getLast? = some true := hs
        exact stepValue_inList hframes h
    | nextItem items outer =>
      rw [step] at h
      split at h
      · cases h
      · have hframes : ((Frame.list items :: outer).map Frame.isList).getLast? = some true := hs
        exact stepValue_inList hframes h
    | itemEnd items outer =>
      rw [step] at h
      split at h
      · cases h
        exact deliver_array_inList hs
      · cases h
        exact Or.inl hs
      · cases h
    | firstKey outer =>
      rw [step] at h
      split at h
      · cases h
        exact deliver_object_inList hs
      · exact stepKey_inList hs h
    | nextKey members outer =>
      rw [step] at h
      split at h
      · cases h
      · exact stepKey_inList hs h
    | colon members key outer =>
      rw [step] at h
      split at h
      · cases h
        exact Or.inl hs
      · cases h
    | memberEnd members outer =>
      rw [step] at h
      split at h
      · cases h
        exact deliver_object_inList hs
      · cases h
        exact Or.inl hs
      · cases h
    | finished v => cases hs
  · cases h
    exact Or.inr ⟨items, rfl⟩

/-- **A document that begins as a list ends as one.** The outermost container is never
exchanged for another one, so what it holds when it is closed are items. -/
theorem run_inList (hs : s.InList) (h : run finish s ls = .ok (v, behind)) :
    ∃ items, v = .array items := by
  induction ls generalizing s with
  | nil =>
    cases s with
    | finished w =>
      cases h
      rcases hs with hs | ⟨items, hw⟩
      · cases hs
      · exact ⟨items, State.finished.inj hw⟩
    | _ => cases h
  | cons l ls ih =>
    by_cases hfinished : ∃ w, s = .finished w
    · -- a finished document takes no further tokens, so what it is was decided before
      obtain ⟨w, rfl⟩ := hfinished
      rw [run_finished] at h
      cases h
      rcases hs with hs | ⟨items, hw⟩
      · cases hs
      · exact ⟨items, State.finished.inj hw⟩
    · rw [run_cons fun w hw => hfinished ⟨w, hw⟩] at h
      split at h
      · next hstep => exact ih (step_inList hs hstep) h
      · cases h

/-- An object begins with its opening brace: a first token that is a value would be the
document, and one that opens a list would make it a list. -/
theorem openObject_of_run (h : run finish (.value []) (l :: ls) = .ok (.object members, behind)) :
    l.token = .openObject := by
  rw [run_cons (by nofun)] at h
  split at h
  · next s hstep =>
    -- a first token may be a whole value, open a list, or open an object
    rcases stepValue_cases hstep with ⟨v, rfl, hobject⟩ | rfl | ⟨htoken, -⟩
    · rw [deliver, run_finished] at h
      cases h
      exact absurd rfl (hobject members)
    · obtain ⟨items, hitems⟩ := run_inList (Or.inl rfl) h
      cases hitems
    · exact htoken
  · cases h

end Reader

/-! ## Texts -/

variable {text : String} {v : Value} {members : List (String × Value)} {behind : List Lexeme}

/-- A text is a document if a value can be read from it and nothing is left. -/
theorem Value.parse_eq_ok_iff :
    Value.parse text = .ok v ↔ (Source.ofText text).readValue = .ok (v, []) := by
  rw [Value.parse]
  split
  · next h => simp [h]
  · next w h => simp [h]
  · next w l ls h => simp [h]

namespace Source

/-- The tokens of a text are scanned from its beginning. -/
theorem ofText_lexemes (text : String) :
    (ofText text).lexemes = Lexeme.scan .origin text.toList := rfl

/-- An object that is read from a text is a text of its own, in front of what is left. -/
theorem head_of_readValue (h : (ofText text).readValue = .ok (.object members, behind)) :
    ∃ head rest, text = head ++ rest ∧ Value.parse head = .ok (.object members) := by
  obtain ⟨taken, last, hlexemes, hlast, hmore⟩ := Reader.run_object (by nofun) h
  obtain ⟨head, tail, q, htext, -, hcut⟩ := Lexeme.scan_cut hlast hlexemes
  refine ⟨String.ofList head, String.ofList tail, ?_, Value.parse_eq_ok_iff.mpr ?_⟩
  · rw [← String.ofList_append, ← htext, String.ofList_toList]
  · -- the tokens of the head are those up to the closing brace
    have hhead : Lexeme.scan .origin head = taken ++ [last] := by
      have := hcut []
      rwa [List.append_nil, Lexeme.scan] at this
    rw [readValue, ofText_lexemes, String.toList_ofList, hhead]
    exact hmore _ []

/-- Whatever follows an object, it is read, and only blanks leave no tokens behind it. -/
theorem readValue_append {head : String} (h : Value.parse head = .ok (.object members))
    (rest : String) :
    ∃ behind, (ofText (head ++ rest)).readValue = .ok (.object members, behind) ∧
      (behind = [] ↔ rest.toList.all isBlank = true) := by
  -- what is read of the head ends in a brace, and a brace is the same token whatever follows
  obtain ⟨taken, last, hlexemes, hlast, hmore⟩ :=
    Reader.run_object (by nofun) (Value.parse_eq_ok_iff.mp h)
  obtain ⟨front, tail, q, htext, htail, hcut⟩ := Lexeme.scan_cut hlast hlexemes
  refine ⟨Lexeme.scan q (tail ++ rest.toList), ?_, ?_⟩
  · rw [readValue, ofText_lexemes, String.toList_append, htext, List.append_assoc, hcut]
    exact hmore _ _
  · rw [Lexeme.scan_eq_nil_iff, List.all_append, Lexeme.scan_eq_nil_iff.mp htail, Bool.true_and]

/-- If an object is read, the first token has opened it. -/
theorem openObject_of_readValue (h : (ofText text).readValue = .ok (.object members, behind)) :
    ∃ l ls, (ofText text).lexemes = l :: ls ∧ l.token = .openObject := by
  cases hlexemes : (ofText text).lexemes with
  -- nothing is read from a text without tokens
  | nil =>
    rw [readValue, hlexemes] at h
    cases h
  | cons l ls =>
    rw [readValue, hlexemes] at h
    exact ⟨l, ls, rfl, Reader.openObject_of_run h⟩

end Source
end Shapewright.Json
