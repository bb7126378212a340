import Shapewright.Generate
import Shapewright.Proofs.Plan.References
import Shapewright.Proofs.TypeScript.Pieces

/-!
# Lists around the root

A plan is made for the object inside all lists, and keeps of the lists only how many there
are. Most targets have no use for the number. TypeScript and JavaScript declare the list
type of the root behind all else, if there is an object to be the root; without an object
there is a root without members, in no lists.

Main definitions:

* `Target.listAlias?` — the list type of a root as a text.

Main results:

* `planFor_inLists` — the plan of a shape in lists.
* `Target.render_rootLayers` — the targets that have no use for the number of lists.
* `emit_inLists` — what more lists around a shape change.
-/

namespace Shapewright

open Plan Text

/-! ## Plans -/

namespace Plan

/-- Where there is no object inside the lists, the root has no members, and the number of
lists is not kept: the plan is that of an object without members. -/
theorem ofShape_of_not_isObject (r : Reserved) (rootName : String) {s : Shape}
    (h : s.innermost.isObject = false) :
    ofShape r rootName s = ofShape r rootName (.object []) := by
  have hfields : rootFields s = [] := by
    rw [rootFields]
    split
    · -- there is no object inside the lists
      next fields hinner =>
      rw [hinner] at h
      cases h
    · rfl
  have hlayers : rootLayersOf s = 0 := by
    rw [rootLayersOf, h]
    rfl
  rw [ofShape, hfields, hlayers]
  rfl

end Plan

/-- Lists around the root change the count of layers in its plan and nothing else. -/
theorem planFor_inLists (t : Target) (rootName : String) (n : Nat) (s : Shape) :
    planFor t rootName (s.inLists n) =
      { planFor t rootName s with
        rootLayers := if s.innermost.isObject then n + s.layers else 0 } :=
  ofShape_inLists t.reserved rootName n s

/-- The plan of an object, and that of the same object in lists. -/
theorem planFor_of_innermost (t : Target) (rootName : String) {s : Shape} {fields : Fields}
    (h : s.innermost = .object fields) (n : Nat) :
    planFor t rootName (s.inLists n) =
      { planFor t rootName (.object fields) with rootLayers := n + s.layers } := by
  have hplan := planFor_inLists t rootName (n + s.layers) (.object fields)
  have hlists : s.inLists n = (Shape.object fields).inLists (n + s.layers) := by
    rw [← h, Shape.inLists_add, Shape.inLists_innermost]
  rw [hlists, hplan]
  rfl

/-! ## Targets without list types -/

/-- Output that does not depend on how many lists there are around the root. -/
theorem Target.render_rootLayers {t : Target} (hts : t ≠ .typeScript) (hjs : t ≠ .javaScript)
    (p : Plan) (layers : Nat) (options : t.Options) :
    t.render { p with rootLayers := layers } options = t.render p options := by
  cases t with
  | typeScript => exact absurd rfl hts
  | javaScript => exact absurd rfl hjs
  | _ => rfl

/-! ## List types -/

/-- One more block is stacked behind a blank line; the text in front of it stays the same. -/
theorem exists_stack_concat {blocks : List String} (hne : blocks ≠ [])
    (hopen : ∀ block ∈ blocks, IsOpenEnded block) {block : String} (hblock : IsOpenEnded block) :
    ∃ text, stack "" blocks "\n\n" = text ++ "\n" ∧
      stack "" (blocks ++ [block]) "\n\n" = text ++ "\n\n" ++ block ++ "\n" := by
  refine ⟨"\n\n".intercalate blocks, ?_, ?_⟩
  · rw [stack_eq _ _ hne hopen, String.empty_append]
  · rw [stack_concat _ _ hne hblock, String.empty_append]

namespace TypeScript

/-- The list type of a root in `layers` lists. -/
def listAlias (root : String) (layers : Nat) : String :=
  "type " ++ root ++ "Array" ++ " = " ++ root ++ String.join (List.replicate layers "[]") ++ ";"

/-- The alias that the emitter prints, with one pair of brackets for each layer. -/
theorem renderAlias_eq (root : String) (layers : Nat) :
    renderAlias root layers = listAlias root layers := by
  unfold renderAlias listAlias aliasName
  simp only [String.append_assoc]

/-- The list type is declared behind everything else, with a blank line in between, and
nothing else is printed differently. -/
theorem render_withLayers {p : Plan} (hp : p.rootLayers = 0) {layers : Nat} (h : 0 < layers) :
    ∃ text, render p = .single (text ++ "\n") .typeScript ∧
      render { p with rootLayers := layers } =
        .single (text ++ "\n\n" ++ listAlias p.root.name layers ++ "\n") .typeScript := by
  -- the blocks are open at their ends, so that nothing is trimmed where they are joined
  have hopen : ∀ block ∈ p.types.map renderInterface, IsOpenEnded block := by
    intro block hblock
    obtain ⟨d, -, rfl⟩ := List.mem_map.mp hblock
    exact isOpenEnded_text (.interface d)
  have hsemicolon : IsOpenEnded ";" := ⟨';', by decide, by decide⟩
  have halias : IsOpenEnded (listAlias p.root.name layers) := hsemicolon.append _
  obtain ⟨text, hplain, hlisted⟩ := exists_stack_concat (types_map_ne_nil p _) hopen halias
  refine ⟨text, ?_, ?_⟩
  · rw [render, aliasBlocks, if_pos hp, List.append_nil, hplain]
  · have hblocks : aliasBlocks { p with rootLayers := layers } =
        [listAlias p.root.name layers] := by
      rw [aliasBlocks, if_neg (Nat.ne_of_gt h), renderAlias_eq]
    rw [render, hblocks, ← hlisted]
    rfl

end TypeScript

namespace JavaScript

/-- The list type of a root in `layers` lists. -/
def listAlias (root : String) (layers : Nat) : String :=
  "/**\n * @typedef \x7b" ++ String.join (List.replicate layers "Array<") ++ root ++
    String.join (List.replicate layers ">") ++ "\x7d " ++ root ++ "Array\n */"

/-- Going through the layers from the outside puts as many openings in front of the name as
closings behind it. -/
theorem listType_eq (name : String) (layers : Nat) :
    listType name layers = String.join (List.replicate layers "Array<") ++ name ++
      String.join (List.replicate layers ">") := by
  induction layers with
  | zero => simp [listType]
  | succ n ih =>
    -- the first word belongs to the last bracket
    have hopening : String.join (List.replicate (n + 1) "Array<") =
        "Array<" ++ String.join (List.replicate n "Array<") := by
      rw [List.replicate_succ, String.join_cons]
    have hclosing : String.join (List.replicate (n + 1) ">") =
        String.join (List.replicate n ">") ++ ">" := by
      rw [List.replicate_succ', String.join_append, String.join_cons, String.join_nil,
        String.append_empty]
    rw [listType, ih, hopening, hclosing]
    simp only [String.append_assoc]

/-- The alias that the emitter prints, with one `Array` for each layer. -/
theorem renderAlias_eq (root : String) (layers : Nat) :
    renderAlias root layers = listAlias root layers := by
  have hname : "Array\n */" = "Array" ++ "\n */" := rfl
  unfold renderAlias listAlias TypeScript.aliasName
  rw [listType_eq, hname]
  simp only [String.append_assoc]

/-- The list type is described in a comment of its own, behind everything else. -/
theorem render_withLayers {p : Plan} (hp : p.rootLayers = 0) {layers : Nat} (h : 0 < layers) :
    ∃ text, render p = .single (text ++ "\n") .javaScript ∧
      render { p with rootLayers := layers } =
        .single (text ++ "\n\n" ++ listAlias p.root.name layers ++ "\n") .javaScript := by
  -- as for the other script: every class ends in a brace
  have hopen : ∀ block ∈ p.types.map renderClass, IsOpenEnded block := by
    intro block hblock
    obtain ⟨d, -, rfl⟩ := List.mem_map.mp hblock
    have hbrace : IsOpenEnded "  \x7d\n\x7d" := ⟨'\x7d', by decide, by decide⟩
    exact hbrace.append _
  have hclosing : IsOpenEnded "Array\n */" := ⟨'/', by decide, by decide⟩
  have halias : IsOpenEnded (listAlias p.root.name layers) := hclosing.append _
  obtain ⟨text, hplain, hlisted⟩ := exists_stack_concat (types_map_ne_nil p _) hopen halias
  refine ⟨text, ?_, ?_⟩
  · rw [render, aliasBlocks, if_pos hp, List.append_nil, hplain]
  · have hblocks : aliasBlocks { p with rootLayers := layers } =
        [listAlias p.root.name layers] := by
      rw [aliasBlocks, if_neg (Nat.ne_of_gt h), renderAlias_eq]
    rw [render, hblocks, ← hlisted]
    rfl

end JavaScript

/-- The list type of a root, in the targets that declare it. -/
def Target.listAlias? (t : Target) (root : String) (layers : Nat) : Option String :=
  match t with
  | .typeScript => some (TypeScript.listAlias root layers)
  | .javaScript => some (JavaScript.listAlias root layers)
  | _ => none

/-- A target that names list types declares one behind everything else, and prints the rest as
if there were no lists. The two targets that do so differ in the text of the alias alone. -/
theorem Target.render_withLayers {t : Target} {p : Plan} (hp : p.rootLayers = 0) {layers : Nat}
    (h : 0 < layers) {listType : String}
    (hlistType : t.listAlias? p.root.name layers = some listType) (options : t.Options) :
    ∃ text, t.render p options = .single (text ++ "\n") t ∧
      t.render { p with rootLayers := layers } options =
        .single (text ++ "\n\n" ++ listType ++ "\n") t := by
  cases t with
  | typeScript =>
    cases hlistType
    exact TypeScript.render_withLayers hp h
  | javaScript =>
    cases hlistType
    exact JavaScript.render_withLayers hp h
  | _ => cases hlistType

/-! ## Output -/

/-- With the options decoded, emitting is rendering. -/
theorem emit_of_decodeOptions {t : Target} {bag : Json.Value} {options : t.Options}
    (h : decodeOptions t bag = .ok options) (s : Shape) (rootName : String) :
    emit t s rootName bag = .ok (t.render (planFor t rootName s) options) := by
  rw [emit, h]
  rfl

/-- What is emitted depends on the plan alone, once the options are decoded. -/
theorem emit_congr {t : Target} {rootName : String} {s s' : Shape}
    (h : planFor t rootName s = planFor t rootName s') (bag : Json.Value) :
    emit t s rootName bag = emit t s' rootName bag := by
  rw [emit, emit, h]

/-- **Lists around the root are transparent.** For most targets lists around a shape change
nothing. In TypeScript and JavaScript a shape with an object inside all lists is declared like
the object, and behind that, set off by a blank line, is the list type of the root, with all
lists around the object. If there is no object inside, every target declares what it declares
for an object without members. -/
theorem emit_inLists (s : Shape) (rootName : String) (bag : Json.Value) {n : Nat} (hn : 0 < n) :
    (∀ t, t ≠ .typeScript → t ≠ .javaScript →
      emit t (s.inLists n) rootName bag = emit t s rootName bag) ∧
    (∀ t fields options listType, s.innermost = .object fields → decodeOptions t bag = .ok options →
      t.listAlias? (planFor t rootName s).root.name (n + s.layers) = some listType →
        ∃ text, emit t (.object fields) rootName bag = .ok (.single (text ++ "\n") t) ∧
          emit t (s.inLists n) rootName bag =
            .ok (.single (text ++ "\n\n" ++ listType ++ "\n") t)) ∧
    (s.innermost.isObject = false → ∀ t,
      emit t (s.inLists n) rootName bag = emit t s rootName bag ∧
        emit t s rootName bag = emit t (.object []) rootName bag) := by
  refine ⟨?_, ?_, ?_⟩
  · intro t hts hjs
    rw [emit, emit, planFor_inLists]
    simp only [Target.render_rootLayers hts hjs]
  · intro t fields options listType hinner hoptions hlistType
    -- both plans have the types of the object
    have hplain := planFor_of_innermost t rootName hinner 0
    have hlisted := planFor_of_innermost t rootName hinner n
    rw [Shape.inLists] at hplain
    rw [hplain] at hlistType
    have hlayers : (planFor t rootName (.object fields)).rootLayers = 0 := rfl
    obtain ⟨text, htext, hrendered⟩ :=
      Target.render_withLayers hlayers (Nat.add_pos_left hn s.layers) hlistType options
    refine ⟨text, ?_, ?_⟩
    · rw [emit_of_decodeOptions hoptions, htext]
    · rw [emit_of_decodeOptions hoptions, hlisted, hrendered]
  · intro hobject t
    have hinner : (s.inLists n).innermost.isObject = false := by
      rw [Shape.innermost_inLists]
      exact hobject
    have hplan : planFor t rootName s = planFor t rootName (.object []) :=
      ofShape_of_not_isObject t.reserved rootName hobject
    have hlisted : planFor t rootName (s.inLists n) = planFor t rootName (.object []) :=
      ofShape_of_not_isObject t.reserved rootName hinner
    exact ⟨emit_congr (hlisted.trans hplan.symm) bag, emit_congr hplan bag⟩

/-- A list of objects in two more lists, and a list of texts. -/
theorem emit_inLists_users :
    let users := Shape.array (.object [("id", .integer)])
    emit .python (users.inLists 2) "user" .null = emit .python users "user" .null ∧
      (∃ text, emit .typeScript (.object [("id", .integer)]) "user" .null =
          .ok (.single (text ++ "\n") .typeScript) ∧
        emit .typeScript (users.inLists 2) "user" .null =
          .ok (.single (text ++ "\n\n" ++ "type UserArray = User[][][];" ++ "\n") .typeScript)) ∧
      (∃ text, emit .javaScript (.object [("id", .integer)]) "user" .null =
          .ok (.single (text ++ "\n") .javaScript) ∧
        emit .javaScript (users.inLists 2) "user" .null =
          .ok (.single (text ++ "\n\n" ++
            "/**\n * @typedef \x7bArray<Array<Array<User>>>\x7d UserArray\n */" ++ "\n")
              .javaScript)) ∧
      emit .typeScript (Shape.inLists 1 .string) "user" .null =
        emit .typeScript .string "user" .null := by
  intro users
  obtain ⟨hsame, hlisted, -⟩ := emit_inLists users "user" .null (n := 2) (by decide)
  obtain ⟨-, -, htexts⟩ := emit_inLists .string "user" .null (n := 1) (by decide)
  refine ⟨hsame .python (by decide) (by decide), ?_, ?_, (htexts rfl .typeScript).1⟩
  · exact hlisted .typeScript [("id", .integer)] {} _ rfl rfl (by decide +kernel)
  · exact hlisted .javaScript [("id", .integer)] {} _ rfl rfl (by decide +kernel)

end Shapewright
