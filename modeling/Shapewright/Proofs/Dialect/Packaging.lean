import Mathlib.Data.List.Forall2
import Shapewright.Proofs.Java.Layouts

/-!
# Declarations in one text or several

Whether declarations stand in one text or in a file each, and whether Java classes are nested
or follow each other, what is declared is the same: only the imports are repeated, modifiers
are put in front of classes, and nested classes are moved to the right.

Main results:

* `Java.readNested_renderText`, `Java.readClasses_renderText` — the two layouts of one text.
* `Java.readClasses_renderFiles` — separate files.
* `Kotlin.exists_bodies` — one Kotlin text and separate files.
* `packaging_keeps_declarations` — the same declarations in all of them.
-/

namespace Shapewright

open Text

/-! ## Java -/

namespace Java

variable {p : Plan} {options : JavaOptions}

/-- All classes of a plan without modifiers, behind the imports. -/
def sourceOf (p : Plan) (options : JavaOptions) : Source :=
  ⟨textOf (importLines options), p.types.map (renderClass options "")⟩

/-- The layout is no matter of the classes: neither of its two options is read for them. -/
theorem sourceOf_layout (p : Plan) (options : JavaOptions) (multipleFiles useInnerClass : Bool) :
    sourceOf p { options with multipleFiles, useInnerClass } = sourceOf p options := rfl

/-- Classes that are nested in the last one are read back, with its first lines in front of
theirs and its closing brace behind. -/
theorem readNested_renderText (h : ∀ d ∈ p.types, IsOneLined options d)
    (hlayout : options.useInnerClass = true) :
    readNested (renderText p options) = sourceOf p options := by
  obtain ⟨hnested, hroot⟩ := List.forall_mem_append.mp h
  rw [renderText, hlayout]
  exact readNested_stack (List.forall_mem_singleton.mp hroot) hnested

/-- Classes that follow each other are read back as they stand: the nested types in the order
of the plan, and the root behind them. -/
theorem readClasses_renderText (h : ∀ d ∈ p.types, IsOneLined options d)
    (hlayout : options.useInnerClass = false) :
    readClasses (renderText p options) = sourceOf p options := by
  obtain ⟨hnested, hroot⟩ := List.forall_mem_append.mp h
  -- only the root is public here
  have hclasses : ∀ c ∈ p.nested.map (fun d => ("", d)) ++ [("public ", p.root)],
      c.1 ∈ ["", "public "] ∧ IsOneLined options c.2 :=
    List.forall_mem_append.mpr
      ⟨List.forall_mem_map.mpr fun d hd => ⟨List.mem_cons_self, hnested d hd⟩,
        List.forall_mem_singleton.mpr
          ⟨List.mem_cons_of_mem _ List.mem_cons_self, List.forall_mem_singleton.mp hroot⟩⟩
  have hread := readClasses_stack
    (List.append_ne_nil_of_right_ne_nil _ (List.cons_ne_nil _ _)) hclasses
  rw [List.map_append, List.map_append, List.map_map, List.map_map] at hread
  rw [renderText, hlayout, sourceOf, Plan.types, List.map_append]
  exact hread

/-- The file of a class has that class and the imports, so that the files together have the
classes of the plan, each with the same imports. -/
theorem readClasses_renderFiles (h : ∀ d ∈ p.types, IsOneLined options d) :
    (renderFiles p options).map (fun f => readClasses f.content) =
      (sourceOf p options).classes.map fun c => ⟨(sourceOf p options).imports, [c]⟩ := by
  rw [renderFiles, perTypeFiles, List.map_map, List.map_map, sourceOf, List.map_map]
  refine List.map_congr_left fun d hd => ?_
  simp only [Function.comp_apply]
  have hclass : ∀ c ∈ [("public ", d)], c.1 ∈ ["", "public "] ∧ IsOneLined options c.2 :=
    List.forall_mem_singleton.mpr ⟨List.mem_cons_of_mem _ List.mem_cons_self, h d hd⟩
  have hread := readClasses_stack (List.cons_ne_nil _ _) hclass
  -- nothing stands between the blocks of a single one
  have hstack (text : String) : stack (header options) [text] "" =
      stack (header options) [text] "\n\n" := by
    rw [stack, stack, String.intercalate_singleton, String.intercalate_singleton]
  rw [List.map_singleton, List.map_singleton, ← hstack] at hread
  exact hread

/-- The header is the imports of the source, with a blank line behind. -/
theorem header_eq (p : Plan) (options : JavaOptions) :
    header options = (sourceOf p options).imports ++ "\n\n" := by
  have hne : importLines options ≠ [] := List.cons_ne_nil _ _
  have hfeeds : "\n\n".toList = ['\n'] ++ ['\n'] := rfl
  rw [sourceOf, ← String.toList_inj, toList_header, ← intercalate_append_newline hne,
    String.toList_append, hfeeds, textOf, String.toList_ofList, List.append_assoc]

end Java

/-! ## Kotlin -/

namespace Kotlin

/-- A class in Kotlin does not end its last line. -/
theorem isOpenEnded_renderClass (options : KotlinOptions) (d : Declaration) :
    IsOpenEnded (renderClass options d) := by
  unfold renderClass
  split
  · exact IsOpenEnded.append ⟨'\x7d', rfl, by decide⟩ _
  · exact IsOpenEnded.append ⟨')', rfl, by decide⟩ _

/-- The single text has what is in the files between the header and the last line feed, with a
blank line between any two. -/
theorem exists_bodies (p : Plan) (options : KotlinOptions) :
    ∃ bodies : List String,
      List.Forall₂ (fun f body => f.content = header options ++ body ++ "\n")
        (perTypeFiles (p.types.map fun d => (d.name, renderClass options d)) (header options)
          Target.kotlin.extension .kotlin) bodies ∧
      stack (header options) (p.types.map (renderClass options)) "\n\n" =
        header options ++ "\n\n".intercalate bodies ++ "\n" := by
  refine ⟨p.types.map (renderClass options), ?_,
    stack_eq _ _ (p.types_map_ne_nil _)
      (List.forall_mem_map.mpr fun d _ => isOpenEnded_renderClass options d)⟩
  rw [perTypeFiles, List.map_map, List.forall₂_map_left_iff, List.forall₂_map_right_iff,
    List.forall₂_same]
  intro d _
  -- a file is a stack of one class
  have hfile := stack_eq (header options) "" (List.cons_ne_nil _ _)
    (List.forall_mem_singleton.mpr (isOpenEnded_renderClass options d))
  rw [String.intercalate_singleton] at hfile
  exact hfile

end Kotlin

/-- **Packaging never changes the declarations.** Behind the imports, the same classes are
read from a Java text with nested classes, from one whose classes follow each other, and from
separate files; they are those of the types of the plan, in order. A Kotlin text has what is
in the separate files, with blank lines in between. -/
theorem packaging_keeps_declarations {s : Shape} (hs : s.KeysDistinct) (rootName : String) :
    (∀ options : JavaOptions,
      (options.useJsonProperty = false ∨
        ∀ members ∈ s.objects, ∀ field ∈ members, IsOneLine field.1.toList) →
      ∃ nested following files source,
        Java.render (planFor .java rootName s)
            { options with multipleFiles := false, useInnerClass := true } =
          .single nested .java ∧
        Java.render (planFor .java rootName s)
            { options with multipleFiles := false, useInnerClass := false } =
          .single following .java ∧
        Java.render (planFor .java rootName s) { options with multipleFiles := true } =
          .files files ∧
        Java.readNested nested = source ∧ Java.readClasses following = source ∧
        files.map (fun f => Java.readClasses f.content) =
          source.classes.map (fun c => ⟨source.imports, [c]⟩) ∧
        Java.header options = source.imports ++ "\n\n" ∧
        source.classes = (planFor .java rootName s).types.map (Java.renderClass options "")) ∧
    ∀ options : KotlinOptions, ∃ text files bodies,
      Kotlin.render (planFor .kotlin rootName s) { options with multipleFiles := false } =
        .single text .kotlin ∧
      Kotlin.render (planFor .kotlin rootName s) { options with multipleFiles := true } =
        .files files ∧
      List.Forall₂ (fun f body => f.content = Kotlin.header options ++ body ++ "\n")
        files bodies ∧
      text = Kotlin.header options ++ "\n\n".intercalate bodies ++ "\n" := by
  constructor
  · intro options hkeys
    -- the lines are single ones in every layout, as only the keys can have line breaks in them
    have hlined (multipleFiles useInnerClass : Bool) :
        ∀ d ∈ (planFor .java rootName s).types,
          Java.IsOneLined { options with multipleFiles, useInnerClass } d :=
      Java.isOneLined_of_mem_types hs fun hwanted => hkeys.resolve_left fun hunwanted =>
        absurd (hwanted.symm.trans hunwanted) (by decide)
    have hnested := Java.readNested_renderText (hlined false true) rfl
    have hfollowing := Java.readClasses_renderText (hlined false false) rfl
    have hfiles := Java.readClasses_renderFiles (hlined true options.useInnerClass)
    -- how the classes are laid out is no part of what is read
    rw [Java.sourceOf_layout] at hnested hfollowing hfiles
    exact ⟨_, _, _, Java.sourceOf (planFor .java rootName s) options, rfl, rfl, rfl, hnested,
      hfollowing, hfiles, Java.header_eq _ options, rfl⟩
  · intro options
    obtain ⟨bodies, hfiles, htext⟩ := Kotlin.exists_bodies (planFor .kotlin rootName s) options
    exact ⟨_, _, bodies, rfl, rfl, hfiles, htext⟩

/-- Objects under keys that look like the beginning and the end of a class. -/
def classKeys : Shape :=
  .object [("public static class A \x7b", .object [("\x7d", .array (.object []))]),
    ("b", .array (.object [("c d", .integer)]))]

/-- Keys that look like classes, imports and blank lines: all layouts have the same classes. -/
theorem packaging_keeps_declarations_classKeys :
    classKeys.KeysDistinct ∧
      (∀ members ∈ classKeys.objects, ∀ field ∈ members, IsOneLine field.1.toList) ∧
      ∃ nested following files source,
        Java.render (planFor .java "order" classKeys) { useJsonProperty := true } =
          .single nested .java ∧
        Java.render (planFor .java "order" classKeys)
            { useJsonProperty := true, useInnerClass := false } = .single following .java ∧
        Java.render (planFor .java "order" classKeys)
            { useJsonProperty := true, multipleFiles := true } = .files files ∧
        Java.readNested nested = source ∧ Java.readClasses following = source ∧
        files.map (fun f => Java.readClasses f.content) =
          source.classes.map (fun c => ⟨source.imports, [c]⟩) ∧
        source.classes.length = 4 := by
  have hdistinct : classKeys.KeysDistinct := by decide
  have hkeys : ∀ members ∈ classKeys.objects, ∀ field ∈ members, IsOneLine field.1.toList := by
    decide
  obtain ⟨nested, following, files, source, hnested, hfollowing, hfiles, hreadNested,
    hreadFollowing, hreadFiles, -, hclasses⟩ :=
    (packaging_keeps_declarations hdistinct "order").1 { useJsonProperty := true } (.inr hkeys)
  have hcount : (planFor .java "order" classKeys).types.length = 4 := by decide +kernel
  exact ⟨hdistinct, hkeys, nested, following, files, source, hnested, hfollowing, hfiles,
    hreadNested, hreadFollowing, hreadFiles, by rw [hclasses, List.length_map, hcount]⟩

end Shapewright
