import Mathlib.Data.List.Forall2
import Shapewright.Proofs.Command.Batches

/-!
# A file for each type

Declarations can be asked for in separate files, one for each type of the plan. A file is
called after the type declared in it, and types are called by letters, digits and underscores,
whatever the keys and the root name are made of. So the files are entries of the directory
that they are written to, each of its own, in the order in which their types are needed.

Main definitions:

* `Target.separates` — the options ask for separate files.
* `IsPlainFileName` — a name that cannot lead out of a directory.
* `DeclaresClass` — a class is declared in a text.

Main results:

* `Target.render_separates` — what the targets write to separate files.
* `read_of_forM_writeFile` — files with plain names of their own are all there afterwards.
* `separate_files` — the files of a plan.
-/

namespace Shapewright

open Name

/-! ## Names of files -/

/-- Letters, digits and underscores, and the extension behind the only point. -/
structure IsPlainFileName (extension name : String) : Prop where
  form      : ∃ base, name = base ++ "." ++ extension ∧ base ≠ "" ∧
    ∀ c ∈ base.toList, isNameChar c = true
  slash     : '/' ∉ name.toList
  backslash : '\\' ∉ name.toList
  points    : ¬['.', '.'] <:+: name.toList

/-- Extensions are made of the characters of names. -/
theorem isNameChar_extension (t : Target) : ∀ c ∈ t.extension.toList, isNameChar c = true := by
  have hall : t.extension.toList.all isNameChar = true := by cases t <;> decide
  exact List.all_eq_true.mp hall

/-- A type's name with an extension is the name of a file in the directory, and of nothing
else. -/
theorem isPlainFileName_of_isDeclaredForm {name : String}
    (h : isDeclaredForm name.toList = true) (t : Target) :
    IsPlainFileName t.extension (name ++ "." ++ t.extension) := by
  have hname := isNameChar_of_isDeclaredForm h
  have hlist : (name ++ "." ++ t.extension).toList = name.toList ++ '.' :: t.extension.toList := by
    rw [String.toList_append, String.toList_append, List.append_assoc]
    rfl
  -- what is no letter of a name and no point is nowhere in it
  have hother {c : Char} (hc : isNameChar c = false) (hpoint : c ≠ '.') :
      c ∉ (name ++ "." ++ t.extension).toList := by
    rw [hlist, List.mem_append, List.mem_cons]
    rintro (hmem | rfl | hmem)
    · exact absurd (hc.symm.trans (hname c hmem)) Bool.false_ne_true
    · exact hpoint rfl
    · exact absurd (hc.symm.trans (isNameChar_extension t c hmem)) Bool.false_ne_true
  refine ⟨⟨name, rfl, ?_, hname⟩, hother rfl (by decide), hother rfl (by decide), ?_⟩
  · rintro rfl
    exact absurd h Bool.false_ne_true
  · -- there is one point only
    intro hinfix
    have hcount := hinfix.sublist.count_le '.'
    have hbefore : name.toList.count '.' = 0 :=
      List.count_eq_zero.mpr fun hmem => absurd (hname '.' hmem) (by decide)
    have hbehind : t.extension.toList.count '.' = 0 :=
      List.count_eq_zero.mpr fun hmem => absurd (isNameChar_extension t '.' hmem) (by decide)
    rw [hlist, List.count_append, hbefore, List.count_cons_self (l := t.extension.toList),
      hbehind] at hcount
    exact absurd hcount (by decide)

/-- Going through a list that was made of another one is going through that. -/
theorem Work.forM_map {α β : Type} (g : α → β) (f : β → Work Unit) (list : List α) :
    (list.map g).forM f = list.forM fun x => f (g x) := by
  induction list with
  | nil => rfl
  | cons x rest ih => exact congrArg (fun work => f (g x) >>= fun _ => work) ih

/-- Files with plain names of their own have places of their own in any directory, so that
each is there when all have been written. -/
theorem read_of_forM_writeFile {t : Target} {list : List SourceFile}
    (hplain : ∀ f ∈ list, IsPlainFileName t.extension f.filename)
    (hnodup : (list.map SourceFile.filename).Nodup) {directory : String} {s s' : Session}
    (hwrite : (list.forM fun f =>
      Work.writeFile (Files.Path.join directory f.filename) f.content) s = .ok () s') :
    ∀ f ∈ list, s'.files.read (Files.Path.join directory f.filename) = .ok f.content := by
  intro f hf
  have hplace : ∀ g ∈ list, s.files.placeOf (Files.Path.join directory g.filename) =
      s.files.placeOf directory ++ [g.filename] := by
    intro g hg
    obtain ⟨base, hbase, -, -⟩ := (hplain g hg).form
    rw [Files.placeOf_join _ _ (hplain g hg).slash, hbase, Files.next_fileName]
  have hpairs : ((list.map fun f : SourceFile =>
      (Files.Path.join directory f.filename, f.content)).forM
        fun file => Work.writeFile file.1 file.2) s = .ok () s' := by
    rw [Work.forM_map]
    exact hwrite
  have hholds := (Files.Holds.nil s.files).forM_writeFile hpairs
  obtain ⟨other, hother, hsame, hread⟩ := hholds.text _ (List.mem_map_of_mem hf)
  obtain ⟨g, hg, rfl⟩ := List.mem_map.mp hother
  -- a file in the same place has the same name, and so it is the same file
  rw [hplace g hg, hplace f hf, List.append_cancel_left_eq, List.singleton_inj] at hsame
  obtain rfl : g = f := List.inj_on_of_nodup_map hnodup hg hf hsame
  exact hread

/-! ## What is in the files -/

/-- A class of the name is declared in the text: nothing goes on with the name. -/
def DeclaresClass (name text : String) : Prop :=
  ∃ before c after, text.toList = before ++ "class ".toList ++ name.toList ++ c :: after ∧
    isNameChar c = false

/-- A header in front of a class does not hide it, nor does a line feed that is put behind. -/
theorem DeclaresClass.stack {name text : String} (h : DeclaresClass name text) (header : String) :
    DeclaresClass name (stack header [text] "") := by
  obtain ⟨before, c, after, htext, hc⟩ := h
  -- the stack ends in a line feed, which may have been put there
  have hstack : ∃ more : List Char,
      (Shapewright.stack header [text] "").toList = header.toList ++ text.toList ++ more := by
    rw [Shapewright.stack, endLine, String.intercalate_singleton]
    split
    · exact ⟨[], by rw [String.toList_append, List.append_nil]⟩
    · exact ⟨['\n'], by rw [String.toList_append, String.toList_append]; rfl⟩
  obtain ⟨more, hmore⟩ := hstack
  refine ⟨header.toList ++ before, c, after ++ more, ?_, hc⟩
  rw [hmore, htext]
  simp only [List.append_assoc, List.cons_append]

/-- What is printed for a type declares a class of its name, behind annotations and a modifier
if there are any. -/
theorem Java.declaresClass_renderClass (options : JavaOptions) (modifier : String)
    (d : Declaration) : DeclaresClass d.name (renderClass options modifier d) := by
  refine ⟨(annotations options (d.slots.map Field.ofMember)).toList ++ modifier.toList, ' ',
    ("\x7b\n" ++ "\n".intercalate (members options d.name (d.slots.map Field.ofMember)) ++
      "\x7d").toList, ?_, rfl⟩
  unfold renderClass
  simp only [String.toList_append, List.append_assoc]
  rfl

/-- What is printed for a type declares a class of its name: a data class, or a plain one if
there are no fields. -/
theorem Kotlin.declaresClass_renderClass (options : KotlinOptions) (d : Declaration) :
    DeclaresClass d.name (renderClass options d) := by
  unfold renderClass
  split
  · refine ⟨[], ' ', "\x7b\n    // no fields observed\n\x7d".toList, ?_, rfl⟩
    simp only [String.toList_append, List.append_assoc, List.nil_append]
    rfl
  · refine ⟨"data ".toList, '(',
      ("\n" ++ ",\n".intercalate (d.slots.map (renderProperty options)) ++ "\n)").toList, ?_, rfl⟩
    simp only [String.toList_append, List.append_assoc]
    rfl

namespace Target

/-- Whether the options ask the target for a file for each type. -/
def separates : (t : Target) → t.Options → Bool
  | .java, options => JavaOptions.multipleFiles options
  | .kotlin, options => KotlinOptions.multipleFiles options
  | _, _ => false

/-- The types of a plan are declared in files of their own, each of which has the declaration
of its type behind the same header. -/
theorem render_separates {t : Target} {options : t.Options} (h : t.separates options = true) :
    ∃ (text : Declaration → String) (header : String),
      (∀ p, t.render p options =
        .files (perTypeFiles (p.types.map fun d => (d.name, text d)) header t.extension t)) ∧
      ∀ d, DeclaresClass d.name (text d) := by
  cases t with
  | java =>
    exact ⟨Java.renderClass options "public ", Java.header options, fun p => if_pos h,
      Java.declaresClass_renderClass options "public "⟩
  | kotlin =>
    exact ⟨Kotlin.renderClass options, Kotlin.header options, fun p => if_pos h,
      Kotlin.declaresClass_renderClass options⟩
  -- no other target has files for its types
  | _ => exact absurd h Bool.false_ne_true

end Target

/-- **One safe file for each type.** The files are those of the types of the plan, in order:
each declares its type and is called after it, the types it refers to are declared in earlier
files, and the root is in the last one. Their names are plain and all different, and so every
file is there when they have been written to one directory. -/
theorem separate_files {t : Target} {bag : Json.Value} {options : t.Options}
    (hoptions : decodeOptions t bag = .ok options) (hfiles : t.separates options = true)
    {s : Shape} (hs : s.KeysDistinct) (rootName : String) :
    ∃ list, emit t s rootName bag = .ok (.files list) ∧
      List.Forall₂ (fun d f => f.filename = d.name ++ "." ++ t.extension ∧
        DeclaresClass d.name f.content) (planFor t rootName s).types list ∧
      (∀ (i : Nat) (d : Declaration), (planFor t rootName s).types[i]? = some d →
        ∀ name ∈ d.references,
          ∃ j < i, ∃ f, list[j]? = some f ∧ f.filename = name ++ "." ++ t.extension) ∧
      list.getLast?.map SourceFile.filename =
        some ((planFor t rootName s).root.name ++ "." ++ t.extension) ∧
      (∀ f ∈ list, IsPlainFileName t.extension f.filename) ∧
      (list.map SourceFile.filename).Nodup ∧
      ∀ directory start final,
        (list.forM fun f =>
          Work.writeFile (Files.Path.join directory f.filename) f.content) start = .ok () final →
        ∀ f ∈ list, final.files.read (Files.Path.join directory f.filename) = .ok f.content := by
  have hr : t.reserved.Escapable := Reserved.Admitted.escapable (Or.inr ⟨t, rfl⟩)
  obtain ⟨text, header, hrender, hdeclares⟩ := Target.render_separates hfiles
  generalize hp : planFor t rootName s = p
  have hplan : p = Plan.ofShape t.reserved rootName s := hp.symm
  -- the file of a type
  let file (d : Declaration) : SourceFile :=
    ⟨d.name ++ "." ++ t.extension, stack header [text d] "", t⟩
  have hnames : (p.types.map file).map SourceFile.filename =
      (p.types.map Declaration.name).map fun name => name ++ "." ++ t.extension := by
    rw [List.map_map, List.map_map]
    rfl
  have hplain : ∀ f ∈ p.types.map file, IsPlainFileName t.extension f.filename := by
    intro f hf
    obtain ⟨d, hd, rfl⟩ := List.mem_map.mp hf
    rw [hplan] at hd
    exact isPlainFileName_of_isDeclaredForm
      (Plan.isDeclarable_of_mem_declaredNames hr d.name (List.mem_map_of_mem hd)).form t
  have hnodup : ((p.types.map file).map SourceFile.filename).Nodup := by
    rw [hnames, hplan]
    exact (Plan.isSupply_declaredNames hr rootName s).nodup.map fun _ _ => Files.fileName_inj
  refine ⟨p.types.map file, ?_, ?_, ?_, ?_, hplain, hnodup, fun directory start final =>
    read_of_forM_writeFile hplain hnodup⟩
  · rw [emit, hoptions, hp, Except.map, hrender, perTypeFiles, List.map_map]
    rfl
  · rw [List.forall₂_map_right_iff, List.forall₂_same]
    exact fun d _ => ⟨rfl, (hdeclares d).stack header⟩
  · intro i d hi name hname
    rw [hplan] at hi
    have hearlier := Plan.exists_earlier_of_mem_references
      (Plan.dependenciesFirst_types t.reserved rootName s)
      (fun e he => (Plan.isComplete_of_mem_types hs t.reserved rootName e he).references_eq) hi
    obtain ⟨j, hj, e, he, rfl⟩ := hearlier name hname
    rw [← hplan] at he
    exact ⟨j, hj, file e, by rw [List.getElem?_map, he]; rfl, rfl⟩
  · rw [Plan.types, List.map_append, List.map_singleton, List.getLast?_concat]
    rfl

/-- Objects under keys that are paths, or are spelled like each other or like the root. -/
def pathKeys : Shape :=
  .object [("../etc", .object [("/", .object [])]), ("etc", .array (.object [("..", .null)])),
    ("Root", .object [("etc", .object [])])]

/-- Keys that look like paths: the files are called by the spelled names, which have no
slashes. -/
theorem separate_files_pathKeys :
    decodeOptions .kotlin (.object [("multipleFiles", .boolean true)]) =
        .ok ({ multipleFiles := true } : KotlinOptions) ∧ pathKeys.KeysDistinct ∧
      (planFor .kotlin "../root" pathKeys).types.map Declaration.name =
        ["_Type", "Etc", "EtcItem", "RootRootEtc", "RootRoot", "Root"] ∧
      ∃ list, emit .kotlin pathKeys "../root" (.object [("multipleFiles", .boolean true)]) =
          .ok (.files list) ∧
        list.getLast?.map SourceFile.filename = some "Root.kt" ∧
        (∀ f ∈ list, IsPlainFileName "kt" f.filename) ∧ (list.map SourceFile.filename).Nodup := by
  have hoptions : decodeOptions .kotlin (.object [("multipleFiles", .boolean true)]) =
      .ok ({ multipleFiles := true } : KotlinOptions) := rfl
  have hdistinct : pathKeys.KeysDistinct := by decide
  obtain ⟨list, hlist, -, -, hroot, hplain, hnodup, -⟩ :=
    separate_files hoptions rfl hdistinct "../root"
  have hlast : (planFor .kotlin "../root" pathKeys).root.name ++ "." ++ Target.kotlin.extension =
      "Root.kt" := by
    decide +kernel
  rw [hlast] at hroot
  exact ⟨hoptions, hdistinct, by decide +kernel, list, hlist, hroot, hplain, hnodup⟩

end Shapewright
