import Shapewright.Dialect.Render

/-!
# How members are written

Seven targets call members by names of their own, which they make of the keys. Here is
what such a target writes for a type, with the names of the members left open: what
stands before them, each member with its name in its place, and what stands behind them.
A target writes the layout with the names that it makes, so that what is said of these
names is said of what can be read in its output.

Main definitions:

* `MemberLayout`, with `MemberLayout.text` — a type whose members are called by given names.
* `MemberTarget` — the seven targets, with the options that a type depends on.
* `MemberTarget.memberName`, `MemberTarget.typeText` — what the target calls a member, and
  what it writes for a type.

Main result: `MemberTarget.typeText_eq` — a target writes its layout, with its names.
-/

namespace Shapewright

/-- How a type is written, whatever its members are called. -/
structure MemberLayout where
  /-- What stands before the members. -/
  opening : Declaration → String
  /-- A member called by the given name. -/
  member : String → String × Slot → String
  /-- The members one after the other. -/
  together : List String → String := String.join
  /-- What stands behind the members. -/
  closing : Declaration → String

/-- A type whose members are called by the names that are given for their keys. -/
def MemberLayout.text (layout : MemberLayout) (name : String → String) (d : Declaration) : String :=
  layout.opening d ++ layout.together (d.slots.map fun m => layout.member (name m.1) m) ++
    layout.closing d

/-! ## Layouts -/

def Rust.memberLayout : MemberLayout where
  opening d :=
    "#[derive(Debug, Clone, Serialize, Deserialize)]\n" ++ "pub struct " ++ d.name ++ " \x7b\n" ++
      (if d.isEmpty then "    // no fields observed\n" else "")
  member name m :=
    (if (fieldName m.1).renamed then renameAttribute m.1 else "") ++
      "    pub " ++ name ++ ": " ++ typeExpr m.2 ++ ",\n"
  closing _ := "\x7d"

def Python.memberLayout : MemberLayout where
  opening d := "@dataclass\nclass " ++ d.name ++ ":\n" ++ (if d.isEmpty then "    pass\n" else "")
  member name m := "    " ++ name ++ ": " ++ typeExpr m.2 ++ "\n"
  closing _ := ""

def Go.memberLayout : MemberLayout where
  opening d :=
    "type " ++ d.name ++ " struct \x7b\n" ++
      (if d.isEmpty then "\t// no fields observed\n" else "")
  member name m :=
    "\t" ++ name ++ " " ++ typeExpr m.2 ++ (if name = m.1 then "" else tag m.1) ++ "\n"
  closing _ := "\x7d"

/-- A list has a companion, which is called after it. -/
def C.memberLayout : MemberLayout where
  opening d :=
    "typedef struct \x7b\n" ++
      (if d.isEmpty then "    int dummy; /* empty struct placeholder */\n" else "")
  member name m :=
    "    " ++ typeExpr m.2 ++ " " ++ name ++ ";\n" ++
      (if m.2.isList then "    size_t " ++ (name ++ "_count") ++ ";\n" else "")
  closing d := "\x7d " ++ typeName d.name ++ ";"

def CPlusPlus.memberLayout : MemberLayout where
  opening d :=
    "struct " ++ d.name ++ " \x7b\n" ++ (if d.isEmpty then "    // no fields observed\n" else "")
  member name m := "    " ++ typeExpr m.2 ++ " " ++ name ++ ";\n"
  closing d := "\n" ++ "    " ++ d.name ++ "() = default;\n\x7d;"

/-- Constructors and accessors, if there are any, stand behind the fields. -/
def Java.memberLayout (options : JavaOptions) (modifier : String) : MemberLayout where
  opening d :=
    annotations options (d.slots.map Field.ofMember) ++ modifier ++ "class " ++ d.name ++ " \x7b\n" ++
      (if d.isEmpty then "    // Empty class\n" else "")
  member name m :=
    (if options.useJsonProperty && name != m.1 then
        "    @JsonProperty(\"" ++ Text.escapeQuotes m.1 ++ "\")\n"
      else "") ++
      "    private " ++ typeExpr m.2 ++ " " ++ name ++ ";\n"
  closing d :=
    String.join ((members options d.name (d.slots.map Field.ofMember)).tail.map ("\n" ++ ·)) ++ "\x7d"

/-- The annotation compares the key with the name without backticks. -/
def Kotlin.memberLayout (options : KotlinOptions) : MemberLayout where
  opening d :=
    if d.isEmpty then "class " ++ d.name ++ " \x7b\n    // no fields observed\n"
    else "data class " ++ d.name ++ "(\n"
  member name m :=
    (if options.useJsonProperty && propertyName m.1 != m.1 then
        "    @JsonProperty(\"" ++ escapeKey m.1 ++ "\")\n"
      else "") ++
      "    val " ++ name ++ ": " ++ typeExpr m.2
  together := ",\n".intercalate
  closing d := if d.isEmpty then "\x7d" else "\n)"

/-! ## Targets -/

/-- The targets that make names of keys, each with what a type depends on. -/
inductive MemberTarget where
  | rust
  | python
  | go
  | c
  | cPlusPlus
  | java (options : JavaOptions) (modifier : String)
  | kotlin (options : KotlinOptions)
  deriving Repr, DecidableEq, Inhabited

namespace MemberTarget

/-- What a member is called, as it is written. -/
def memberName : MemberTarget → String → String
  | .rust => fun key => (Rust.fieldName key).text
  | .python => Python.fieldName
  | .go => Go.fieldName
  | .c => C.fieldName
  | .cPlusPlus => CPlusPlus.fieldName
  | .java _ _ => Java.fieldName
  | .kotlin _ => Kotlin.propertyText

/-- What is written for a type. -/
def typeText : MemberTarget → Declaration → String
  | .rust => Rust.renderStruct
  | .python => Python.renderClass
  | .go => Go.renderStruct
  | .c => C.renderStruct
  | .cPlusPlus => CPlusPlus.renderStruct
  | .java options modifier => Java.renderClass options modifier
  | .kotlin options => Kotlin.renderClass options

def layout : MemberTarget → MemberLayout
  | .rust => Rust.memberLayout
  | .python => Python.memberLayout
  | .go => Go.memberLayout
  | .c => C.memberLayout
  | .cPlusPlus => CPlusPlus.memberLayout
  | .java options modifier => Java.memberLayout options modifier
  | .kotlin options => Kotlin.memberLayout options

end MemberTarget

/-! ## What is written -/

/-- The first of several parts is followed by each other one behind the separator. This
takes the fields of a class apart from the constructors and accessors behind them. -/
theorem intercalate_cons_eq_append_join (separator first : String) (rest : List String) :
    separator.intercalate (first :: rest) =
      first ++ String.join (rest.map (separator ++ ·)) := by
  induction rest generalizing first with
  | nil => rw [String.intercalate_singleton, List.map_nil, String.join_nil, String.append_empty]
  | cons next more ih =>
    rw [String.intercalate_cons_cons, ih, List.map_cons, String.join_cons, String.append_assoc,
      String.append_assoc]

/-- The name of a struct stands behind its members. -/
theorem C.renderStruct_eq_text (d : Declaration) :
    renderStruct d = memberLayout.text fieldName d := by
  have hfield (m : String × Slot) : renderField m = memberLayout.member (fieldName m.1) m := by
    unfold renderField memberLayout countName
    dsimp only
  unfold renderStruct MemberLayout.text
  rw [funext hfield]
  unfold memberLayout
  simp only [String.append_assoc]

/-- A default constructor stands behind the members. -/
theorem CPlusPlus.renderStruct_eq_text (d : Declaration) :
    renderStruct d = memberLayout.text fieldName d := by
  have hfields : d.slots.map renderField =
      d.slots.map fun m => memberLayout.member (fieldName m.1) m := rfl
  rw [renderStruct, MemberLayout.text, hfields]
  simp only [memberLayout, String.append_assoc]

/-- A class consists of its fields, with the names that were made for them, and of what
is there to construct and access them. -/
theorem Java.renderClass_eq_text (options : JavaOptions) (modifier : String) (d : Declaration) :
    renderClass options modifier d = (memberLayout options modifier).text fieldName d := by
  have hempty : (d.slots.map Field.ofMember).isEmpty = d.isEmpty := by
    rw [Declaration.slots, List.isEmpty_map, List.isEmpty_map, Declaration.isEmpty]
  have hfields : (d.slots.map Field.ofMember).map (Field.declaration options) =
      d.slots.map fun m => (memberLayout options modifier).member (fieldName m.1) m := by
    rw [List.map_map]
    rfl
  rw [renderClass, members, intercalate_cons_eq_append_join, hempty, hfields, MemberLayout.text]
  simp only [memberLayout, members, List.tail_cons, hempty, String.append_assoc]

/-- An object without members is a plain class, any other one a data class. -/
theorem Kotlin.renderClass_eq_text (options : KotlinOptions) (d : Declaration) :
    renderClass options d = (memberLayout options).text propertyText d := by
  rw [renderClass, MemberLayout.text]
  cases hempty : d.isEmpty with
  | true =>
    have hslots : d.slots = [] := by
      rw [Declaration.slots, List.isEmpty_iff.mp hempty, List.map_nil]
    simp only [memberLayout, hempty, hslots, if_true, List.map_nil, String.intercalate_nil,
      String.append_empty, String.append_assoc]
    rfl
  | false =>
    simp only [memberLayout, hempty, Bool.false_eq_true, if_false]
    rfl

/-- **Every target writes its layout with the names that it makes of the keys.** So a
statement about these names is one about the text of the type, in which each stands in the
place of its member. -/
theorem MemberTarget.typeText_eq (t : MemberTarget) (d : Declaration) :
    t.typeText d = t.layout.text t.memberName d := by
  cases t with
  | java options modifier => exact Java.renderClass_eq_text options modifier d
  | kotlin options => exact Kotlin.renderClass_eq_text options d
  | python => exact String.append_empty.symm
  | cPlusPlus => exact CPlusPlus.renderStruct_eq_text d
  | c => exact C.renderStruct_eq_text d
  | rust | go => rfl

end Shapewright
