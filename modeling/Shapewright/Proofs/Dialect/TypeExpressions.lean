import Shapewright.Generate
import Shapewright.Proofs.Rust.Reading
import Shapewright.Proofs.TypeScript.Reading

/-!
# Type expressions

Eight targets write types by a word for each kind, something before or behind the type
of items, and the names of declared types. No two slots are written alike but for kinds
that a language has one type for: JavaScript and TypeScript have one for all numbers, Go
and Java have the type of anything for `null` too. This rests on two things: names of
types have a form that lists and most words do not have, and the other words are
reserved.

C spells names once more as it writes them, so it is not one of the eight.

Main definitions:

* `Target.typeExpr` — the type expression of a slot in a target.
* `Target.collapse` — the slot with kinds taken together that the target writes alike.
* `Target.Declares` — the names of types in plans for a target.

Main result: `type_expressions_unambiguous` — which slots have one type expression.
-/

namespace Shapewright

open Name Plan

/-- The slot with `null` taken for anything. -/
def Slot.nullAsAny : Slot → Slot
  | .null => .any
  | .list item => .list item.nullAsAny
  | slot => slot

namespace Target

/-- The type expression of a slot. -/
def typeExpr : Target → Slot → String
  | .typeScript => TypeScript.typeExpr
  | .javaScript => JavaScript.typeExpr
  | .python => Python.typeExpr
  | .rust => Rust.typeExpr
  | .go => Go.typeExpr
  | .c => C.typeExpr
  | .cPlusPlus => CPlusPlus.typeExpr
  | .java => Java.typeExpr
  | .kotlin => Kotlin.typeExpr

/-- The slot with kinds taken together that the target has one type for. -/
def collapse : Target → Slot → Slot
  | .typeScript | .javaScript => Slot.widen
  | .go | .c | .java => Slot.nullAsAny
  | .python | .rust | .cPlusPlus | .kotlin => fun slot => slot

/-- A type is declared under this name in a plan for the target. -/
def Declares (t : Target) (name : String) : Prop :=
  ∃ rootName s, name ∈ (planFor t rootName s).types.map Declaration.name

/-- The type that the slot refers to, if any, is declared in a plan for the target. -/
def Resolves (t : Target) (slot : Slot) : Prop :=
  ∀ name, slot.target? = some name → t.Declares name

/-- Names that a target declares types under are of the form, and it does not reserve them. -/
theorem Declares.isDeclarable {t : Target} {name : String} (h : t.Declares name) :
    IsDeclarable t.reserved name := by
  obtain ⟨rootName, s, hname⟩ := h
  exact isDeclarable_of_mem_declaredNames (Reserved.Admitted.escapable (Or.inr ⟨t, rfl⟩)) name hname

end Target

/-! ## Spellings -/

/-- A type between two brackets, as characters. -/
theorem toList_around (opening inside closing : String) :
    (opening ++ inside ++ closing).toList =
      opening.toList ++ (inside.toList ++ closing.toList) := by
  rw [String.toList_append, String.toList_append, List.append_assoc]

def JavaScript.spelling : Spelling JavaScript.reserved where
  opening := "Array<".toList
  closing := ">".toList
  words := [("null", .null), ("string", .string), ("number", .number), ("boolean", .boolean),
    ("*", .any)]
  foreign := ⟨'<', by decide, by decide⟩
  isWord := by decide
  nodup := by decide

/-- Each target writes its types by its spelling. In JavaScript integers are numbers. -/
theorem JavaScript.writes_typeExpr : JavaScript.spelling.Writes typeExpr Slot.widen where
  list_eq item := toList_around "Array<" (typeExpr item) ">"
  named_eq _ := rfl
  word_mem := by decide
  collapse_kind := by decide
  collapse_list _ := rfl
  collapse_named _ := rfl

def Python.spelling : Spelling Python.reserved where
  opening := "list[".toList
  closing := "]".toList
  words := [("None", .null), ("str", .string), ("int", .integer), ("float", .number),
    ("bool", .boolean), ("Any", .any)]
  foreign := ⟨'[', by decide, by decide⟩
  isWord := by decide
  nodup := by decide

/-- In Python every kind has a word of its own. -/
theorem Python.writes_typeExpr : Python.spelling.Writes typeExpr fun slot => slot where
  list_eq item := toList_around "list[" (typeExpr item) "]"
  named_eq _ := rfl
  word_mem := by decide
  collapse_kind := by decide
  collapse_list _ := rfl
  collapse_named _ := rfl

def Go.spelling : Spelling Go.reserved where
  opening := "[]".toList
  closing := "".toList
  words := [("string", .string), ("int64", .integer), ("float64", .number), ("bool", .boolean),
    ("interface\x7b\x7d", .any)]
  foreign := ⟨'[', by decide, by decide⟩
  isWord := by decide
  nodup := by decide

/-- In Go null is written like anything. -/
theorem Go.writes_typeExpr : Go.spelling.Writes typeExpr Slot.nullAsAny where
  list_eq item := by
    -- nothing stands behind the items
    have hclosing : spelling.closing = [] := rfl
    rw [hclosing, List.append_nil]
    exact String.toList_append
  named_eq _ := rfl
  word_mem := by decide
  collapse_kind := by decide
  collapse_list _ := rfl
  collapse_named _ := rfl

def CPlusPlus.spelling : Spelling CPlusPlus.reserved where
  opening := "std::vector<".toList
  closing := ">".toList
  words := [("std::nullptr_t", .null), ("std::string", .string), ("std::int64_t", .integer),
    ("double", .number), ("bool", .boolean), ("std::any", .any)]
  foreign := ⟨'<', by decide, by decide⟩
  isWord := by decide
  nodup := by decide

/-- In C++ every kind has a word of its own. -/
theorem CPlusPlus.writes_typeExpr : CPlusPlus.spelling.Writes typeExpr fun slot => slot where
  list_eq item := toList_around "std::vector<" (typeExpr item) ">"
  named_eq _ := rfl
  word_mem := by decide
  collapse_kind := by decide
  collapse_list _ := rfl
  collapse_named _ := rfl

def Java.spelling : Spelling Java.reserved where
  opening := "List<".toList
  closing := ">".toList
  words := [("String", .string), ("Integer", .integer), ("Double", .number),
    ("Boolean", .boolean), ("Object", .any)]
  foreign := ⟨'<', by decide, by decide⟩
  isWord := by decide
  nodup := by decide

/-- In Java null is written like anything. -/
theorem Java.writes_typeExpr : Java.spelling.Writes typeExpr Slot.nullAsAny where
  list_eq item := toList_around "List<" (typeExpr item) ">"
  named_eq _ := rfl
  word_mem := by decide
  collapse_kind := by decide
  collapse_list _ := rfl
  collapse_named _ := rfl

def Kotlin.spelling : Spelling Kotlin.reserved where
  opening := "List<".toList
  closing := ">".toList
  words := [("Any?", .null), ("String", .string), ("Int", .integer), ("Double", .number),
    ("Boolean", .boolean), ("Any", .any)]
  foreign := ⟨'<', by decide, by decide⟩
  isWord := by decide
  nodup := by decide

/-- In Kotlin every kind has a word of its own. -/
theorem Kotlin.writes_typeExpr : Kotlin.spelling.Writes typeExpr fun slot => slot where
  list_eq item := toList_around "List<" (typeExpr item) ">"
  named_eq _ := rfl
  word_mem := by decide
  collapse_kind := by decide
  collapse_list _ := rfl
  collapse_named _ := rfl

/-! ## All targets -/

namespace Target

/-- The targets but C write slots by a spelling. -/
theorem exists_writes {t : Target} (ht : t ≠ .c) :
    ∃ spelling : Spelling t.reserved, spelling.Writes t.typeExpr t.collapse := by
  cases t with
  | typeScript => exact ⟨_, TypeScript.writes_typeExpr⟩
  | javaScript => exact ⟨_, JavaScript.writes_typeExpr⟩
  | python => exact ⟨_, Python.writes_typeExpr⟩
  | rust => exact ⟨_, Rust.writes_typeExpr⟩
  | go => exact ⟨_, Go.writes_typeExpr⟩
  | c => exact absurd rfl ht
  | cPlusPlus => exact ⟨_, CPlusPlus.writes_typeExpr⟩
  | java => exact ⟨_, Java.writes_typeExpr⟩
  | kotlin => exact ⟨_, Kotlin.writes_typeExpr⟩

end Target

/-- **Type expressions are unambiguous.** In every target but C, two slots that refer to
declared types, if to any, have the same type expression exactly if they are the same up
to the kinds that the language has one type for; and a declared name is written like no
other slot, no kind and no list. -/
theorem type_expressions_unambiguous {t : Target} (ht : t ≠ .c) {a b : Slot}
    (ha : t.Resolves a) (hb : t.Resolves b) :
    (t.typeExpr a = t.typeExpr b ↔ t.collapse a = t.collapse b) ∧
      ∀ name, t.Declares name → (t.typeExpr (.named name) = t.typeExpr b ↔ b = .named name) := by
  obtain ⟨spelling, hwrites⟩ := Target.exists_writes ht
  -- what is resolved in a plan is declarable in the target
  have hdeclarable {slot : Slot} (hslot : t.Resolves slot) (name : String)
      (hname : slot.target? = some name) : IsDeclarable t.reserved name :=
    (hslot name hname).isDeclarable
  constructor
  · exact hwrites.write_eq_iff (hdeclarable ha) (hdeclarable hb)
  · intro name hname
    exact hwrites.write_named_eq_iff hname.isDeclarable (hdeclarable hb)

/-- Members that would be called like types of Java. -/
def javaWords : Shape :=
  .object [("list", .array (.object [("a", .null)])), ("object", .object []), ("string", .string)]

/-- A list of objects under the key `object` is written like no list of anything, which a
list of nothing is. -/
theorem type_expressions_unambiguous_javaWords :
    Target.java ≠ .c ∧
      (planFor .java "Integer" javaWords).types.map Declaration.name =
        ["ListItem", "ObjectType", "IntegerType"] ∧
      Target.java.Resolves (.list (.named "ObjectType")) ∧ Target.java.Resolves (.list .null) ∧
      Target.java.typeExpr (.list .null) = Target.java.typeExpr (.list .any) ∧
      Target.java.typeExpr (.list (.named "ObjectType")) ≠ Target.java.typeExpr (.list .null) ∧
      Target.java.typeExpr (.named "ObjectType") ≠ Target.java.typeExpr (.list .null) := by
  have hnames : (planFor .java "Integer" javaWords).types.map Declaration.name =
      ["ListItem", "ObjectType", "IntegerType"] := by decide +kernel
  have hdeclares : Target.java.Declares "ObjectType" := by
    refine ⟨"Integer", javaWords, ?_⟩
    rw [hnames]
    decide
  have hlist : Target.java.Resolves (.list (.named "ObjectType")) := by
    intro name hname
    obtain rfl := Option.some.inj hname
    exact hdeclares
  have hnull : Target.java.Resolves (.list .null) := fun _ hname => nomatch hname
  have hany : Target.java.Resolves (.list .any) := fun _ hname => nomatch hname
  obtain ⟨hiff, hname⟩ := type_expressions_unambiguous (by decide) hlist hnull
  obtain ⟨halike, -⟩ := type_expressions_unambiguous (t := .java) (by decide) hnull hany
  refine ⟨by decide, hnames, hlist, hnull, halike.mpr rfl, ?_, ?_⟩
  · intro h
    exact absurd (hiff.mp h) (by decide)
  · intro h
    exact absurd ((hname "ObjectType" hdeclares).mp h) (by decide)

end Shapewright
