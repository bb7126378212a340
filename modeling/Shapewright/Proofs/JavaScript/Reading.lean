import Shapewright.Generate
import Shapewright.Proofs.JavaScript.Evaluation
import Shapewright.Proofs.Name.Identifiers
import Shapewright.Proofs.Plan.NameForms
import Shapewright.Proofs.Plan.Supply
import Shapewright.Proofs.Text.Marks

/-!
# Reading initializers

What a constructor assigns to a field, read as the language reads it. A variable and a
class are called by words that are no keywords, a property by any word behind a dot, or by
a string literal between brackets. A literal ends at its own quote and must not hold a line
break; a text that has one in a literal is no expression at all. Only the expressions that
constructors are made of are read, and these in full: what is read stands for the whole
text, and nothing of the emitter is used to read it.

Main definitions:

* `word?`, `string?`, `operand?`, `layer?`, `instance?`, `built?` — a piece at the
  beginning of a text, and what follows it.
* `Expr.ofText?` — the expression that a text is.
* `IsClassName` — the names that a class can be made an instance by.

Main results:

* `built?_construct` — instances are read back, through all layers of lists.
* `ofText?_initializer` — an initializer is read back, unless its key has a line break.
* `isClassName_of_mem_types` — all classes of a plan can be made instances by their names.
-/

namespace Shapewright.JavaScript

open Text Name Plan

/-! ## Words -/

/-- The words that name no variable and no class in strict code, which all code of classes
is. -/
def keywords : List String :=
  ["arguments", "await", "break", "case", "catch", "class", "const", "continue", "debugger",
    "default", "delete", "do", "else", "enum", "eval", "export", "extends", "false", "finally",
    "for", "function", "if", "implements", "import", "in", "instanceof", "interface", "let",
    "new", "null", "package", "private", "protected", "public", "return", "static", "super",
    "switch", "this", "throw", "true", "try", "typeof", "var", "void", "while", "with", "yield"]

/-- Words are made of letters, digits, underscores and dollar signs. -/
def isWordChar (c : Char) : Bool := c.isAlphanum || c == '_' || c == '$'

/-- The word that a text begins with, and what follows. No word begins with a digit. -/
def word? (cs : List Char) : Option (String × List Char) :=
  match cs.takeWhile isWordChar with
  | [] => none
  | c :: word =>
    if c.isDigit then none else some (String.ofList (c :: word), cs.dropWhile isWordChar)

/-- A word that is no keyword. -/
def binding? (cs : List Char) : Option (String × List Char) := do
  let (name, rest) ← word? cs
  if name ∈ keywords then none else return (name, rest)

/-- A name that a variable or a class may have. -/
structure IsBinding (name : String) : Prop where
  isPropertyName : isPropertyName name = true
  not_mem_keywords : name ∉ keywords

/-- A property name without quotes is a word: both are made of the same characters. -/
theorem isWordChar_of_isPropertyName {name : String} (h : isPropertyName name = true) :
    ∀ c ∈ name.toList, isWordChar c = true := by
  obtain ⟨-, -, -, -, hall⟩ := exists_cons_of_isPropertyName h
  intro c hc
  have hchar := hall c hc
  rw [isNameChar_iff] at hchar
  simpa [isWordChar] using hchar

/-- A word is read up to the first character that is in no word. -/
theorem word?_append {name : String} (h : isPropertyName name = true) {rest : List Char}
    (hrest : rest.takeWhile isWordChar = []) : word? (name.toList ++ rest) = some (name, rest) := by
  obtain ⟨c, word, hname, hdigit, -⟩ := exists_cons_of_isPropertyName h
  have hall := isWordChar_of_isPropertyName h
  have hdrop : rest.dropWhile isWordChar = rest := by
    have happend := List.takeWhile_append_dropWhile (p := isWordChar) (l := rest)
    rwa [hrest, List.nil_append] at happend
  rw [word?, List.takeWhile_append_of_pos hall, hrest, List.append_nil,
    List.dropWhile_append_of_pos hall, hdrop]
  simp only [hname, hdigit, Bool.false_eq_true, if_false]
  rw [← hname, String.ofList_toList]

/-- A name that a variable may have is read as a name, up to the first character that is in no
word. -/
theorem binding?_append {name : String} (h : IsBinding name) {rest : List Char}
    (hrest : rest.takeWhile isWordChar = []) :
    binding? (name.toList ++ rest) = some (name, rest) := by
  rw [binding?, word?_append h.isPropertyName hrest]
  exact if_neg h.not_mem_keywords

/-! ## Operands -/

/-- The string that a literal stands for, behind its first quote, and what follows the
literal. There is no line break in one. -/
def string? (cs : List Char) : Option (String × List Char) := do
  let (inside, rest) ← readMarked? ['\\', '"'] cs
  if IsOneLine inside then return (String.ofList inside, rest) else none

/-- A key between quotes is read back, unless it has a line break. -/
theorem string?_escapeWith (key : String) (rest : List Char) :
    string? (escapeWith ['\\', '"'] key.toList ++ '"' :: rest) =
      if IsOneLine key.toList then some (key, rest) else none := by
  have hmarks : readMarked? ['\\', '"'] (escapeWith ['\\', '"'] key.toList ++ '"' :: rest) =
      some (key.toList, rest) := readMarked?_escapeWith (by decide) (by decide) key.toList rest
  rw [string?, hmarks]
  simp only [Option.bind_eq_bind, Option.bind_some, String.ofList_toList]
  rfl

/-- A variable or a property of one, and what follows. A call of `map` is none of its
properties. -/
def operand? (cs : List Char) : Option (Expr × List Char) := do
  let (object, rest) ← binding? cs
  match rest with
  | '.' :: tail =>
    let (key, after) ← word? tail
    if key = "map" ∧ after.head? = some '(' then return (.variable object, rest)
    else return (.property object key, after)
  | '[' :: '"' :: tail =>
    let (key, after) ← string? tail
    let after ← after? "]" after
    return (.property object key, after)
  | _ => return (.variable object, rest)

/-- What may follow an operand. -/
def EndsOperand (rest : List Char) : Prop :=
  rest.head? ∈ [none, some ' ', some ')'] ∨ ∃ tail, rest = ".map((".toList ++ tail

/-- No word goes on behind an operand, so that the word it ends in is read as a whole. -/
theorem EndsOperand.takeWhile_eq_nil {rest : List Char} (h : EndsOperand rest) :
    rest.takeWhile isWordChar = [] := by
  rcases h with h | ⟨tail, rfl⟩
  · cases rest with
    | nil => rfl
    | cons c rest =>
      have hc : c = ' ' ∨ c = ')' := by simpa using h
      rcases hc with rfl | rfl <;> rfl
  · rfl

/-- An operand is not called by what follows it. -/
theorem EndsOperand.head?_ne {rest : List Char} (h : EndsOperand rest) :
    rest.head? ≠ some '(' := by
  rcases h with h | ⟨tail, rfl⟩
  · rintro heq
    rw [heq] at h
    exact absurd h (by decide)
  · exact nofun

/-- A variable is read back. That it may be followed by a call of `map` is what makes the
reader look at the word behind a dot. -/
theorem operand?_variable {name : String} (hname : IsBinding name) {rest : List Char}
    (hrest : EndsOperand rest) :
    operand? ((Expr.variable name).text.toList ++ rest) = some (.variable name, rest) := by
  rw [Expr.text, operand?, binding?_append hname hrest.takeWhile_eq_nil]
  rcases hrest with h | ⟨tail, rfl⟩
  · cases rest with
    | nil => rfl
    | cons c rest =>
      have hc : c = ' ' ∨ c = ')' := by simpa using h
      rcases hc with rfl | rfl <;> rfl
  · -- the word behind the dot is `map`, and it is called
    have hmap : word? ("map".toList ++ ("((".toList ++ tail)) = some ("map", "((".toList ++ tail) :=
      word?_append (by decide) rfl
    have htext : ".map((".toList ++ tail = '.' :: ("map".toList ++ ("((".toList ++ tail)) := rfl
    simp only [htext, Option.bind_eq_bind, Option.bind_some, hmap]
    rfl

/-- A property is read back under every key without line breaks; with one there is no
expression. -/
theorem operand?_property {object : String} (hobject : IsBinding object) (key : String)
    {rest : List Char} (hrest : EndsOperand rest) :
    operand? ((Expr.property object key).text.toList ++ rest) =
      if IsOneLine key.toList then some (.property object key, rest) else none := by
  rw [Expr.text, accessText, operand?]
  cases hkey : isPropertyName key with
  | true =>
    -- what is no word would be quoted
    have honeLine : IsOneLine key.toList := by
      have hall := isWordChar_of_isPropertyName hkey
      exact ⟨fun hmem => absurd (hall _ hmem) (by decide),
        fun hmem => absurd (hall _ hmem) (by decide)⟩
    have htext : (object ++ "." ++ key).toList ++ rest =
        object.toList ++ '.' :: (key.toList ++ rest) := by
      simp only [String.toList_append, List.append_assoc]
      rfl
    rw [if_pos rfl, if_pos honeLine, htext, binding?_append hobject rfl]
    simp only [Option.bind_eq_bind, Option.bind_some, word?_append hkey hrest.takeWhile_eq_nil,
      hrest.head?_ne, and_false, if_false]
    rfl
  | false =>
    have htext : (object ++ "[\"" ++ escapeQuotes key ++ "\"]").toList ++ rest =
        object.toList ++ '[' :: '"' ::
          (escapeWith ['\\', '"'] key.toList ++ '"' :: ("]".toList ++ rest)) := by
      simp only [String.toList_append, List.append_assoc, escapeQuotes, String.toList_ofList]
      rfl
    rw [if_neg Bool.false_ne_true, htext, binding?_append hobject rfl]
    simp only [Option.bind_eq_bind, Option.bind_some, string?_escapeWith]
    by_cases honeLine : IsOneLine key.toList
    · simp only [if_pos honeLine, Option.bind_some, after?_append]
      rfl
    · simp only [if_neg honeLine, Option.bind_none]

/-! ## Instances -/

/-- The head of a function that is applied to a list: the list, the parameter, and what
follows. -/
def layer? (cs : List Char) : Option (Expr × String × List Char) := do
  let (list, rest) ← operand? cs
  let rest ← after? ".map((" rest
  let (parameter, rest) ← binding? rest
  let rest ← after? ") => " rest
  return (list, parameter, rest)

/-- An instance that is made of an operand, and what follows. -/
def instance? (cs : List Char) : Option (Expr × List Char) := do
  let rest ← after? "new " cs
  let (className, rest) ← binding? rest
  let rest ← after? "(" rest
  let (argument, rest) ← operand? rest
  let rest ← after? ")" rest
  return (.instantiate className argument, rest)

/-! ## Progress -/

/-- What follows a word is an end of the text. It is shown of every reader below that it
leaves no more than it was given, which is what the recursion into functions needs. -/
theorem length_le_of_word? {cs rest : List Char} {name : String}
    (h : word? cs = some (name, rest)) : rest.length ≤ cs.length := by
  rw [word?] at h
  split at h
  · cases h
  · split at h
    · cases h
    · cases h
      exact (List.dropWhile_suffix isWordChar).length_le

theorem length_le_of_binding? {cs rest : List Char} {name : String}
    (h : binding? cs = some (name, rest)) : rest.length ≤ cs.length := by
  obtain ⟨⟨word, after⟩, hword, hname⟩ := Option.bind_eq_some_iff.mp h
  obtain ⟨-, hname⟩ := Option.ite_none_left_eq_some.mp hname
  cases hname
  exact length_le_of_word? hword

/-- What is taken off the front of a text is what it is shorter by afterwards. -/
theorem length_of_after? {opening : String} {cs rest : List Char}
    (h : after? opening cs = some rest) : cs.length = opening.toList.length + rest.length := by
  rw [eq_append_of_after? h, List.length_append]

theorem length_le_of_readMarked? {special cs inside rest : List Char}
    (h : readMarked? special cs = some (inside, rest)) : rest.length ≤ cs.length := by
  fun_induction readMarked? special cs generalizing inside with
  | case1 => cases h
  | case2 => cases h; exact Nat.le_succ _
  | case3 c tail hc ih =>
    obtain ⟨read, hread, heq⟩ := Option.map_eq_some_iff.mp h
    cases heq
    exact Nat.le_succ_of_le (Nat.le_succ_of_le (ih hread))
  | case4 => cases h
  | case5 => cases h
  | case6 c tail _ _ _ ih =>
    obtain ⟨read, hread, heq⟩ := Option.map_eq_some_iff.mp h
    cases heq
    exact Nat.le_succ_of_le (ih hread)

theorem length_le_of_string? {cs rest : List Char} {key : String}
    (h : string? cs = some (key, rest)) : rest.length ≤ cs.length := by
  obtain ⟨⟨inside, after⟩, hinside, h⟩ := Option.bind_eq_some_iff.mp h
  obtain ⟨-, h⟩ := Option.ite_none_right_eq_some.mp h
  cases h
  exact length_le_of_readMarked? hinside

theorem length_le_of_operand? {cs rest : List Char} {e : Expr}
    (h : operand? cs = some (e, rest)) : rest.length ≤ cs.length := by
  obtain ⟨⟨object, behind⟩, hobject, h⟩ := Option.bind_eq_some_iff.mp h
  refine le_trans ?_ (length_le_of_binding? hobject)
  -- behind the variable there is a word, a literal, or nothing that belongs to it
  dsimp only at h
  split at h
  · obtain ⟨⟨key, after⟩, hkey, h⟩ := Option.bind_eq_some_iff.mp h
    dsimp only at h
    split at h
    · cases h
      exact le_rfl
    · cases h
      exact Nat.le_succ_of_le (length_le_of_word? hkey)
  · obtain ⟨⟨key, after⟩, hkey, h⟩ := Option.bind_eq_some_iff.mp h
    obtain ⟨left, hleft, h⟩ := Option.bind_eq_some_iff.mp h
    cases h
    have hstring := length_le_of_string? hkey
    have hbracket := length_of_after? hleft
    dsimp only at hbracket
    simp only [List.length_cons]
    omega
  · cases h
    exact le_rfl

/-- The head of a function is never empty, so the body of a function is shorter than the
whole. -/
theorem length_lt_of_layer? {cs rest : List Char} {list : Expr} {parameter : String}
    (h : layer? cs = some (list, parameter, rest)) : rest.length < cs.length := by
  obtain ⟨⟨list, afterList⟩, hlist, h⟩ := Option.bind_eq_some_iff.mp h
  obtain ⟨afterCall, hcall, h⟩ := Option.bind_eq_some_iff.mp h
  obtain ⟨⟨parameter, afterParameter⟩, hparameter, h⟩ := Option.bind_eq_some_iff.mp h
  obtain ⟨afterArrow, harrow, h⟩ := Option.bind_eq_some_iff.mp h
  cases h
  have hoperand := length_le_of_operand? hlist
  have hmap := length_of_after? hcall
  have hbinding := length_le_of_binding? hparameter
  have hfunction := length_of_after? harrow
  have hpositive : 0 < ".map((".toList.length := by decide
  dsimp only at *
  omega

/-! ## Expressions -/

/-- An instance inside so many functions, and what follows. -/
def built? (cs : List Char) : Option (Expr × List Char) :=
  match h : layer? cs with
  | none => instance? cs
  | some (list, parameter, inner) =>
    have : inner.length < cs.length := length_lt_of_layer? h
    (built? inner).bind fun (body, rest) =>
      (after? ")" rest).map fun rest => (.mapItems list parameter body, rest)
termination_by cs.length

/-- The expression that a text is: an operand, or an operand where it is null and instances
where it is not. -/
def Expr.ofText? (cs : List Char) : Option Expr := do
  let (tested, rest) ← operand? cs
  if rest = [] then return tested
  else
    let rest ← after? " == null ? " rest
    let (kept, rest) ← operand? rest
    let rest ← after? " : " rest
    let (built, rest) ← built? rest
    if rest = [] ∧ kept = tested then return .unlessNull tested built else none

/-! ## Names -/

/-- The number of a layer stands behind the name; the outermost one has none. -/
theorem toList_itemVariable (depth : Nat) :
    (itemVariable depth).toList =
      "item".toList ++ if depth = 0 then [] else Nat.toDigits 10 depth := by
  rw [itemVariable]
  split
  · rw [List.append_nil]
  · rw [String.toList_append, Nat.toString_eq_repr, Nat.toList_repr]

/-- The object that a constructor is given is called by a name. -/
theorem isBinding_parameterName : IsBinding parameterName where
  isPropertyName := by decide
  not_mem_keywords := by decide

/-- The item of every layer is called by a name: a number behind the word leads to no keyword. -/
theorem isBinding_itemVariable (depth : Nat) : IsBinding (itemVariable depth) where
  isPropertyName := by
    refine isPropertyName_of_isTypeName ?_
    rw [toList_itemVariable]
    refine isTypeName_append (by decide) fun c hc => ?_
    split at hc
    · cases hc
    · have hdigit : c.isDigit = true := Nat.isDigit_of_mem_toDigits (by omega) (by omega) hc
      rw [isNameChar, Char.isAlphanum, hdigit, Bool.or_true, Bool.true_or]
  not_mem_keywords := by
    intro hmem
    have hfront : ∀ word ∈ keywords, "item".toList.isPrefixOf word.toList = false := by decide
    have hitem := hfront _ hmem
    rw [toList_itemVariable, List.isPrefixOf_iff_prefix.mpr (List.prefix_append _ _)] at hitem
    cases hitem

/-- A name that a class is declared under, and that no variable of a constructor hides. -/
structure IsClassName (name : String) : Prop extends IsBinding name, IsVisible name

/-- The names of types begin in upper case, unlike keywords and variables. -/
theorem isClassName_of_isDeclaredForm {name : String} (h : isDeclaredForm name.toList = true) :
    IsClassName name := by
  -- the first letter tells a type from all words that begin in lower case
  have hhead {other : String} (hother : other.toList.head?.any Char.isLower = true) :
      name ≠ other := by
    obtain ⟨c, rest, hchars, hfirst, -⟩ := exists_cons_of_isDeclaredForm h
    rintro rfl
    rw [hchars] at hother
    rcases hfirst with hupper | rfl
    · have hnone := not_isUpper_of_isLower_or_isDigit (Or.inl hother)
      exact absurd (hupper.symm.trans hnone) (by decide)
    · cases hother
  have hlower : ∀ word ∈ keywords, word.toList.head?.any Char.isLower = true := by decide
  exact
    { isPropertyName := isPropertyName_of_isTypeName (isTypeName_of_isDeclaredForm h)
      not_mem_keywords := fun hmem => hhead (hlower name hmem) rfl
      ne_parameterName := hhead (by decide)
      ne_itemVariable := fun depth => hhead (by rw [toList_itemVariable]; rfl) }

/-- The class inside all lists is the type that a slot refers to. -/
theorem target?_eq_some_of_innermost {slot : Slot} {className : String}
    (h : slot.innermost = .named className) : slot.target? = some className := by
  induction slot with
  | list item ih => exact ih h
  | named name => cases h; rfl
  | _ => cases h

/-- All classes that a plan refers to can be made instances by their names. -/
theorem isClassName_of_mem_types {s : Shape} (hs : s.KeysDistinct) {rootName : String}
    {d : Declaration} (hd : d ∈ (planFor .javaScript rootName s).types)
    {member : String × Slot} (hmember : member ∈ d.slots) {className : String}
    (hclass : member.2.innermost = .named className) : IsClassName className := by
  have hr : Target.javaScript.reserved.Escapable :=
    Reserved.Admitted.escapable (Or.inr ⟨.javaScript, rfl⟩)
  obtain ⟨-, htargets⟩ := isDeclarable_of_mem_types hr hs d hd
  exact isClassName_of_isDeclaredForm
    (htargets member hmember className (target?_eq_some_of_innermost hclass)).form

/-! ## What is written -/

/-- The expressions that are read as operands, whatever may follow one. -/
def IsOperand (e : Expr) : Prop :=
  ∀ rest, EndsOperand rest → operand? (e.text.toList ++ rest) = some (e, rest)

/-- The head of a function is read back, whatever its body is. -/
theorem layer?_append {list : Expr} (hlist : IsOperand list) {parameter : String}
    (hparameter : IsBinding parameter) (rest : List Char) :
    layer? (list.text.toList ++ (".map((".toList ++ (parameter.toList ++ (") => ".toList ++ rest)))) =
      some (list, parameter, rest) := by
  have hcall := hlist (".map((".toList ++ (parameter.toList ++ (") => ".toList ++ rest)))
    (Or.inr ⟨_, rfl⟩)
  rw [layer?, hcall]
  have harrow : (") => ".toList ++ rest).takeWhile isWordChar = [] := rfl
  simp only [Option.bind_eq_bind, Option.bind_some, after?_append,
    binding?_append hparameter harrow]
  rfl

/-- What begins with `new` is no function: `new` is read as a word, and no variable has that
name. -/
theorem layer?_new (rest : List Char) : layer? ("new ".toList ++ rest) = none := by
  have hword : word? ("new".toList ++ (' ' :: rest)) = some ("new", ' ' :: rest) :=
    word?_append (by decide) rfl
  -- `new` is a word and a keyword
  have hnew : binding? ("new ".toList ++ rest) = none := by
    have htext : "new ".toList ++ rest = "new".toList ++ (' ' :: rest) := rfl
    rw [htext, binding?, hword]
    rfl
  rw [layer?, operand?, hnew]
  rfl

/-- An instance is read back, whatever follows it: the class ends at the first parenthesis,
and the argument at the second. -/
theorem instance?_append {className : String} (hclass : IsBinding className) {argument : Expr}
    (hargument : IsOperand argument) (rest : List Char) :
    instance? ((Expr.instantiate className argument).text.toList ++ rest) =
      some (.instantiate className argument, rest) := by
  have htext : (Expr.instantiate className argument).text.toList ++ rest =
      "new ".toList ++ (className.toList ++ ("(".toList ++
        (argument.text.toList ++ (")".toList ++ rest)))) := by
    simp only [Expr.text, String.toList_append, List.append_assoc]
  have hopening : ("(".toList ++ (argument.text.toList ++ (")".toList ++ rest))).takeWhile
      isWordChar = [] := rfl
  have hclosing := hargument (")".toList ++ rest) (Or.inl (by simp))
  rw [htext, instance?]
  simp only [Option.bind_eq_bind, Option.bind_some, after?_append,
    binding?_append hclass hopening, hclosing]
  rfl

/-- So an instance is what is read where it stands alone. -/
theorem built?_instantiate {className : String} (hclass : IsBinding className) {argument : Expr}
    (hargument : IsOperand argument) (rest : List Char) :
    built? ((Expr.instantiate className argument).text.toList ++ rest) =
      some (.instantiate className argument, rest) := by
  rw [built?]
  split
  · exact instance?_append hclass hargument rest
  · -- the text begins with `new`, and there is no variable of that name to call `map` on
    next hsome =>
    have htext : (Expr.instantiate className argument).text.toList ++ rest = "new ".toList ++
        ((className ++ "(" ++ argument.text ++ ")").toList ++ rest) := by
      simp only [Expr.text, String.toList_append, List.append_assoc]
    rw [htext, layer?_new] at hsome
    cases hsome

/-- A function over a list is read back if its body is, whatever follows that. -/
theorem built?_mapItems {list body : Expr} (hlist : IsOperand list) {parameter : String}
    (hparameter : IsBinding parameter)
    (hbody : ∀ rest, built? (body.text.toList ++ rest) = some (body, rest)) (rest : List Char) :
    built? ((Expr.mapItems list parameter body).text.toList ++ rest) =
      some (.mapItems list parameter body, rest) := by
  have htext : (Expr.mapItems list parameter body).text.toList ++ rest =
      list.text.toList ++ (".map((".toList ++ (parameter.toList ++ (") => ".toList ++
        (body.text.toList ++ (")".toList ++ rest))))) := by
    simp only [Expr.text, String.toList_append, List.append_assoc]
  -- a function is what is tried first
  rw [built?]
  split
  · next hnone =>
    rw [htext, layer?_append hlist hparameter] at hnone
    cases hnone
  · next hsome =>
    rw [htext, layer?_append hlist hparameter] at hsome
    cases hsome
    rw [hbody, Option.bind_some]
    simp only [after?_append]
    rfl

/-- **Instances are read back through all layers of lists.** The induction is on the slot, as
it is for what is written: a layer has the head of its function in front, and inside is what
is written for its items with the parameter as their source. -/
theorem built?_construct {source built : Expr} {depth : Nat} {slot : Slot} {className : String}
    (hclass : IsBinding className) (hslot : slot.innermost = .named className)
    (hsource : IsOperand source) (hbuilt : construct? source depth slot = some built)
    (rest : List Char) : built? (built.text.toList ++ rest) = some (built, rest) := by
  induction slot generalizing source depth built rest with
  | list item ih =>
    rw [construct?, Option.map_eq_some_iff] at hbuilt
    obtain ⟨body, hbody, rfl⟩ := hbuilt
    have hparameter := isBinding_itemVariable depth
    have hvariable : IsOperand (.variable (itemVariable depth)) := fun _ hrest =>
      operand?_variable hparameter hrest
    exact built?_mapItems hsource hparameter (ih hslot hvariable hbody) rest
  | named name =>
    cases hslot
    cases hbuilt
    exact built?_instantiate hclass hsource rest
  | _ => cases hslot

/-- **What is assigned to a field is what is written.** The text of an initializer is read
back as the expression it was written for. Only a key with a line break stands in the way:
its literal is broken off by the break, and the text is no expression at all. -/
theorem ofText?_initializer {key : String} {slot : Slot}
    (hclass : ∀ className, slot.innermost = .named className → IsBinding className) :
    Expr.ofText? (initializer key slot).text.toList =
      if IsOneLine key.toList then some (initializer key slot) else none := by
  have hread (rest : List Char) (hrest : EndsOperand rest) :=
    operand?_property isBinding_parameterName key hrest
  rw [initializer]
  cases hbuilt : construct? (.property parameterName key) 0 slot with
  | none =>
    -- nothing is built: the member is the whole text
    have hwhole := hread [] (Or.inl (by decide))
    rw [List.append_nil] at hwhole
    dsimp only
    rw [Expr.ofText?, hwhole]
    split <;> rfl
  | some built =>
    have htext : (Expr.unlessNull (.property parameterName key) built).text.toList =
        (Expr.property parameterName key).text.toList ++ (" == null ? ".toList ++
          ((Expr.property parameterName key).text.toList ++ (" : ".toList ++
            (built.text.toList ++ [])))) := by
      simp only [Expr.text, String.toList_append, List.append_assoc, List.append_nil]
    dsimp only
    rw [htext, Expr.ofText?, hread _ (Or.inl (by simp))]
    split
    · next honeLine =>
      -- the key is one line, and so the member can be read in all three places
      have hsource : IsOperand (.property parameterName key) := fun rest hrest => by
        rw [hread rest hrest, if_pos honeLine]
      obtain ⟨className, hslot⟩ := (isSome_construct? _ 0 slot).mp (Option.isSome_of_eq_some hbuilt)
      have hinstances := built?_construct (hclass className hslot) hslot hsource hbuilt []
      have hkept := hsource (" : ".toList ++ (built.text.toList ++ [])) (Or.inl (by simp))
      simp only [Option.bind_eq_bind, Option.bind_some, after?_append, hkept, hinstances]
      rfl
    · rfl

end Shapewright.JavaScript
