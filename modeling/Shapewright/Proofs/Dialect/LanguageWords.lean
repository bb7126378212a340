import Shapewright.Proofs.Dialect.MemberNames
import Shapewright.Proofs.Name.Grammars
import Shapewright.Proofs.Name.Identifiers

/-!
# Words of C and C++

A field in C or C++ must not be called by a word that the language keeps for itself. The
targets suffix the keywords in their lists; here these lists are held against those of the
languages. Every word that a list has is kept off; each of the few that it lacks is the
name of the field under the key that spells it.

Main definitions:

* `CPlusPlus.languageWords` — the keywords and alternative tokens of C++17.
* `C.languageWords` — the keywords of C11, and the names that `<stdbool.h>` defines.
* `CPlusPlus.missedWords`, `C.missedWords` — those that the lists of the targets lack.

Main result: `language_words_of_fields_iff` — which keys have such a word for a field.
-/

namespace Shapewright

open Name

/-! ## The words -/

/-- The keywords of C++17. -/
def CPlusPlus.standardKeywords : List String :=
  ["alignas", "alignof", "asm", "auto", "bool", "break", "case", "catch", "char", "char16_t",
    "char32_t", "class", "const", "constexpr", "const_cast", "continue", "decltype", "default",
    "delete", "do", "double", "dynamic_cast", "else", "enum", "explicit", "export", "extern",
    "false", "float", "for", "friend", "goto", "if", "inline", "int", "long", "mutable",
    "namespace", "new", "noexcept", "nullptr", "operator", "private", "protected", "public",
    "register", "reinterpret_cast", "return", "short", "signed", "sizeof", "static",
    "static_assert", "static_cast", "struct", "switch", "template", "this", "thread_local",
    "throw", "true", "try", "typedef", "typeid", "typename", "union", "unsigned", "using",
    "virtual", "void", "volatile", "wchar_t", "while"]

/-- The words of C++17 that stand for operators. -/
def CPlusPlus.alternativeTokens : List String :=
  ["and", "and_eq", "bitand", "bitor", "compl", "not", "not_eq", "or", "or_eq", "xor", "xor_eq"]

def CPlusPlus.languageWords : List String := standardKeywords ++ alternativeTokens

/-- The keywords of C11. -/
def C.standardKeywords : List String :=
  ["auto", "break", "case", "char", "const", "continue", "default", "do", "double", "else",
    "enum", "extern", "float", "for", "goto", "if", "inline", "int", "long", "register",
    "restrict", "return", "short", "signed", "sizeof", "static", "struct", "switch", "typedef",
    "union", "unsigned", "void", "volatile", "while", "_Alignas", "_Alignof", "_Atomic", "_Bool",
    "_Complex", "_Generic", "_Imaginary", "_Noreturn", "_Static_assert", "_Thread_local"]

/-- What `<stdbool.h>`, one of the included headers, defines as macros. -/
def C.booleanMacros : List String := ["bool", "true", "false"]

def C.languageWords : List String := standardKeywords ++ booleanMacros

/-- What the keywords of the target lack. -/
def CPlusPlus.missedWords : List String :=
  ["char16_t", "char32_t", "const_cast", "dynamic_cast", "reinterpret_cast", "static_assert",
    "static_cast", "thread_local", "typeid", "wchar_t", "and_eq", "bitand", "bitor", "compl",
    "not_eq", "or_eq", "xor_eq"]

/-- What the keywords of the target lack, and can be spelled in snake case. -/
def C.missedWords : List String := ["true", "false"]

/-! ## Fields -/

/-- A member is called by a word of the language exactly if the spelled key is one that the
emitter misses: the words that it knows are suffixed, and no word ends in an underscore. -/
theorem CPlusPlus.fieldName_mem_languageWords_iff (key : String) :
    fieldName key ∈ languageWords ↔ snakeCase key ∈ missedWords := by
  have hends : ∀ word ∈ languageWords, word.toList.getLast? ≠ some '_' := by decide +kernel
  have hmissed : (languageWords.filter fun word => !keywords.contains word) = missedWords := by
    decide +kernel
  rw [fieldName, suffixIfReserved_mem_iff hends, hmissed]

/-- The keywords with an upper-case letter are never spelled, as snake case has none. Of all
other words of the language only the two truth values are missed by the table. -/
theorem C.fieldName_mem_languageWords_iff (key : String) :
    fieldName key ∈ languageWords ↔ snakeCase key ∈ missedWords := by
  have hends : ∀ word ∈ languageWords, word.toList.getLast? ≠ some '_' := by decide +kernel
  have hmissed : ((languageWords.filter fun word => !keywords.contains word).filter
      fun word => word.toList.all fun c => !c.isUpper) = missedWords := by
    decide +kernel
  -- a spelled key is in lower case, as the two missed words are
  have hlower : ((snakeCase key).toList.all fun c => !c.isUpper) = true := by
    rw [List.all_eq_true]
    intro c hc
    rw [(parted_snakeCase key).isUpper c hc]
    rfl
  rw [fieldName, suffixIfReserved_mem_iff hends, ← hmissed]
  exact ⟨fun h => List.mem_filter.mpr ⟨h, hlower⟩, fun h => (List.mem_filter.mp h).1⟩

/-- **A field is a word of the language exactly if its key is spelled like a word that the
keywords of the target lack.** In C++ these are seventeen keywords and tokens, in C the two
truth values. Each of them is the field under the key that is the word itself. It is these
names of fields that are written in the text of a type. -/
theorem language_words_of_fields_iff (key : String) :
    (∀ d, CPlusPlus.renderStruct d = CPlusPlus.memberLayout.text CPlusPlus.fieldName d) ∧
    (∀ d, C.renderStruct d = C.memberLayout.text C.fieldName d) ∧
    (CPlusPlus.fieldName key ∈ CPlusPlus.languageWords ↔
      snakeCase key ∈ CPlusPlus.missedWords) ∧
    (C.fieldName key ∈ C.languageWords ↔ snakeCase key ∈ C.missedWords) ∧
    (∀ word ∈ CPlusPlus.missedWords, CPlusPlus.fieldName word = word) ∧
    ∀ word ∈ C.missedWords, C.fieldName word = word := by
  refine ⟨CPlusPlus.renderStruct_eq_text, C.renderStruct_eq_text,
    CPlusPlus.fieldName_mem_languageWords_iff key, C.fieldName_mem_languageWords_iff key, ?_, ?_⟩
  · decide +kernel
  · decide +kernel

/-- An object with a member called after a keyword of C++, and one with a member called after
a macro of C. -/
theorem fields_are_language_words :
    (integersUnder ["typeid"]).KeysDistinct ∧
      rootMembers .cPlusPlus CPlusPlus.fieldName ["typeid"] = ["typeid"] ∧
      CPlusPlus.renderStruct (planFor .cPlusPlus "Root" (integersUnder ["typeid"])).root =
        "struct Root \x7b\n    std::int64_t typeid;\n\n    Root() = default;\n\x7d;" ∧
      "typeid" ∈ CPlusPlus.standardKeywords ∧
      (integersUnder ["true"]).KeysDistinct ∧
      rootMembers .c C.fieldName ["true"] = ["true"] ∧
      C.renderStruct (planFor .c "Root" (integersUnder ["true"])).root =
        "typedef struct \x7b\n    int64_t true;\n\x7d root_t;" ∧ "true" ∈ C.booleanMacros := by
  decide +kernel

end Shapewright
