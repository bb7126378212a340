import Shapewright.Dialect.Java
import Shapewright.Dialect.JavaScript
import Shapewright.Dialect.Kotlin
import Shapewright.Proofs.Text.Marks

/-!
# Keys between quotes

Where a key is no name of the target's, or not the name that was made of it, it stands
in a string literal. There are four such places: a property name, the access to a
property, and the annotations of two targets. In each, quotes and backslashes are marked,
and where a dollar sign would begin a template that is too. So whatever the key, the
literal ends where it should and stands for the key. Line breaks are not marked: a key
that has one is written over several lines, which none of the four targets allows.

Main definitions:

* `QuotedKey` — the places where a key may stand between quotes.
* `QuotedKey.read?` — the inside of the literal in a text, and what follows it.

Main results:

* `quoted_keys_faithful_iff` — the literal stands for the key, and is one line exactly if
  the key is.
* `quoted_keys_broken` — the four literals for a key with a line break.
-/

namespace Shapewright

open Text

/-- The places where a key may stand between quotes. -/
inductive QuotedKey where
  /-- The name of a property of an interface. -/
  | property (slot : Slot)
  /-- The access to a property of an object. -/
  | access (object : String)
  /-- The annotation of a field. -/
  | field (options : JavaOptions) (slot : Slot)
  /-- The annotation of a property of a data class. -/
  | dataProperty (options : KotlinOptions) (slot : Slot)
  deriving Repr, DecidableEq

namespace QuotedKey

/-- Whether the key is quoted there. -/
def isQuoted (key : String) : QuotedKey → Bool
  | .property _ | .access _ => !Name.isPropertyName key
  | .field options _ => options.useJsonProperty && Java.fieldName key != key
  | .dataProperty options _ => options.useJsonProperty && Kotlin.propertyName key != key

/-- What is written for a key. -/
def text (key : String) : QuotedKey → String
  | .property slot => TypeScript.renderMember (key, slot)
  | .access object => JavaScript.accessText object key
  | .field options slot => (Java.Field.ofMember (key, slot)).declaration options
  | .dataProperty options slot => Kotlin.renderProperty options (key, slot)

/-! ## Literals -/

/-- What stands before the literal, up to its first quote. -/
def opening : QuotedKey → String
  | .property _ => "  \""
  | .access object => object ++ "[\""
  | .field _ _ | .dataProperty _ _ => "    @JsonProperty(\""

/-- What stands behind the quote that ends the literal. An annotation is followed by
what is written without one. -/
def closing (key : String) : QuotedKey → String
  | .property slot => ": " ++ TypeScript.typeExpr slot ++ ";\n"
  | .access _ => "]"
  | .field _ slot => ")\n" ++ (Java.Field.ofMember (key, slot)).declaration {}
  | .dataProperty _ slot => ")\n" ++ Kotlin.renderProperty {} (key, slot)

/-- The characters that must not stand in a literal without a mark, and the only ones
whose marks can be undone. -/
def special : QuotedKey → List Char
  | .dataProperty _ _ => ['\\', '"', '$']
  | _ => ['\\', '"']

/-- Quotes are marked in all four places, and so are the marks themselves. -/
theorem quote_mem_special (p : QuotedKey) : '"' ∈ p.special := by
  cases p <;> simp [special]

theorem backslash_mem_special (p : QuotedKey) : '\\' ∈ p.special := by
  cases p <;> simp [special]

/-- The inside of the literal that a text begins with, behind the opening, and what
follows the literal. -/
def read? (p : QuotedKey) (cs : List Char) : Option (List Char × List Char) :=
  (after? p.opening cs).bind literal?

/-! ## What is written -/

/-- All four put the marked key between the opening and a quote, and something behind it that
does not depend on how the key is written. -/
theorem toList_text {p : QuotedKey} {key : String} (h : p.isQuoted key = true) :
    (p.text key).toList = p.opening.toList ++
      (escapeWith p.special key.toList ++ '"' :: (p.closing key).toList) := by
  -- the quote that ends the literal belongs to the text that follows it
  have hquote : ∀ cs : List Char, '"' :: cs = "\"".toList ++ cs := fun _ => rfl
  cases p with
  | property slot =>
    have hname : ¬ Name.isPropertyName key = true := by simpa [isQuoted] using h
    simp only [text, TypeScript.renderMember, TypeScript.propertyKey, if_neg hname, opening,
      closing, hquote, escapeQuotes, special, String.toList_append, String.toList_ofList,
      List.append_assoc]
    rfl
  | access object =>
    have hname : ¬ Name.isPropertyName key = true := by simpa [isQuoted] using h
    simp only [text, JavaScript.accessText, if_neg hname, opening, closing, hquote, escapeQuotes,
      special, String.toList_append, String.toList_ofList, List.append_assoc]
    rfl
  | field options slot =>
    have hannotated : (options.useJsonProperty && Java.fieldName key != key) = true := h
    simp only [text, Java.Field.declaration, Java.Field.ofMember, hannotated, if_true, opening,
      closing, hquote, escapeQuotes, special, String.toList_append, String.toList_ofList,
      List.append_assoc]
    rfl
  | dataProperty options slot =>
    have hannotated : (options.useJsonProperty && Kotlin.propertyName key != key) = true := h
    simp only [text, Kotlin.renderProperty, hannotated, if_true, opening, closing, hquote,
      Kotlin.escapeKey, special, String.toList_append, String.toList_ofList, List.append_assoc]
    rfl

end QuotedKey

/-! ## Faithfulness -/

/-- **Quoted keys stand for themselves.** Wherever a key is quoted, the literal ends
where it was meant to, whatever follows; nothing in it lacks a mark, and without the marks
it is the key. It is one line exactly if the key is: line breaks are written as they
are. -/
theorem quoted_keys_faithful_iff {p : QuotedKey} {key : String} (h : p.isQuoted key = true)
    (rest : List Char) :
    ∃ inside, p.read? ((p.text key).toList ++ rest) =
        some (inside, (p.closing key).toList ++ rest) ∧
      unmark p.special inside = some key.toList ∧
      (IsOneLine inside ↔ IsOneLine key.toList) := by
  have htext : (p.text key).toList ++ rest = p.opening.toList ++
      (escapeWith p.special key.toList ++ '"' :: ((p.closing key).toList ++ rest)) := by
    rw [QuotedKey.toList_text h, List.append_assoc, List.append_assoc, List.cons_append]
  -- the reader stops at the first quote without a mark, and the escaping has left none in the
  -- key
  have hread : p.read? ((p.text key).toList ++ rest) =
      some (escapeWith p.special key.toList, (p.closing key).toList ++ rest) := by
    rw [QuotedKey.read?, htext, after?_append, Option.bind_some,
      literal?_escapeWith p.quote_mem_special p.backslash_mem_special]
  exact ⟨escapeWith p.special key.toList, hread,
    unmark_escapeWith p.quote_mem_special p.backslash_mem_special key.toList,
    isOneLine_escapeWith_iff key.toList⟩

/-- A backslash before a quote, and a dollar sign that begins a template only where it
has no mark. -/
theorem quoted_keys_faithful_iff_dollar :
    let p : QuotedKey := .dataProperty { useJsonProperty := true } .string
    p.isQuoted "a\\\"$b" = true ∧
      ∃ inside, p.read? ((p.text "a\\\"$b").toList ++ []) =
          some (inside, (p.closing "a\\\"$b").toList ++ []) ∧
        unmark p.special inside = some "a\\\"$b".toList ∧
        (IsOneLine inside ↔ IsOneLine "a\\\"$b".toList) :=
  ⟨by decide +kernel, quoted_keys_faithful_iff (by decide +kernel) []⟩

/-- The four literals for a key with a line break: what stands between the quotes is the
line break itself. -/
theorem quoted_keys_broken :
    let places : List QuotedKey := [.property .integer, .access "data",
      .field { useJsonProperty := true } .integer,
      .dataProperty { useJsonProperty := true } .integer]
    places.map (QuotedKey.isQuoted "a\nb") = [true, true, true, true] ∧
      places.map (fun p => (p.read? (p.text "a\nb").toList).map Prod.fst) =
        List.replicate 4 (some "a\nb".toList) ∧
      ¬ IsOneLine "a\nb".toList := by
  decide +kernel

end Shapewright
