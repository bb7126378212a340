/-!
# Type names

Names for declared types are handed out one by one. A name that the target
cannot declare gets the suffix `Type`; one that is in use gets the name of the
containing type before it, and then a number.

Main definitions:

* `Reserved` — the names that a target cannot declare.
* `candidates` — the names to try once the plain one is in use. There is one
  more of them than names that could be unavailable.
* `claim` — the name that a new type gets.
-/

namespace Shapewright

/-- The names that a target cannot declare: those that, spelled the way the
target spells type names, are one of the words. -/
structure Reserved where
  words : List String
  spell : String → String

namespace Reserved

/-- Exactly the given names. -/
def ofList (words : List String) : Reserved := ⟨words, id⟩

def holds (r : Reserved) (name : String) : Bool := r.words.contains (r.spell name)

end Reserved

namespace Naming

/-- Whether a name may be given out after the names in `taken`. -/
def isFree (r : Reserved) (taken : List String) (name : String) : Bool :=
  !r.holds name && !taken.contains name

/-- `stem`, then `stem` followed by the numbers from two. -/
def candidates (stem : String) (numbers : Nat) : List String :=
  stem :: (List.range numbers).map fun i => stem ++ toString (i + 2)

/-- The first free candidate. -/
def firstFree (r : Reserved) (taken : List String) (stem : String) : String :=
  ((candidates stem (taken.length + r.words.length)).find? (isFree r taken)).getD stem

/-- `base` in a form that the target can declare. -/
def declarable (r : Reserved) (base : String) : String :=
  if r.holds base then base ++ "Type" else base

/-- The name of a new type that would be called `base` inside the type `parent`. -/
def claim (r : Reserved) (taken : List String) (base parent : String) : String :=
  let base := declarable r base
  if isFree r taken base then base else firstFree r taken (parent ++ base)

end Naming
end Shapewright
