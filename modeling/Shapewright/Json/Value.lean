import Shapewright.Number.Shortest

/-!
# Documents

The data model of a JSON document. A number keeps the distinction the text
makes: whole numbers of 64 bits stay integers, everything else is a real. The
members of an object are a list in source order with each name at most once;
`Member.put` keeps both properties.

Main definitions:

* `Json.Number`, `Json.Value`.
* `Member.put`, `Member.get?` — insertion and look-up by name.
* `Member.names` — the names in order, with the law of `put` on them.
-/

namespace Shapewright.Json

/-- A number: an integer in the range of 64-bit words, signed or unsigned, or a real. -/
inductive Number where
  | integer (value : Int)
  | real (value : Binary64)
  deriving Repr, DecidableEq, Inhabited

namespace Number

def toText : Number → String
  | .integer n => toString n
  | .real x => x.toText

/-- Whether the value is an integer, however it is written. -/
def isIntegral : Number → Bool
  | .integer _ => true
  | .real x => x.isIntegral

end Number

/-- A JSON document or a part of one. -/
inductive Value where
  | null
  | boolean (value : Bool)
  | number (value : Number)
  | string (value : String)
  | array (items : List Value)
  | object (members : List (String × Value))
  deriving Repr, Inhabited

/-! ## Members -/

namespace Member

variable {α : Type}

/-- Give `name` the value `value`: in place when the name is there already,
at the end otherwise. -/
def put (name : String) (value : α) : List (String × α) → List (String × α)
  | [] => [(name, value)]
  | (other, old) :: rest =>
    if other = name then (other, value) :: rest else (other, old) :: put name value rest

def get? (name : String) : List (String × α) → Option α
  | [] => none
  | (other, value) :: rest => if other = name then some value else get? name rest

/-- The names of the members in order. -/
def names (members : List (String × α)) : List String := members.map Prod.fst

theorem names_put (name : String) (value : α) (members : List (String × α)) :
    names (put name value members) =
      if name ∈ names members then names members else names members ++ [name] := by
  induction members with
  | nil => simp [put, names]
  | cons m rest ih =>
    obtain ⟨other, old⟩ := m
    by_cases h : other = name
    · simp [put, names, h]
    · have h' : name ≠ other := fun e => h e.symm
      simp only [names] at ih
      by_cases hm : name ∈ List.map Prod.fst rest <;> simp_all [put, names]

theorem get?_put (name other : String) (value : α) (members : List (String × α)) :
    get? other (put name value members) =
      if other = name then some value else get? other members := by
  induction members with
  | nil => simp [put, get?, eq_comm]
  | cons m rest ih =>
    obtain ⟨key, old⟩ := m
    by_cases h : key = name
    · subst h
      by_cases ho : key = other
      · simp [put, get?, ho]
      · have hk : ¬other = key := fun e => ho e.symm
        simp [put, get?, ho, hk]
    · by_cases ho : key = other
      · subst ho
        simp [put, get?, h]
      · simp [put, get?, h, ho, ih]

/-- Setting a member keeps the names distinct. -/
theorem nodup_names_put (name : String) (value : α) {members : List (String × α)}
    (h : (names members).Nodup) : (names (put name value members)).Nodup := by
  rw [names_put]
  split
  · exact h
  · next hm =>
    rw [List.nodup_append]
    refine ⟨h, by simp, ?_⟩
    intro a ha b hb
    simp only [List.mem_singleton] at hb
    subst hb
    exact fun e => hm (e ▸ ha)

end Member

end Shapewright.Json
