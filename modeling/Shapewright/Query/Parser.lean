import Shapewright.Query.Filter
import Shapewright.Query.Lexer

/-!
# Reading filters

Operators bind in levels, from the pipe, which binds least, to sums, which bind
most; behind a term stand any number of accesses, which make up one way. The
reader recurses on a budget that every call draws on, which is computed from the
number of tokens and larger than any reading needs.

Main definitions:

* `Parser.level` — filters whose operators are of a level or higher.
* `Filter.parse?` — the filter that a text is.
-/

namespace Shapewright.Query

namespace Parser

/-- What reading yields: a result and the tokens behind it. -/
abbrev Reading (α : Type) := Option (α × List Token)

/-- Take a mark. -/
def expect (mark : String) : List Token → Option (List Token)
  | .mark m :: rest => if m = mark then some rest else none
  | _ => none

/-- Take a keyword. -/
def keyword (word : String) : List Token → Option (List Token)
  | .name n :: rest => if n = word then some rest else none
  | _ => none

/-- The names that begin forms which are not read here. The other names of such
forms are functions where a term must begin. -/
def reserved : List String := ["reduce", "foreach", "try", "label", "def", "break"]

/-- The names that begin directives in front of a filter. -/
def directives : List String := ["module", "import", "include"]

/-- The number of levels. -/
def levels : Nat := 8

/-- The operator that a token is on a level. -/
def operator? (level : Nat) (comma : Bool) : Token → Option (Filter → Filter → Filter)
  | .mark m =>
    match level, m with
    | 0, "|" => some .pipe
    | 1, "," => if comma then some .both else none
    | 2, "//" => some .orElse
    | 5, "==" => some (.compare .equal)
    | 5, "!=" => some (.compare .notEqual)
    | 6, "<" => some (.compare .less)
    | 6, "<=" => some (.compare .lessEqual)
    | 6, ">" => some (.compare .greater)
    | 6, ">=" => some (.compare .greaterEqual)
    | 7, "+" => some (.arithmetic .add)
    | 7, "-" => some (.arithmetic .subtract)
    | _, _ => none
  | .name n =>
    match level, n with
    | 3, "or" => some .disj
    | 4, "and" => some .conj
    | _, _ => none
  | _ => none

/-- Take any number of question marks; whether there was one. -/
def questionMarks : List Token → Bool × List Token
  | .mark "?" :: rest => (true, (questionMarks rest).2)
  | ts => (false, ts)

mutual

/-- Read a filter whose operators are of the given level or higher. Without
`comma`, a comma ends it. -/
def level (comma : Bool) : Nat → Nat → List Token → Reading Filter
  | 0, _, _ => none
  | fuel + 1, n, ts =>
    if levels ≤ n then postfixed fuel ts
    else
      match level comma fuel (n + 1) ts with
      | none => none
      | some (left, ts) => operators comma fuel n left ts

/-- Read the operators of a level behind their first operand. The pipe takes
all that follows as its second operand. -/
def operators (comma : Bool) : Nat → Nat → Filter → List Token → Reading Filter
  | 0, _, _, _ => none
  | _ + 1, _, left, [] => some (left, [])
  | fuel + 1, n, left, t :: ts =>
    match operator? n comma t with
    | none => some (left, t :: ts)
    | some op =>
      -- all levels but the pipe are left-associative
      match level comma fuel (if n = 0 then 0 else n + 1) ts with
      | none => none
      | some (right, ts) => operators comma fuel n (op left right) ts

/-- Read a term and the accesses behind it. A point followed by an access, and an
access with a point of its own, start from the datum. -/
def postfixed : Nat → List Token → Reading Filter
  | 0, _ => none
  | fuel + 1, ts =>
    match ts with
    | .field _ :: _ => located fuel .identity ts
    | .mark "." :: .string _ :: _ => located fuel .identity ts
    | ts =>
      match term fuel ts with
      | none => none
      | some (base, ts) =>
        -- question marks may stand behind the term itself
        let (optional, ts) := questionMarks ts
        located fuel (if optional then .attempt base else base) ts

/-- Read the accesses to parts of `base`. -/
def located : Nat → Filter → List Token → Reading Filter
  | 0, _, _ => none
  | fuel + 1, base, ts => (accesses fuel ts).map fun (way, ts) => (base.along way, ts)

/-- Read accesses. -/
def accesses : Nat → List Token → Reading Way
  | 0, _ => none
  | fuel + 1, ts =>
    match ts with
    | .field name :: ts => behind fuel (.key (.text name)) ts
    | .mark "." :: .string name :: ts => behind fuel (.key (.text name)) ts
    | .mark "[" :: ts =>
      match bracketed fuel ts with
      | none => none
      | some (access, ts) => behind fuel access ts
    | ts => some (.here, ts)

/-- Read what follows an access. -/
def behind : Nat → Access → List Token → Reading Way
  | 0, _, _ => none
  | fuel + 1, access, ts =>
    let (optional, ts) := questionMarks ts
    (accesses fuel ts).map fun (way, ts) => (.through access optional way, ts)

/-- Read an access in brackets from behind its opening bracket. -/
def bracketed : Nat → List Token → Reading Access
  | 0, _ => none
  | fuel + 1, ts =>
    match ts with
    | .mark "]" :: ts => some (.all, ts)
    | .mark ":" :: ts =>
      match level true fuel 0 ts with
      | none => none
      | some (upper, ts) =>
        (expect "]" ts).map fun ts => (.segment .unbounded (.limit upper), ts)
    | ts =>
      match level true fuel 0 ts with
      | none => none
      -- one bound may be missing on either side
      | some (lower, .mark ":" :: .mark "]" :: ts) =>
        some (.segment (.limit lower) .unbounded, ts)
      | some (lower, .mark ":" :: ts) =>
        match level true fuel 0 ts with
        | none => none
        | some (upper, ts) =>
          (expect "]" ts).map fun ts => (.segment (.limit lower) (.limit upper), ts)
      | some (key, ts) => (expect "]" ts).map fun ts => (.key key, ts)

/-- Read a term. -/
def term : Nat → List Token → Reading Filter
  | 0, _ => none
  | fuel + 1, ts =>
    match ts with
    | .mark "-" :: ts => (postfixed fuel ts).map fun (f, ts) => (.negate f, ts)
    | .mark ".." :: ts => some (.recurse, ts)
    | .mark "." :: ts => some (.identity, ts)
    | .number text :: ts => some (.literal (.number (.ofDigits text)), ts)
    | .string text :: ts => some (.text text, ts)
    -- no variable is ever bound
    | .variable name :: ts => some (.unknown name, ts)
    | .name "break" :: .variable name :: ts => some (.unknown name, ts)
    | .mark "(" :: ts =>
      match level true fuel 0 ts with
      | none => none
      | some (f, ts) => (expect ")" ts).map fun ts => (f, ts)
    | .mark "[" :: .mark "]" :: ts => some (.collect .nothing, ts)
    | .mark "[" :: ts =>
      match level true fuel 0 ts with
      | none => none
      | some (f, ts) => (expect "]" ts).map fun ts => (.collect f, ts)
    | .mark "\x7b" :: .mark "\x7d" :: ts => some (.object [], ts)
    | .mark "\x7b" :: ts =>
      (entries fuel ts).map fun (es, ts) => (.object es, ts)
    | .name "if" :: ts => branches fuel ts
    | .name name :: ts =>
      -- a word of the language is no call
      if reserved.contains name then none
      else
        match ts with
        | .mark "(" :: ts =>
          (arguments fuel ts).map fun (args, ts) => (.call name args, ts)
        | ts => some (.call name [], ts)
    | _ => none

/-- Read the arguments of a call from behind their opening bracket. -/
def arguments : Nat → List Token → Reading (List Filter)
  | 0, _ => none
  | fuel + 1, ts =>
    match level true fuel 0 ts with
    | none => none
    | some (f, .mark ")" :: ts) => some ([f], ts)
    | some (f, .mark ";" :: ts) => (arguments fuel ts).map fun (fs, ts) => (f :: fs, ts)
    | some _ => none

/-- Read the members of an object from behind its opening brace. A comma may
stand behind the last one. -/
def entries : Nat → List Token → Reading (List (Filter × Filter))
  | 0, _ => none
  | fuel + 1, ts =>
    match entry fuel ts with
    | none => none
    | some (e, .mark "\x7d" :: ts) => some ([e], ts)
    | some (e, .mark "," :: .mark "\x7d" :: ts) => some ([e], ts)
    | some (e, .mark "," :: ts) => (entries fuel ts).map fun (es, ts) => (e :: es, ts)
    | some _ => none

/-- Read a member of an object. A name alone stands for the part of that name.
What is in a module has no such name. There are no variables, so that one is as
unknown as a function. -/
def entry : Nat → List Token → Reading (Filter × Filter)
  | 0, _ => none
  | fuel + 1, ts =>
    let named (key alone : Filter) (ts : List Token) : Reading (Filter × Filter) :=
      match ts with
      | .mark ":" :: ts => (level false fuel 0 ts).map fun (v, ts) => ((key, v), ts)
      | ts => some ((key, alone), ts)
    match ts with
    | .name name :: ts =>
      if name.toList.contains ':' then none else named (.text name) (.field .identity name) ts
    | .string name :: ts => named (.text name) (.field .identity name) ts
    | .variable name :: ts => named (.unknown name) (.unknown name) ts
    | .mark "(" :: ts =>
      match level true fuel 0 ts with
      | none => none
      | some (key, ts) =>
        match (expect ")" ts).bind (expect ":") with
        | none => none
        | some ts => (level false fuel 0 ts).map fun (v, ts) => ((key, v), ts)
    | _ => none

/-- Read a conditional from behind `if` or `elif`. -/
def branches : Nat → List Token → Reading Filter
  | 0, _ => none
  | fuel + 1, ts =>
    match level true fuel 0 ts with
    | none => none
    | some (test, ts) =>
      match keyword "then" ts with
      | none => none
      | some ts =>
        match level true fuel 0 ts with
        | none => none
        | some (yes, .name "elif" :: ts) =>
          (branches fuel ts).map fun (no, ts) => (.conditional test yes no, ts)
        | some (yes, .name "else" :: ts) =>
          match level true fuel 0 ts with
          | none => none
          | some (no, ts) =>
            (keyword "end" ts).map fun ts => (.conditional test yes no, ts)
        -- without an alternative the datum itself is the answer
        | some (yes, .name "end" :: ts) => some (.conditional test yes .identity, ts)
        | some _ => none

end

/-- More calls than reading that many tokens takes. -/
def budget (count : Nat) : Nat := (levels + 8) * (count + 2)

end Parser

/-- Whether a directive stands in front. -/
def Parser.isDirective : List Token → Bool
  | .name n :: _ => Parser.directives.contains n
  | _ => false

/-- The filter that a text is. -/
def Filter.parse? (text : String) : Option Filter :=
  match tokens? text with
  | none => none
  | some ts =>
    if Parser.isDirective ts then none
    else
      match Parser.level true (Parser.budget ts.length) 0 ts with
      | some (f, []) => some f
      | _ => none

end Shapewright.Query
