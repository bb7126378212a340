/-!
# Origins

A run of a filter goes through steps, some of them once for every output of the
step before. An origin is the way from the run as a whole to one of its steps,
the last turn first. What a step makes is told apart by the origin of the step,
however much else looks the same.

Main definitions:

* `Origin`, `Origin.branch`.
-/

namespace Shapewright.Query

/-- The way to a step of a run. The run as a whole has the empty one. -/
abbrev Origin := List Nat

namespace Origin

/-- The way to a step inside the step that `o` leads to. -/
def branch (o : Origin) (n : Nat) : Origin := n :: o

end Origin
end Shapewright.Query
