/-!
# Options of the targets

What a user can choose about the declarations of each target. Targets without
choices of their own still accept `multipleFiles`, which then has no effect.
-/

namespace Shapewright

/-- Options of targets that always write one text. -/
structure PlainOptions where
  /-- Without effect. -/
  multipleFiles : Bool := false
  deriving Repr, DecidableEq, Inhabited

structure GoOptions where
  /-- Without effect. -/
  multipleFiles : Bool := false
  /-- The package that the file belongs to. -/
  packageName : Option String := none
  deriving Repr, DecidableEq, Inhabited

structure KotlinOptions where
  /-- One file for each class. -/
  multipleFiles : Bool := false
  /-- Annotate properties whose name differs from the key. -/
  useJsonProperty : Bool := false
  deriving Repr, DecidableEq, Inhabited

structure JavaOptions where
  /-- One file for each class; overrides `useInnerClass`. -/
  multipleFiles : Bool := false
  /-- Annotate fields whose name differs from the key. -/
  useJsonProperty : Bool := false
  /-- Leave constructors and accessors to annotations. -/
  useLombok : Bool := false
  /-- Write a constructor without and one with arguments. -/
  includeConstructor : Bool := false
  /-- Write a getter and a setter for each field. -/
  includeGetterSetter : Bool := true
  /-- Nest all classes in the root class. -/
  useInnerClass : Bool := true
  deriving Repr, DecidableEq, Inhabited

end Shapewright
