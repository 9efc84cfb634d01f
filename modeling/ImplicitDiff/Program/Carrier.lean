import ImplicitDiff.Traced

/-! # The numbers that programs run on

One program runs on plain numbers, on dual numbers and on traced numbers. A carrier says how its
numbers are made from plain ones, which plain value each has, and what the operations do to them.
The value decides every comparison, so the kind of number never decides a branch.
-/

namespace ImplicitDiff

/-- A kind of number `T` over plain numbers `F`, whose operations have effects in `M`. -/
class Carrier (F : outParam Type) (T : Type) (M : outParam (Type → Type)) where
  /-- The number that depends on nothing. -/
  lift : F → T
  /-- The plain value. -/
  value : T → F
  /-- The number with the opposite sign. -/
  neg : T → M T
  /-- An elementary function. -/
  elementary : Elementary F → T → M T
  /-- An operation on two numbers. -/
  operate : Operation → T → T → M T
  /-- An operation with a plain number on the right. -/
  operateRight : Operation → T → F → M T
  /-- An operation with a plain number on the left. -/
  operateLeft : Operation → F → T → M T

variable {F : Type} [Arith F]

/-- Plain numbers carry nothing but their value. -/
instance : Carrier F F (Except Fault) where
  lift := id
  value := id
  neg a := pure (-a)
  elementary f a := pure (f.value a)
  operate o a b := pure (o.value a b)
  operateRight o a c := pure (o.value a c)
  operateLeft o c a := pure (o.value c a)

/-- Dual numbers carry their tangent. -/
instance : Carrier F (Dual F) (Except Fault) where
  lift := Dual.constant
  value := Dual.primal
  neg a := pure (-a)
  elementary f a := pure (a.elementary f)
  operate o a b := pure (Dual.operate o a b)
  operateRight o a c := pure (Dual.operateRight o a c)
  operateLeft o c a := pure (Dual.operateLeft o c a)

/-- Traced numbers record on the active tape. -/
instance : Carrier F (Traced F) (RecordM F) where
  lift := Traced.constant
  value := Traced.value
  neg := Traced.neg
  elementary f a := a.elementary f
  operate := Traced.operate
  operateRight := Traced.operateRight
  operateLeft := Traced.operateLeft

end ImplicitDiff
