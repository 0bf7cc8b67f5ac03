import Archon.Backend.Members

/-!
# More roles, no fewer rights (`permissions.rs`)

Who may do something may do it with further roles as well: no rule of the matrix, and no resolver
over it, takes a right away from a role.
-/

namespace Archon.Backend
open Engine

/-- The same person with further roles. -/
structure Promoted (u v : User) : Prop where
  uid : v.uid = u.uid
  country : v.country = u.country
  roles : u.roles ⊆ v.roles

/-- A right that is kept under a promotion. -/
def GrowsWithRoles (right : User → Bool) : Prop :=
  ∀ u v, Promoted u v → right u = true → right v = true

section Rights

variable {right right' : User → Bool}

theorem GrowsWithRoles.and (h : GrowsWithRoles right) (h' : GrowsWithRoles right') :
    GrowsWithRoles fun u => right u && right' u := by
  intro u v hpromoted hu
  rw [Bool.and_eq_true] at hu ⊢
  exact ⟨h u v hpromoted hu.1, h' u v hpromoted hu.2⟩

theorem GrowsWithRoles.or (h : GrowsWithRoles right) (h' : GrowsWithRoles right') :
    GrowsWithRoles fun u => right u || right' u := by
  intro u v hpromoted hu
  rw [Bool.or_eq_true] at hu ⊢
  exact hu.imp (h u v hpromoted) (h' u v hpromoted)

theorem GrowsWithRoles.ite {p : Prop} [Decidable p] (h : GrowsWithRoles right)
    (h' : GrowsWithRoles right') : GrowsWithRoles fun u => if p then right u else right' u := by
  by_cases hp : p
  · simpa only [if_pos hp] using h
  · simpa only [if_neg hp] using h'

end Rights

end Archon.Backend
