import Mathlib.Data.Finset.Sort
import Mathlib.Data.Finset.Max
import Mathlib.Data.Finset.BooleanAlgebra

/-!
# Sets served least element first
-/
namespace RootTask.Least

variable {α : Type*} [LinearOrder α]

/-- The least element, if there is one. -/
def least (s : Finset α) : Option α := s.min

theorem least_eq_some {s : Finset α} {a : α} : least s = some a ↔ IsLeast (↑s : Set α) a := by
  constructor
  · intro found
    exact ⟨Finset.mem_of_min found, fun b member => Finset.min_le_of_eq member found⟩
  · rintro ⟨member, below⟩
    change s.min = ↑a
    apply le_antisymm (Finset.min_le member)
    exact Finset.le_min fun b inside => WithTop.coe_le_coe.mpr (below inside)

theorem least_eq_none {s : Finset α} : least s = none ↔ s = ∅ := Finset.min_eq_top

section Complement

variable [Fintype α] {s : Finset α}

theorem least_compl_eq_some {a : α} : least sᶜ = some a ↔ IsLeast {b | b ∉ s} a := by
  rw [least_eq_some, Finset.coe_compl]
  rfl

theorem least_compl_eq_none : least sᶜ = none ↔ s = Finset.univ := by
  rw [least_eq_none, Finset.compl_eq_empty_iff]

end Complement

/-- The least element comes first in order, the others follow. -/
theorem sort_of_least {s : Finset α} {a : α} (found : least s = some a) :
    s.sort = a :: (s.erase a).sort := by
  obtain ⟨member, below⟩ := least_eq_some.mp found
  rw [← Finset.sort_insert (· ≤ ·) (fun b inside => below (Finset.mem_of_mem_erase inside))
    (Finset.notMem_erase a s), Finset.insert_erase member]

end RootTask.Least
