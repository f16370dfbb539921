/-
Windows: the part of a list that `$skip` and `$top` leave.

* `window` — the items after the first `skip`, at most `top` of them.
-/

set_option relaxedAutoImplicit false
set_option autoImplicit false

namespace OData

universe u

/-- The items after the first `skip`, at most `top` of them; no limit means all. -/
def window {α : Type u} (items : List α) (skip : Nat) (top : Option Nat) : List α :=
  match top with
  | none => items.drop skip
  | some limit => (items.drop skip).take limit

section

variable {α : Type u}

@[simp] theorem window_none (items : List α) (skip : Nat) :
    window items skip none = items.drop skip := rfl

@[simp] theorem window_some (items : List α) (skip limit : Nat) :
    window items skip (some limit) = (items.drop skip).take limit := rfl

@[simp] theorem window_nil (skip : Nat) (top : Option Nat) :
    window ([] : List α) skip top = [] := by
  cases top <;> simp

theorem window_eq_nil_of_length_le {items : List α} {skip : Nat} (top : Option Nat)
    (h : items.length ≤ skip) : window items skip top = [] := by
  cases top <;> simp [h]

theorem mem_of_mem_window {items : List α} {skip : Nat} {top : Option Nat} {a : α}
    (h : a ∈ window items skip top) : a ∈ items := by
  cases top with
  | none => exact List.mem_of_mem_drop h
  | some limit => exact List.mem_of_mem_drop (List.mem_of_mem_take h)

end

end OData
