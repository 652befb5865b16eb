import Mathlib.Data.List.Basic
import Mathlib.Tactic.Common

set_option autoImplicit false

/-! Copies between objects that are lists of elements. A copy that would leave either object is
undefined, here `none`. -/
namespace Copy

variable {α : Type}

/-- `n` elements from the start of `src` to the start of `dst`. -/
def memcpy (dst src : List α) (n : Nat) : Option (List α) :=
  if n ≤ src.length ∧ n ≤ dst.length then some (src.take n ++ dst.drop n) else none

/-- `dst[index] = value`. -/
def assign (dst : List α) (index : Nat) (value : α) : Option (List α) :=
  if index < dst.length then some (dst.take index ++ value :: dst.drop (index + 1)) else none

/-- The idiom `if (n > limit) n = limit`. -/
theorem clamp_eq_min (n limit : Nat) : (if limit < n then limit else n) = min n limit := by
  split <;> omega

theorem memcpy_inside {dst src : List α} {n : Nat} (readable : n ≤ src.length)
    (writable : n ≤ dst.length) : memcpy dst src n = some (src.take n ++ dst.drop n) :=
  if_pos ⟨readable, writable⟩

/-- The terminator behind a copied string. -/
theorem assign_behind {dst src : List α} {n : Nat} (value : α) (readable : n ≤ src.length)
    (writable : n < dst.length) :
    assign (src.take n ++ dst.drop n) n value =
      some (src.take n ++ value :: dst.drop (n + 1)) := by
  have copied : (src.take n).length = n := List.length_take_of_le readable
  have room : n < (src.take n ++ dst.drop n).length := by
    rw [List.length_append, copied, List.length_drop]
    omega
  rw [assign, if_pos room, List.take_left' copied, List.drop_append, copied]
  have beyond : (src.take n).drop (n + 1) = [] := List.drop_eq_nil_of_le (by omega)
  have shift : n + 1 - n = 1 := by omega
  rw [beyond, shift, List.drop_drop, List.nil_append]

end Copy
