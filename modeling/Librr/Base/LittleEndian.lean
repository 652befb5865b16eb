import Mathlib.Algebra.Group.Nat.Defs
import Mathlib.Data.List.Basic
import Mathlib.Tactic.Common

set_option autoImplicit false

/-! Fixed-width little-endian numbers, and fields at fixed offsets of a record. -/
namespace LittleEndian

def split : Nat → Nat → List UInt8
  | 0, _ => []
  | width + 1, value => UInt8.ofNat value :: split width (value / 256)

def combine : List UInt8 → Nat
  | [] => 0
  | byte :: rest => byte.toNat + 256 * combine rest

@[simp] theorem length_split (width value : Nat) : (split width value).length = width := by
  induction width generalizing value with
  | zero => rfl
  | succ width ih => simp [split, ih]

theorem combine_split (width value : Nat) : combine (split width value) = value % 256 ^ width := by
  induction width generalizing value with
  | zero => simp [split, combine, Nat.mod_one]
  | succ width ih =>
      have byte : (UInt8.ofNat value).toNat = value % 256 := UInt8.toNat_ofNat'
      rw [split, combine, ih, byte, Nat.pow_succ', Nat.mod_mul]

/-- The bytes of one field. -/
def slice (bytes : List UInt8) (offset width : Nat) : List UInt8 := (bytes.drop offset).take width

def field (bytes : List UInt8) (offset width : Nat) : Nat := combine (slice bytes offset width)

theorem slice_append_left {front rest : List UInt8} {width : Nat} (exact : front.length = width) :
    slice (front ++ rest) 0 width = front := by
  subst exact
  simp [slice]

/-- A field behind a first one is a field of what follows it. -/
theorem slice_append_right (front rest : List UInt8) {offset width : Nat}
    (behind : front.length ≤ offset) :
    slice (front ++ rest) offset width = slice rest (offset - front.length) width := by
  simp [slice, List.drop_append, List.drop_of_length_le behind]

theorem field_append_right (front rest : List UInt8) {offset width : Nat}
    (behind : front.length ≤ offset) :
    field (front ++ rest) offset width = field rest (offset - front.length) width := by
  rw [field, field, slice_append_right front rest behind]

theorem field_split_left (width value : Nat) (rest : List UInt8) :
    field (split width value ++ rest) 0 width = value % 256 ^ width := by
  rw [field, slice_append_left (length_split width value), combine_split]

end LittleEndian
