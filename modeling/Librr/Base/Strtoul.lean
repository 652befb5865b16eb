import Mathlib.Algebra.Group.Nat.Defs
import Mathlib.Data.List.TakeWhile
import Mathlib.Tactic.Common

set_option autoImplicit false

/-! The `strtoul` of C in base ten, in the C locale, for an unsigned type of any width. -/
namespace Strtoul

/-- `isspace`: the blank, and the codes from tab to carriage return. -/
def isSpace (c : UInt8) : Bool := c == 32 || (9 ≤ c && c ≤ 13)

def isDigit (c : UInt8) : Bool := 48 ≤ c && c ≤ 57

/-- The number a row of digits stands for. -/
def value (digits : List UInt8) : Nat :=
  digits.foldl (fun acc c => 10 * acc + (c.toNat - 48)) 0

/-- Whether a minus sign stands at the front, and the text behind the sign. -/
def sign : List UInt8 → Bool × List UInt8
  | [] => (false, [])
  | c :: rest =>
    if c = 45 then (true, rest) else if c = 43 then (false, rest) else (false, c :: rest)

/-- The sign, the number and the text behind it, or `none` where there is no number. -/
def scan (text : List UInt8) : Option (Bool × Nat × List UInt8) :=
  let signed := sign (text.dropWhile isSpace)
  let digits := signed.2.takeWhile isDigit
  if digits = [] then none else some (signed.1, value digits, signed.2.dropWhile isDigit)

/-- The returned number, the text `endptr` is set to, and whether `errno` is set to `ERANGE`. -/
structure Result where
  value : Nat
  rest : List UInt8
  erange : Bool
  deriving DecidableEq, Repr

/-- A number out of range gives the greatest one; a minus sign negates modulo the width. -/
def strtoul (bits : Nat) (text : List UInt8) : Result :=
  match scan text with
  | none => ⟨0, text, false⟩
  | some (negative, magnitude, rest) =>
    if 2 ^ bits ≤ magnitude then ⟨2 ^ bits - 1, rest, true⟩
    else ⟨if negative then (2 ^ bits - magnitude) % 2 ^ bits else magnitude, rest, false⟩

/-- The texts that are a number from end to end: blanks, an optional sign, and digits. -/
structure Numeral (text : List UInt8) (negative : Bool) (magnitude : Nat) : Prop where
  parts : ∃ spaces signs digits, text = spaces ++ (signs ++ digits) ∧
    (∀ c ∈ spaces, isSpace c) ∧
    (signs = [] ∧ negative = false ∨ signs = [43] ∧ negative = false ∨
      signs = [45] ∧ negative = true) ∧
    digits ≠ [] ∧ (∀ c ∈ digits, isDigit c) ∧ magnitude = value digits

theorem isDigit_iff (c : UInt8) : isDigit c = true ↔ 48 ≤ c.toNat ∧ c.toNat ≤ 57 := by
  simp [isDigit, UInt8.le_iff_toNat_le]

theorem isSpace_iff (c : UInt8) :
    isSpace c = true ↔ c.toNat = 32 ∨ 9 ≤ c.toNat ∧ c.toNat ≤ 13 := by
  simp [isSpace, UInt8.le_iff_toNat_le, ← UInt8.toNat_inj]

/-- The text behind the blanks begins with something else. -/
theorem dropWhile_blanks {spaces rest : List UInt8} (blank : ∀ c ∈ spaces, isSpace c)
    (other : ∀ c ∈ rest.head?, ¬ isSpace c) : (spaces ++ rest).dropWhile isSpace = rest := by
  rw [List.dropWhile_append_of_pos blank]
  cases rest with
  | nil => rfl
  | cons c rest => exact List.dropWhile_cons_of_neg (other c rfl)

theorem Numeral.scan_eq {text : List UInt8} {negative : Bool} {magnitude : Nat}
    (numeral : Numeral text negative magnitude) : scan text = some (negative, magnitude, []) := by
  obtain ⟨spaces, signs, digits, rfl, blank, signed, some, digit, rfl⟩ := numeral.parts
  obtain ⟨first, more, rfl⟩ := List.exists_cons_of_ne_nil some
  have leads := (isDigit_iff first).mp (digit first (List.mem_cons_self ..))
  have behind : sign (signs ++ first :: more) = (negative, first :: more) := by
    rcases signed with ⟨rfl, rfl⟩ | ⟨rfl, rfl⟩ | ⟨rfl, rfl⟩
    · have minus : first ≠ 45 := by
        rintro rfl
        exact absurd leads (by decide)
      have plus : first ≠ 43 := by
        rintro rfl
        exact absurd leads (by decide)
      simp [sign, minus, plus]
    · rfl
    · rfl
  have other : ∀ c ∈ (signs ++ first :: more).head?, ¬ isSpace c := by
    intro c head
    rw [isSpace_iff]
    rcases signed with ⟨rfl, _⟩ | ⟨rfl, _⟩ | ⟨rfl, _⟩
    · cases head
      omega
    · cases head
      decide
    · cases head
      decide
  have whole : (first :: more).takeWhile isDigit = first :: more :=
    List.takeWhile_eq_self_iff.mpr digit
  have nothing : (first :: more).dropWhile isDigit = [] :=
    List.dropWhile_eq_nil_iff.mpr digit
  simp only [scan, dropWhile_blanks blank other, behind, whole, nothing]
  simp

theorem sign_split (text : List UInt8) : ∃ signs, text = signs ++ (sign text).2 ∧
    (signs = [] ∧ (sign text).1 = false ∨ signs = [43] ∧ (sign text).1 = false ∨
      signs = [45] ∧ (sign text).1 = true) := by
  cases text with
  | nil => exact ⟨[], rfl, Or.inl ⟨rfl, rfl⟩⟩
  | cons c rest =>
      by_cases minus : c = 45
      · exact ⟨[45], by simp [sign, minus], by simp [sign, minus]⟩
      · by_cases plus : c = 43
        · exact ⟨[43], by simp [sign, plus], by simp [sign, plus]⟩
        · exact ⟨[], by simp [sign, minus, plus], by simp [sign, minus, plus]⟩

/-- What `scan` takes to its end is a numeral. -/
theorem numeral_of_scan {text : List UInt8} {negative : Bool} {magnitude : Nat}
    (scanned : scan text = some (negative, magnitude, [])) : Numeral text negative magnitude := by
  simp only [scan, Option.ite_none_left_eq_some, Option.some.injEq, Prod.mk.injEq] at scanned
  obtain ⟨some, signed, rfl, nothing⟩ := scanned
  have digit := List.dropWhile_eq_nil_iff.mp nothing
  have whole := List.takeWhile_eq_self_iff.mpr digit
  rw [whole] at some
  obtain ⟨signs, split, kind⟩ := sign_split (text.dropWhile isSpace)
  rw [signed] at kind
  refine ⟨text.takeWhile isSpace, signs, _, ?_, fun c inside => List.mem_takeWhile_imp inside, kind,
    some, digit, congrArg value whole⟩
  rw [← split, List.takeWhile_append_dropWhile]

end Strtoul
