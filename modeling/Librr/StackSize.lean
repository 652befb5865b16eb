import Librr.Base.Strtoul
import Librr.Scheduler

set_option autoImplicit false

namespace Librr

open Strtoul

/-- A string of C: its bytes before the terminator. -/
abbrev CString := { bytes : Bytes // 0 ∉ bytes }

/-- The variables `rr_parse_env` reads, `none` where one is not set. -/
structure Environment where
  rrMode : Option CString
  rrLog : Option CString
  rrDebug : Option CString
  rrReplayTime : Option CString
  rrStackSize : Option CString
  deriving DecidableEq, Repr

/-- What `rr_parse_env` sets of `g_rr_config`. -/
structure Settings where
  config : Config
  logPath : Bytes
  debug : Bool
  deriving DecidableEq, Repr

def ascii (text : String) : Bytes := text.toList.map fun c => UInt8.ofNat c.toNat

/-- `setting != NULL && strcmp(setting, text) == 0`. -/
def isSetTo (setting : Option CString) (text : String) : Bool :=
  setting.any fun string => string.val == ascii text

/-- The stack size from `RR_STACK_SIZE`. `end` is compared with the start of the string by what is
left of it. -/
def parseStackSize (stack : Option CString) : Nat :=
  match stack with
  | none => rrDefaultStackSize
  | some text =>
    if text.val = [] then rrDefaultStackSize
    else
      let parsed := strtoul 64 text.val
      if parsed.erange = false ∧ parsed.rest.length ≠ text.val.length ∧ parsed.rest = [] ∧
          0 < parsed.value then parsed.value
      else rrDefaultStackSize

def rrParseEnv (env : Environment) : Settings where
  config := {
    modeRecord := isSetTo env.rrMode "record"
    modeReplay := isSetTo env.rrMode "replay"
    replayTimeVirtual := !isSetTo env.rrReplayTime "real"
    runtimeReady := false
    stackSize := parseStackSize env.rrStackSize }
  logPath :=
    match env.rrLog with
    | none => ascii "rr.log"
    | some path => if path.val = [] then ascii "rr.log" else path.val
  debug := isSetTo env.rrDebug "1"

/-- The stack lies in the mapping of its uthread, behind the guard page at its start. -/
structure Uthread.StackFits (u : Uthread) (pagesz : Nat) : Prop where
  unwrapped : u.stackMapSize = pagesz + u.stackSize
  guarded : u.stackMap + pagesz ≤ u.stack
  inside : u.stack + u.stackSize ≤ u.stackMap + u.stackMapSize

/-- The numbers whose 64-bit value does not leave room for a page below 2^64. -/
def Wraps (pagesz : Nat) (negative : Bool) (magnitude : Nat) : Prop :=
  if negative then 0 < magnitude ∧ magnitude ≤ pagesz
  else 2 ^ 64 - pagesz ≤ magnitude ∧ magnitude < 2 ^ 64

instance (pagesz : Nat) (negative : Bool) (magnitude : Nat) :
    Decidable (Wraps pagesz negative magnitude) :=
  inferInstanceAs (Decidable (if negative then _ else _))

theorem newUthread_fits_iff (id : UInt64) (fn : Fn) (mem pagesz stackSize : Nat) :
    (Sched.newUthread id fn mem pagesz stackSize).StackFits pagesz ↔
      pagesz + stackSize < 2 ^ 64 := by
  constructor
  · intro fits
    have sum : (pagesz + stackSize) % 2 ^ 64 = pagesz + stackSize := fits.unwrapped
    omega
  · intro below
    have sum : (pagesz + stackSize) % 2 ^ 64 = pagesz + stackSize := Nat.mod_eq_of_lt below
    refine ⟨sum, Nat.le_refl _, ?_⟩
    simp only [Sched.newUthread, sum]
    omega

/-- What is installed for a number. -/
theorem parseStackSize_numeral {text : CString} {negative : Bool} {magnitude : Nat}
    (numeral : Numeral text.val negative magnitude) :
    parseStackSize (some text) =
      if magnitude = 0 ∨ 2 ^ 64 ≤ magnitude then rrDefaultStackSize
      else if negative then 2 ^ 64 - magnitude else magnitude := by
  have scanned := numeral.scan_eq
  have present : text.val ≠ [] := by
    intro empty
    rw [empty] at scanned
    cases scanned
  have length : ([] : Bytes).length ≠ text.val.length :=
    fun same => present (List.length_eq_zero_iff.mp same.symm)
  simp only [parseStackSize, if_neg present, strtoul, scanned]
  by_cases great : 2 ^ 64 ≤ magnitude
  · have kept : magnitude = 0 ∨ 2 ^ 64 ≤ magnitude := .inr great
    simp only [if_pos great, if_pos kept, Bool.true_eq_false, false_and, if_false]
  · by_cases zero : magnitude = 0
    · cases negative <;> simp [zero]
    · have below : (2 ^ 64 - magnitude) % 2 ^ 64 = 2 ^ 64 - magnitude := by omega
      cases negative with
      | false =>
          have positive : 0 < magnitude := by omega
          simp only [if_neg great, Bool.false_eq_true, if_false, if_neg (not_or.mpr ⟨zero, great⟩)]
          exact if_pos ⟨trivial, length, trivial, positive⟩
      | true =>
          have positive : 0 < 2 ^ 64 - magnitude := by omega
          simp only [if_neg great, if_true, below, if_neg (not_or.mpr ⟨zero, great⟩)]
          exact if_pos ⟨trivial, length, trivial, positive⟩

/-- Any other text leaves the default. -/
theorem parseStackSize_other {text : CString}
    (other : ∀ negative magnitude, ¬ Numeral text.val negative magnitude) :
    parseStackSize (some text) = rrDefaultStackSize := by
  cases scanned : scan text.val with
  | none => simp [parseStackSize, strtoul, scanned]
  | some found =>
      obtain ⟨negative, magnitude, rest⟩ := found
      have left : rest ≠ [] := by
        rintro rfl
        exact other negative magnitude (numeral_of_scan scanned)
      have kept : (strtoul 64 text.val).rest = rest := by
        rw [strtoul, scanned]
        simp only
        split <;> rfl
      simp [parseStackSize, kept, left]

/-- The sum overflows for the numbers that `Wraps` lists, and for nothing else. -/
theorem parseStackSize_below_iff {pagesz : Nat} (small : pagesz ≤ 65536) (stack : Option CString) :
    pagesz + parseStackSize stack < 2 ^ 64 ↔ ∀ text negative magnitude, stack = some text →
      Numeral text.val negative magnitude → ¬ Wraps pagesz negative magnitude := by
  have default : pagesz + rrDefaultStackSize < 2 ^ 64 := by
    have value : rrDefaultStackSize = 2097152 := rfl
    omega
  cases stack with
  | none =>
      apply iff_of_true default
      intro text negative magnitude same
      cases same
  | some text =>
      by_cases number : ∃ negative magnitude, Numeral text.val negative magnitude
      · obtain ⟨negative, magnitude, numeral⟩ := number
        have only : ∀ n m, Numeral text.val n m → n = negative ∧ m = magnitude := by
          intro n m again
          have same := again.scan_eq.symm.trans numeral.scan_eq
          cases same
          exact ⟨rfl, rfl⟩
        have here : pagesz + parseStackSize (some text) < 2 ^ 64 ↔
            ¬ Wraps pagesz negative magnitude := by
          rw [parseStackSize_numeral numeral, Wraps]
          split
          · have value : rrDefaultStackSize = 2097152 := rfl
            cases negative <;> simp <;> omega
          · cases negative <;> simp <;> omega
        rw [here]
        constructor
        · intro fits other n m same again
          cases same
          obtain ⟨rfl, rfl⟩ := only n m again
          exact fits
        · intro fits
          exact fits text negative magnitude rfl numeral
      · have other : ∀ negative magnitude, ¬ Numeral text.val negative magnitude :=
          fun negative magnitude numeral => number ⟨negative, magnitude, numeral⟩
        rw [parseStackSize_other other]
        simp only [default, true_iff]
        intro found negative magnitude same numeral
        cases same
        exact absurd numeral (other negative magnitude)

/-- Whatever `RR_STACK_SIZE` is, the stack of a new uthread fits its mapping exactly if the variable
is no number from 2^64 - pagesz up to 2^64 - 1 and no negative one down to -pagesz. -/
theorem stack_fits_iff (env : Environment) (exponent : Nat) (most : exponent ≤ 16) (id : UInt64)
    (fn : Fn) (mem : Nat) :
    (Sched.newUthread id fn mem (2 ^ exponent) (rrParseEnv env).config.stackSize).StackFits
        (2 ^ exponent) ↔
      ∀ text negative magnitude, env.rrStackSize = some text →
        Numeral text.val negative magnitude → ¬ Wraps (2 ^ exponent) negative magnitude := by
  have small : 2 ^ exponent ≤ 65536 := Nat.pow_le_pow_right (by decide) most
  rw [newUthread_fits_iff]
  exact parseStackSize_below_iff small env.rrStackSize

/-- `RR_STACK_SIZE` alone is set. -/
def stackSizeOnly (text : CString) : Environment := ⟨none, none, none, none, some text⟩

/-- `RR_STACK_SIZE=-1` asks for 2^64 - 1 bytes, and 4095 are mapped. -/
theorem minus_one_wraps :
    (rrParseEnv (stackSizeOnly ⟨ascii "-1", by decide⟩)).config.stackSize = 2 ^ 64 - 1 ∧
    (Sched.newUthread 2 0 65536 (2 ^ 12)
      (rrParseEnv (stackSizeOnly ⟨ascii "-1", by decide⟩)).config.stackSize).stackMapSize = 4095 ∧
    ¬ (Sched.newUthread 2 0 65536 (2 ^ 12)
      (rrParseEnv (stackSizeOnly ⟨ascii "-1", by decide⟩)).config.stackSize).StackFits
        (2 ^ 12) := by
  have size : (rrParseEnv (stackSizeOnly ⟨ascii "-1", by decide⟩)).config.stackSize =
      2 ^ 64 - 1 := by decide +kernel
  refine ⟨size, ?_, ?_⟩
  · rw [size]
    rfl
  · rw [size, newUthread_fits_iff]
    decide

/-- A stack of sixteen pages fits. -/
theorem sixteen_pages_fit :
    (Sched.newUthread 2 0 65536 (2 ^ 12)
      (rrParseEnv (stackSizeOnly ⟨ascii "65536", by decide⟩)).config.stackSize).StackFits
        (2 ^ 12) := by
  apply (stack_fits_iff _ 12 (by decide) 2 0 65536).mpr
  intro text negative magnitude same numeral
  cases same
  have scanned := numeral.scan_eq
  have value : scan (ascii "65536") = some (false, 65536, []) := by decide +kernel
  rw [value] at scanned
  cases scanned
  decide

end Librr
