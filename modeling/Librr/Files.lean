import Librr.Ring

set_option autoImplicit false

namespace Librr

/-- What the kernel does with counts: no call transfers more than `maxCount` bytes, and
`read` and `write` refuse some counts, such as those no object can have. -/
structure Kernel where
  maxCount : Nat
  positive : 0 < maxCount
  small : maxCount < 2 ^ 31
  refuses : Nat → Option Int32

/-- An open seekable file. -/
structure File where
  content : Bytes
  position : Nat
  deriving DecidableEq, Repr

namespace File

def readAt (file : File) (offset count : Nat) : Bytes := (file.content.drop offset).take count

/-- Bytes written behind the end leave a gap of zeros. -/
def writeAt (file : File) (offset : Nat) (data : Bytes) : File :=
  if data = [] then file
  else { file with
    content := file.content.takeD offset 0 ++ (data ++ file.content.drop (offset + data.length)) }

def advance (file : File) (count : Nat) : File := { file with position := file.position + count }

end File

namespace Kernel

/-- `IORING_OP_READ` and `IORING_OP_WRITE`: an offset of -1 stands for the file position,
which then moves. Any other offset leaves it alone. -/
def serve (kernel : Kernel) (file : File) : IoOp → Option (File × Int32 × Bytes)
  | .read _ nbytes offset =>
    let count := min nbytes.toNat kernel.maxCount
    if offset = -1 then
      let data := file.readAt file.position count
      some (file.advance data.length, Int32.ofInt data.length, data)
    else
      let data := file.readAt offset.toNat count
      some (file, Int32.ofInt data.length, data)
  | .write _ buf nbytes offset =>
    let data := buf.take (min nbytes.toNat kernel.maxCount)
    if offset = -1 then
      some ((file.writeAt file.position data).advance data.length, Int32.ofInt data.length, [])
    else some (file.writeAt offset.toNat data, Int32.ofInt data.length, [])
  | _ => none

/-- `read(2)`, at the file position. -/
def read (kernel : Kernel) (file : File) (count : Nat) : File × Real :=
  match kernel.refuses count with
  | some errno => (file, ⟨-1, errno, [], []⟩)
  | none =>
    let data := file.readAt file.position (min count kernel.maxCount)
    (file.advance data.length, ⟨data.length, 0, data, []⟩)

/-- `write(2)`, at the file position. -/
def write (kernel : Kernel) (file : File) (buf : Bytes) : File × Real :=
  match kernel.refuses buf.length with
  | some errno => (file, ⟨-1, errno, [], []⟩)
  | none =>
    let data := buf.take kernel.maxCount
    ((file.writeAt file.position data).advance data.length, ⟨data.length, 0, [], []⟩)

end Kernel

/-- A call on the file: a read of `count` bytes into an object, or a write. -/
inductive FileCall where
  | read (object : Bytes) (count : Nat)
  | write (buf : Bytes)
  deriving DecidableEq, Repr

namespace FileCall

def call (fd : Int32) : FileCall → Call
  | .read object count => .read fd (some object) count
  | .write buf => .write fd buf

/-- The plain function of libc on the file. -/
def libc (kernel : Kernel) (file : File) : FileCall → File × Real
  | .read _ count => kernel.read file count
  | .write buf => kernel.write file buf

/-- The call in passthrough mode. -/
def passed (kernel : Kernel) (file : File) (fc : FileCall) : File × CallResult :=
  ((fc.libc kernel file).1, (fc.call 0).wrapper.plain (fc.libc kernel file).2)

/-- The call in record mode, as the wrapper and the kernel answer it. -/
def recorded (kernel : Kernel) (file : File) : FileCall → File × CallResult
  | .read object count =>
    if count = 0 then
      ((kernel.read file 0).1, realResult (kernel.read file 0).2 (some object) none)
    else
      let data := file.readAt 0 (min (count % 2 ^ 32) kernel.maxCount)
      (file, ⟨data.length, none, some (overwrite object data), none⟩)
  | .write buf =>
    if buf.length = 0 then
      ((kernel.write file buf).1, realResult (kernel.write file buf).2 none none)
    else
      let data := buf.take (min (buf.length % 2 ^ 32) kernel.maxCount)
      (file.writeAt 0 data, ⟨data.length, none, none, none⟩)

/-- A call that recording does not change: one of nothing, or a read behind the end of
the file which also the truncated count makes a read of nothing. -/
def Harmless (kernel : Kernel) (file : File) : FileCall → Prop
  | .read _ count => count = 0 ∨ (kernel.refuses count = none ∧
      file.content.length ≤ file.position ∧ (file.content = [] ∨ 2 ^ 32 ∣ count))
  | .write buf => buf = []

end FileCall

/-- A whole sequence of calls, with the results in order. -/
def FileCall.all (one : File → FileCall → File × CallResult) (file : File) :
    List FileCall → File × List CallResult
  | [] => (file, [])
  | fc :: rest =>
    let later := FileCall.all one (one file fc).1 rest
    (later.1, (one file fc).2 :: later.2)

section Calls

variable (kernel : Kernel) (file : File)

@[simp] theorem File.writeAt_position (offset : Nat) (data : Bytes) :
    (file.writeAt offset data).position = file.position := by
  unfold File.writeAt
  split <;> rfl

@[simp] theorem File.length_readAt (offset count : Nat) :
    (file.readAt offset count).length = min count (file.content.length - offset) := by
  simp [File.readAt]

theorem overwrite_nothing (object : Bytes) : overwrite object [] = object := by simp [overwrite]

theorem Kernel.read_position (count : Nat) :
    file.position ≤ (kernel.read file count).1.position := by
  unfold Kernel.read
  split
  · exact Nat.le_refl _
  · exact Nat.le_add_right _ _

theorem Kernel.write_position (buf : Bytes) :
    file.position ≤ (kernel.write file buf).1.position := by
  unfold Kernel.write
  split
  · exact Nat.le_refl _
  · simp [File.advance]

/-- A read of nothing leaves the file alone. -/
theorem Kernel.read_zero : (kernel.read file 0).1 = file ∧ (kernel.read file 0).2.data = [] := by
  unfold Kernel.read
  split
  · exact ⟨rfl, rfl⟩
  · simp [File.readAt, File.advance]

theorem Kernel.write_nil : (kernel.write file []).1 = file := by
  unfold Kernel.write
  split
  · rfl
  · simp [File.writeAt, File.advance]

namespace FileCall

/-- Plain calls never move back. -/
theorem passed_position (fc : FileCall) : file.position ≤ (fc.passed kernel file).1.position := by
  cases fc with
  | read object count => exact kernel.read_position file count
  | write buf => exact kernel.write_position file buf

/-- The record path does not move at all. -/
theorem recorded_position (fc : FileCall) :
    (fc.recorded kernel file).1.position = file.position := by
  cases fc with
  | read object count =>
      by_cases zero : count = 0
      · simp [recorded, zero, (kernel.read_zero file).1]
      · simp [recorded, zero]
  | write buf =>
      by_cases zero : buf = []
      · simp [recorded, zero, kernel.write_nil file]
      · simp [recorded, zero]

/-- The plain read of an accepted count. -/
theorem passed_read {count : Nat} (accepted : kernel.refuses count = none) (object : Bytes) :
    (FileCall.read object count).passed kernel file =
      (file.advance (file.readAt file.position (min count kernel.maxCount)).length,
        ⟨(file.readAt file.position (min count kernel.maxCount)).length, none,
          some (overwrite object (file.readAt file.position (min count kernel.maxCount))),
          none⟩) := by
  have value : ((file.readAt file.position (min count kernel.maxCount)).length : Int) ≠ -1 := by
    omega
  simp only [passed, libc, Kernel.read, accepted, call, Call.wrapper, Wrapper.read, bufferWrapper,
    realResult, value, ↓reduceIte, realOut, Int.natCast_nonneg, Option.map_some]

/-- Bytes a call asks the kernel to transfer. -/
def count : FileCall → Nat
  | .read _ count => count
  | .write buf => buf.length

theorem refused_ret (fc : FileCall) {errno : Int32}
    (refused : kernel.refuses fc.count = some errno) :
    (fc.passed kernel file).2.ret = -1 := by
  cases fc with
  | read object count =>
      have failed : kernel.read file count = (file, ⟨-1, errno, [], []⟩) := by
        rw [Kernel.read, show kernel.refuses count = some errno from refused]
      simp only [passed, libc, failed]
      rfl
  | write buf =>
      have failed : kernel.write file buf = (file, ⟨-1, errno, [], []⟩) := by
        rw [Kernel.write, show kernel.refuses buf.length = some errno from refused]
      simp only [passed, libc, failed]
      rfl

theorem Harmless.same {kernel : Kernel} {file : File} {fc : FileCall}
    (harmless : fc.Harmless kernel file) :
    fc.recorded kernel file = fc.passed kernel file ∧ (fc.recorded kernel file).1 = file := by
  cases fc with
  | read object count =>
      by_cases zero : count = 0
      · subst zero
        obtain ⟨unmoved, nothing⟩ := kernel.read_zero file
        refine ⟨?_, unmoved⟩
        simp [recorded, passed, libc, call, Call.wrapper, Wrapper.read, bufferWrapper, realOut,
          nothing, overwrite_nothing]
      · obtain ⟨accepted, behind, short⟩ := harmless.resolve_left zero
        have plain : file.readAt file.position (min count kernel.maxCount) = [] := by
          rw [← List.length_eq_zero_iff, File.length_readAt]
          omega
        have cut : file.readAt 0 (min (count % 2 ^ 32) kernel.maxCount) = [] := by
          rw [← List.length_eq_zero_iff, File.length_readAt]
          rcases short with empty | whole
          · simp [empty]
          · omega
        have result : (FileCall.read object count).recorded kernel file =
            (file, ⟨([] : Bytes).length, none, some (overwrite object []), none⟩) := by
          rw [← cut]
          exact if_neg zero
        rw [passed_read kernel file accepted, plain, result]
        exact ⟨rfl, rfl⟩
  | write buf =>
      obtain rfl : buf = [] := harmless
      refine ⟨?_, kernel.write_nil file⟩
      simp [recorded, passed, libc, call, Call.wrapper, Wrapper.write, resultWrapper]

/-- Any other call either moves the file position or gives another result. -/
theorem differs_of_not_harmless {fc : FileCall} (harmful : ¬ fc.Harmless kernel file) :
    file.position < (fc.passed kernel file).1.position ∨
      (fc.recorded kernel file).2 ≠ (fc.passed kernel file).2 := by
  have room := kernel.positive
  cases fc with
  | read object count =>
      obtain ⟨some, rest⟩ := not_or.mp harmful
      cases refused : kernel.refuses count with
      | some errno =>
          right
          intro same
          have fine : 0 ≤ ((FileCall.read object count).recorded kernel file).2.ret := by
            simp only [recorded, some, ↓reduceIte, Int.natCast_nonneg]
          rw [same, refused_ret kernel file (.read object count) refused] at fine
          omega
      | none =>
          rw [passed_read kernel file refused]
          by_cases inside : file.position < file.content.length
          · left
            show file.position < file.position + _
            rw [File.length_readAt]
            omega
          · right
            intro same
            have value := congrArg CallResult.ret same
            simp only [recorded, some, ↓reduceIte, File.length_readAt] at value
            have shape : ¬ (file.content = [] ∨ 2 ^ 32 ∣ count) := fun short =>
              rest ⟨refused, Nat.not_lt.mp inside, short⟩
            obtain ⟨full, odd⟩ := not_or.mp shape
            have length : 0 < file.content.length := List.length_pos_iff.mpr full
            have cut : count % 2 ^ 32 ≠ 0 := fun whole => odd (Nat.dvd_of_mod_eq_zero whole)
            omega
  | write buf =>
      have length : 0 < buf.length := List.length_pos_iff.mpr harmful
      cases refused : kernel.refuses buf.length with
      | some errno =>
          right
          intro same
          have fine : 0 ≤ ((FileCall.write buf).recorded kernel file).2.ret := by
            simp only [recorded, Nat.pos_iff_ne_zero.mp length, ↓reduceIte, Int.natCast_nonneg]
          rw [same, refused_ret kernel file (.write buf) refused] at fine
          omega
      | none =>
          left
          simp only [passed, libc, Kernel.write, refused, File.advance, File.writeAt_position,
            List.length_take]
          omega

end FileCall

/-- Over a whole sequence, too, plain calls never move back. -/
theorem all_passed_position (calls : List FileCall) :
    file.position ≤ (FileCall.all (fun f fc => fc.passed kernel f) file calls).1.position := by
  induction calls generalizing file with
  | nil => exact Nat.le_refl _
  | cons fc rest ih => exact Nat.le_trans (fc.passed_position kernel file) (ih _)

theorem all_recorded_position (calls : List FileCall) :
    (FileCall.all (fun f fc => fc.recorded kernel f) file calls).1.position = file.position := by
  induction calls generalizing file with
  | nil => rfl
  | cons fc rest ih => exact (ih _).trans (fc.recorded_position kernel file)

/-- Recording keeps the semantics of the file exactly if every call of the sequence is
harmless where it starts. -/
theorem all_same_iff (calls : List FileCall) :
    FileCall.all (fun f fc => fc.recorded kernel f) file calls =
        FileCall.all (fun f fc => fc.passed kernel f) file calls ↔
      ∀ fc ∈ calls, fc.Harmless kernel file := by
  induction calls with
  | nil => simp [FileCall.all]
  | cons fc rest ih =>
      by_cases harmless : fc.Harmless kernel file
      · -- Both leave the file as it is, so the rest starts where this call did.
        obtain ⟨same, unmoved⟩ := harmless.same
        simp only [FileCall.all, ← same, unmoved, List.cons.injEq, true_and,
          List.forall_mem_cons, harmless, ← ih, Prod.ext_iff]
      · refine iff_of_false ?_ fun all => harmless (all fc (by simp))
        intro same
        obtain ⟨files, results⟩ := Prod.ext_iff.mp same
        rcases FileCall.differs_of_not_harmless kernel file harmless with moved | other
        · have still := all_recorded_position kernel file (fc :: rest)
          have further := all_passed_position kernel (fc.passed kernel file).1 rest
          have positions := congrArg File.position files
          rw [still] at positions
          have end' : file.position < file.position := by
            calc file.position
              _ < (fc.passed kernel file).1.position := moved
              _ ≤ _ := further
              _ = file.position := positions.symm
          exact Nat.lt_irrefl _ end'
        · exact other (List.cons.inj results).1

end Calls

end Librr
