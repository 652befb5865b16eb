import Mathlib.Data.List.Basic
import Mathlib.Data.List.Nodup
import Mathlib.Logic.Function.Basic
import Mathlib.Tactic.Common

set_option autoImplicit false

/-- A store of records by address. An absent cell is unallocated. -/
abbrev Heap (α : Type) := Nat → Option α

namespace Heap

variable {α : Type}

def set (heap : Heap α) (address : Nat) (value : α) : Heap α :=
  fun other => if other = address then some value else heap other

/-- A write through a pointer. It reaches only an allocated cell. -/
def modify (heap : Heap α) (address : Nat) (change : α → α) : Heap α :=
  fun other => if other = address then (heap other).map change else heap other

@[simp] theorem set_same (heap : Heap α) (address : Nat) (value : α) :
    heap.set address value address = some value := by
  simp [set]

theorem set_other (heap : Heap α) {address other : Nat} (value : α) (apart : other ≠ address) :
    heap.set address value other = heap other := by
  simp [set, apart]

theorem modify_same (heap : Heap α) (address : Nat) (change : α → α) :
    heap.modify address change address = (heap address).map change := by
  simp [modify]

theorem modify_other (heap : Heap α) {address other : Nat} (change : α → α)
    (apart : other ≠ address) : heap.modify address change other = heap other := by
  simp [modify, apart]

theorem modify_apply (heap : Heap α) (address other : Nat) (change : α → α) :
    heap.modify address change other =
      if other = address then (heap other).map change else heap other := rfl

theorem modify_eq_map (heap : Heap α) (address other : Nat) (change : α → α) :
    heap.modify address change other =
      (heap other).map fun value => if other = address then change value else value := by
  rw [modify_apply]
  split
  · rfl
  · simp

theorem set_apply (heap : Heap α) (address other : Nat) (value : α) :
    heap.set address value other = if other = address then some value else heap other := rfl

theorem modify_modify (heap : Heap α) (address : Nat) (first second : α → α) :
    (heap.modify address first).modify address second =
      heap.modify address (fun value => second (first value)) := by
  funext other
  simp only [modify_apply]
  split
  · rw [Option.map_map]
    rfl
  · rfl

@[simp] theorem modify_eq_none (heap : Heap α) (address other : Nat) (change : α → α) :
    heap.modify address change other = none ↔ heap other = none := by
  rw [modify_apply]
  split <;> simp

end Heap

/-! First-in first-out queues threaded through the queued records themselves:
a head pointer, a tail pointer and one successor field per record. -/
namespace IntrusiveQueue

variable {P : Type}

structure Links (P : Type) where
  head : Option P
  tail : Option P
  next : P → Option P

/-- Following `next` from `start` visits exactly `items` and then the null pointer. -/
def Chain (next : P → Option P) : Option P → List P → Prop
  | start, [] => start = none
  | start, item :: rest => start = some item ∧ Chain next (next item) rest

/-- The queue holds exactly `items`, and no other record has a link. -/
structure Represents (links : Links P) (items : List P) : Prop where
  chain : Chain links.next links.head items
  last : links.tail = items.getLast?
  nodup : items.Nodup
  outside : ∀ p, p ∉ items → links.next p = none

theorem Chain.congr {next other : P → Option P} {start : Option P} {items : List P}
    (chain : Chain next start items) (same : ∀ item ∈ items, other item = next item) :
    Chain other start items := by
  induction items generalizing start with
  | nil => exact chain
  | cons item rest ih =>
      obtain ⟨rfl, tail⟩ := chain
      refine ⟨rfl, ?_⟩
      rw [same item (by simp)]
      exact ih tail (fun later member => same later (by simp [member]))

theorem Chain.unique {next : P → Option P} {start : Option P} {left right : List P}
    (first : Chain next start left) (second : Chain next start right) : left = right := by
  induction left generalizing start right with
  | nil =>
      cases right with
      | nil => rfl
      | cons item rest =>
          obtain ⟨found, _⟩ := second
          rw [show start = none from first] at found
          cases found
  | cons item rest ih =>
      obtain ⟨rfl, tail⟩ := first
      cases right with
      | nil => cases second
      | cons other others =>
          obtain ⟨same, tail'⟩ := second
          cases same
          rw [ih tail tail']

/-- Linking a fresh record behind the last one extends the chain by it. -/
theorem Chain.snoc [DecidableEq P] {next : P → Option P} {start : Option P}
    {items : List P} {last fresh : P} (chain : Chain next start (items ++ [last]))
    (absent : fresh ∉ items ++ [last]) (nodup : (items ++ [last]).Nodup)
    (other : P → Option P) (linked : other last = some fresh) (ended : other fresh = none)
    (same : ∀ item ∈ items, other item = next item) :
    Chain other start (items ++ [last, fresh]) := by
  induction items generalizing start with
  | nil =>
      obtain ⟨rfl, _⟩ := chain
      exact ⟨rfl, linked, ended⟩
  | cons item rest ih =>
      obtain ⟨rfl, tail⟩ := chain
      refine ⟨rfl, ?_⟩
      rw [same item (by simp)]
      have nodupTail : (rest ++ [last]).Nodup := by
        simp only [List.cons_append, List.nodup_cons] at nodup
        exact nodup.2
      exact ih tail (fun member => absent (List.mem_cons_of_mem item member)) nodupTail
        (fun later member => same later (by simp [member]))

theorem Represents.empty_iff {links : Links P} {items : List P}
    (shape : Represents links items) : links.head = none ↔ items = [] := by
  cases items with
  | nil => exact iff_of_true shape.chain rfl
  | cons item rest => simp [shape.chain.1]

theorem Represents.tail_mem {links : Links P} {items : List P} {last : P}
    (shape : Represents links items) (found : links.tail = some last) : last ∈ items := by
  rw [shape.last] at found
  exact List.mem_of_getLast? found

theorem Represents.tail_none {links : Links P} {items : List P}
    (shape : Represents links items) : links.tail = none ↔ items = [] := by
  rw [shape.last, List.getLast?_eq_none_iff]

/-- Unlinking the head: the successor becomes the head, and an empty rest
clears the tail as well. -/
def Links.popFront [DecidableEq P] (links : Links P) (front : P) : Links P where
  head := links.next front
  tail := if links.next front = none then none else links.tail
  next := Function.update links.next front none

/-- Linking a record behind the tail, or as the only record of an empty queue. -/
def Links.enqueue [DecidableEq P] (links : Links P) (fresh : P) : Links P :=
  match links.tail with
  | none =>
    { head := some fresh, tail := some fresh, next := Function.update links.next fresh none }
  | some last =>
    { head := links.head, tail := some fresh,
      next := Function.update (Function.update links.next fresh none) last (some fresh) }

theorem Represents.popFront [DecidableEq P] {links : Links P} {front : P} {rest : List P}
    (shape : Represents links (front :: rest)) : Represents (links.popFront front) rest := by
  obtain ⟨absent, nodup⟩ := List.nodup_cons.mp shape.nodup
  have tail : Chain links.next (links.next front) rest := shape.chain.2
  refine ⟨?_, ?_, nodup, ?_⟩
  · apply tail.congr
    intro item member
    have apart : item ≠ front := fun same => absent (same ▸ member)
    simp [Links.popFront, Function.update_of_ne apart]
  · cases rest with
    | nil => simp [Links.popFront, show links.next front = none from tail]
    | cons item others =>
        have present : links.next front = some item := tail.1
        simp [Links.popFront, present, shape.last]
  · intro p missing
    by_cases own : p = front
    · simp [Links.popFront, own]
    · have unlinked := shape.outside p (by simp [own, missing])
      simp [Links.popFront, Function.update_of_ne own, unlinked]

theorem Represents.enqueue [DecidableEq P] {links : Links P} {items : List P} {fresh : P}
    (shape : Represents links items) (absent : fresh ∉ items) :
    Represents (links.enqueue fresh) (items ++ [fresh]) := by
  have nodup : (items ++ [fresh]).Nodup := by
    rw [List.nodup_append]
    refine ⟨shape.nodup, by simp, ?_⟩
    rintro item member other single rfl
    exact absent (List.mem_singleton.mp single ▸ member)
  rcases List.eq_nil_or_concat' items with rfl | ⟨front, last, rfl⟩
  · have noTail : links.tail = none := by simpa using shape.last
    refine ⟨?_, ?_, nodup, ?_⟩
    · simp [Links.enqueue, noTail, Chain]
    · simp [Links.enqueue, noTail]
    · intro p missing
      have apart : p ≠ fresh := fun same => missing (by simp [same])
      have unlinked := shape.outside p (by simp)
      simp [Links.enqueue, noTail, Function.update_of_ne apart, unlinked]
  · have hasTail : links.tail = some last := by simpa using shape.last
    have apart : fresh ≠ last := fun same => absent (by simp [same])
    refine ⟨?_, ?_, nodup, ?_⟩
    · simp only [Links.enqueue, hasTail, List.append_assoc, List.cons_append, List.nil_append]
      refine Chain.snoc shape.chain absent shape.nodup _ (by simp) ?_ ?_
      · simp [Function.update_of_ne apart]
      · intro item member
        have notLast : item ≠ last := by
          rintro rfl
          have disjoint := (List.nodup_append.mp shape.nodup).2.2
          exact disjoint item member item (by simp) rfl
        have notFresh : item ≠ fresh := by
          rintro rfl
          exact absent (by simp [member])
        simp [Function.update_of_ne notLast, Function.update_of_ne notFresh]
    · simp [Links.enqueue, hasTail]
    · intro p missing
      have notFresh : p ≠ fresh := fun same => missing (by simp [same])
      have notLast : p ≠ last := fun same => missing (by simp [same])
      have unlinked := shape.outside p fun member => missing (List.mem_append_left _ member)
      simp [Links.enqueue, hasTail, Function.update_of_ne notLast,
        Function.update_of_ne notFresh, unlinked]

end IntrusiveQueue
