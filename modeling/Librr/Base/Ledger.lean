import Mathlib.Algebra.BigOperators.Group.List.Basic
import Mathlib.Algebra.Order.Group.Multiset
import Mathlib.Data.Multiset.Filter
import Mathlib.Logic.Function.Basic

set_option autoImplicit false

/-! Accounts of what a program has taken and must give back. -/
namespace Ledger

variable {ρ ι : Type}

/-- Something more is held. -/
def take (r : ρ) (account : Option (List ρ)) : Option (List ρ) := account.map (r :: ·)

/-- Something is given back. The account is void if it was not held. -/
def give [DecidableEq ρ] (r : ρ) (account : Option (List ρ)) : Option (List ρ) :=
  account.bind fun held => if r ∈ held then some (held.erase r) else none

/-- The account is good for `owed`: nothing was given back that was not held. -/
def Holds (account : Option (List ρ)) (owed : Multiset ρ) : Prop :=
  ∃ held : List ρ, account = some held ∧ (held : Multiset ρ) = owed

theorem Holds.eq_nil {account : Option (List ρ)} (holds : Holds account 0) :
    account = some [] := by
  obtain ⟨held, rfl, none⟩ := holds
  rw [Multiset.coe_eq_zero] at none
  rw [none]

theorem Holds.take {account : Option (List ρ)} {owed : Multiset ρ} (holds : Holds account owed)
    (r : ρ) : Holds (take r account) (r ::ₘ owed) := by
  obtain ⟨held, rfl, rfl⟩ := holds
  exact ⟨r :: held, rfl, rfl⟩

theorem give_take [DecidableEq ρ] (r : ρ) (account : Option (List ρ)) :
    give r (take r account) = account := by
  cases account <;> simp [give, Ledger.take]

theorem Holds.give [DecidableEq ρ] {account : Option (List ρ)} {r : ρ} {owed : Multiset ρ}
    (holds : Holds account (r ::ₘ owed)) : Holds (give r account) owed := by
  obtain ⟨held, rfl, all⟩ := holds
  have member : r ∈ held := by
    rw [← Multiset.mem_coe, all]
    exact Multiset.mem_cons_self r owed
  refine ⟨held.erase r, by simp [Ledger.give, member], ?_⟩
  rw [← Multiset.coe_erase, all, Multiset.erase_cons_head]

/-- What one variable may hold. -/
def slot (held : Option ρ) : Multiset ρ := (held.toList : Multiset ρ)

@[simp] theorem slot_none : slot (none : Option ρ) = 0 := rfl

@[simp] theorem slot_some (r : ρ) : slot (some r) = {r} := rfl

/-- What the variable holds, if anything, is given back. -/
def clear [DecidableEq ρ] (held : Option ρ) (account : Option (List ρ)) : Option (List ρ) :=
  held.elim account fun r => give r account

theorem Holds.clear [DecidableEq ρ] {account : Option (List ρ)} {held : Option ρ}
    {owed : Multiset ρ} (holds : Holds account (slot held + owed)) :
    Holds (clear held account) owed := by
  cases held with
  | none => rwa [slot_none, zero_add] at holds
  | some r =>
      rw [slot_some, Multiset.singleton_add] at holds
      exact holds.give

/-- What the variables of `items` hold. -/
def slots (items : List ι) (held : ι → Option ρ) : Multiset ρ :=
  (items.map fun item => slot (held item)).sum

@[simp] theorem slots_nil (held : ι → Option ρ) : slots [] held = 0 := rfl

@[simp] theorem slots_cons (item : ι) (items : List ι) (held : ι → Option ρ) :
    slots (item :: items) held = slot (held item) + slots items held := rfl

theorem slots_append (items more : List ι) (held : ι → Option ρ) :
    slots (items ++ more) held = slots items held + slots more held := by
  simp [slots]

theorem slots_congr {items : List ι} {held held' : ι → Option ρ}
    (same : ∀ item ∈ items, held' item = held item) : slots items held' = slots items held := by
  unfold slots
  rw [List.map_congr_left fun item member => congrArg slot (same item member)]

/-- One variable of many changes. -/
theorem slots_update [DecidableEq ι] {items : List ι} (distinct : items.Nodup) {item : ι}
    (listed : item ∈ items) (held : ι → Option ρ) (value : Option ρ) :
    slots items (Function.update held item value) + slot (held item) =
      slot value + slots items held := by
  induction items with
  | nil => cases listed
  | cons first rest ih =>
      obtain ⟨fresh, distinct⟩ := List.nodup_cons.mp distinct
      rw [slots_cons, slots_cons]
      rcases List.mem_cons.mp listed with rfl | later
      · have others : slots rest (Function.update held item value) = slots rest held := by
          apply slots_congr
          intro other member
          apply Function.update_of_ne
          rintro rfl
          exact fresh member
        rw [Function.update_self, others, add_assoc, add_comm (slots rest held)]
      · have apart : first ≠ item := fun same => fresh (same ▸ later)
        rw [Function.update_of_ne apart, add_assoc, ih distinct later, add_left_comm]

end Ledger
