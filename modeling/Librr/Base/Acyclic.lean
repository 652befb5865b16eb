import Mathlib.Data.Fintype.Card
import Mathlib.Data.Set.Finite.Basic
import Mathlib.Logic.Relation
import Mathlib.Order.WellFounded

set_option autoImplicit false

/-! Relations without cycles: adding an edge, and following a finite one to its end. -/
namespace Acyclic

open Relation

variable {α : Type} {r s : α → α → Prop} {a b : α}

/-- A path over one more edge either does without it or splits at its ends. -/
theorem transGen_insert (added : ∀ p q, s p q → r p q ∨ p = a ∧ q = b)
    (apart : ¬ ReflTransGen r b a) {x y : α} (path : TransGen s x y) :
    TransGen r x y ∨ ReflTransGen r x a ∧ ReflTransGen r b y := by
  induction path with
  | single edge =>
      rcases added _ _ edge with old | ⟨rfl, rfl⟩
      · exact .inl (.single old)
      · exact .inr ⟨.refl, .refl⟩
  | tail _ edge ih =>
      rcases added _ _ edge with old | ⟨rfl, rfl⟩
      · rcases ih with short | ⟨front, back⟩
        · exact .inl (short.tail old)
        · exact .inr ⟨front, back.tail old⟩
      · rcases ih with short | ⟨front, back⟩
        · exact .inr ⟨short.to_reflTransGen, .refl⟩
        · exact absurd back apart

/-- An edge closes a cycle only if its end already leads back to its start. -/
theorem insert (acyclic : ∀ x, ¬ TransGen r x x)
    (added : ∀ p q, s p q → r p q ∨ p = a ∧ q = b) (apart : ¬ ReflTransGen r b a) (x : α) :
    ¬ TransGen s x x := by
  intro cycle
  rcases transGen_insert added apart cycle with old | ⟨front, back⟩
  · exact acyclic x old
  · exact apart (back.trans front)

/-- In a finite set that no path leaves before its end, there is an end. -/
theorem exists_end (acyclic : ∀ x, ¬ TransGen r x x) {members : Set α} (finite : members.Finite)
    (nonempty : members.Nonempty) {final : α → Prop}
    (onwards : ∀ x ∈ members, final x ∨ ∃ y ∈ members, r x y) : ∃ x ∈ members, final x := by
  have : Finite members := finite
  let behind : members → members → Prop := fun x y => TransGen r y x
  have transitive : IsTrans members behind := ⟨fun _ _ _ first second => second.trans first⟩
  have irreflexive : Std.Irrefl behind := ⟨fun x cycle => acyclic x cycle⟩
  have founded : WellFounded behind := Finite.wellFounded_of_trans_of_irrefl behind
  obtain ⟨first, present⟩ := nonempty
  obtain ⟨last, _, minimal⟩ := founded.has_min Set.univ ⟨⟨first, present⟩, trivial⟩
  refine ⟨last, last.property, ?_⟩
  rcases onwards last last.property with done | ⟨next, member, edge⟩
  · exact done
  · exact absurd (TransGen.single edge) (minimal ⟨next, member⟩ trivial)

/-- Where edges stay as long as their end has one, a path stays whose end has one. -/
theorem transGen_stays (stays : ∀ x y, r x y → (∃ z, r y z) → s x y) {x y : α}
    (path : TransGen r x y) (onwards : ∃ z, r y z) : TransGen s x y := by
  induction path with
  | single edge => exact .single (stays _ _ edge onwards)
  | tail _ edge ih => exact (ih ⟨_, edge⟩).tail (stays _ _ edge onwards)

end Acyclic
