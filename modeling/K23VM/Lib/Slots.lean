import Mathlib.Logic.ExistsUnique
import Mathlib.Tactic.ByContra

/-!
# Slots that are filled in once

Things that are made one by one, each for a slot that was empty until then.  A slot keeps what it holds,
and each thing that was made is in one slot.
-/

namespace K23VM.Slots

variable {σ η : Type} {slot slot' slot'' : σ → Option η} {made made' : η → Prop} {p : σ} {x : η}

/-- What is in a slot stays there. -/
def Keeps (slot slot' : σ → Option η) : Prop := ∀ p x, slot p = some x → slot' p = some x

theorem Keeps.refl (slot : σ → Option η) : Keeps slot slot := fun _ _ h => h

theorem Keeps.trans (h : Keeps slot slot') (h' : Keeps slot' slot'') : Keeps slot slot'' :=
  fun p x hp => h' p x (h p x hp)

/-- An empty slot is filled in. -/
structure Fills (slot : σ → Option η) (p : σ) (x : η) (slot' : σ → Option η) : Prop where
  empty : slot p = none
  new : slot' p = some x
  rest : ∀ q, q ≠ p → slot' q = slot q

theorem Fills.keeps (h : Fills slot p x slot') : Keeps slot slot' := by
  intro q y hq
  have hne : q ≠ p := by
    rintro rfl
    rw [h.empty] at hq
    cases hq
  rw [h.rest q hne, hq]

/-- The things that were made are those in the slots, each in one. -/
structure OneEach (slot : σ → Option η) (made : η → Prop) : Prop where
  made_iff : ∀ x, made x ↔ ∃ p, slot p = some x
  inj : ∀ p q x, slot p = some x → slot q = some x → p = q

theorem OneEach.existsUnique (h : OneEach slot made) (hx : made x) : ∃! p, slot p = some x := by
  obtain ⟨p, hp⟩ := (h.made_iff x).1 hx
  exact ⟨p, hp, fun q hq => h.inj q p x hq hp⟩

/-- A new thing is put into an empty slot. -/
theorem OneEach.fill (h : OneEach slot made) (hfill : Fills slot p x slot') (hnew : ¬ made x)
    (hmade : ∀ y, made' y ↔ made y ∨ y = x) : OneEach slot' made' := by
  have hold : ∀ q y, slot' q = some y → q ≠ p → slot q = some y := fun q y hq hne =>
    (hfill.rest q hne).symm.trans hq
  have hself : ∀ y, slot' p = some y → y = x := fun y hy =>
    Option.some_inj.1 (hy.symm.trans hfill.new)
  refine ⟨fun y => ?_, fun q r y hq hr => ?_⟩
  · rw [hmade, h.made_iff]
    constructor
    · rintro (⟨q, hq⟩ | rfl)
      · exact ⟨q, hfill.keeps q y hq⟩
      · exact ⟨p, hfill.new⟩
    · rintro ⟨q, hq⟩
      by_cases hqp : q = p
      · exact .inr (hself y (hqp ▸ hq))
      · exact .inl ⟨q, hold q y hq hqp⟩
  · -- What is in another slot was made before.
    have hother : ∀ q, slot' q = some x → q = p := by
      intro q hq
      by_contra hne
      exact hnew ((h.made_iff x).2 ⟨q, hold q x hq hne⟩)
    by_cases hqp : q = p
    · subst hqp
      obtain rfl := hself y hq
      exact (hother r hr).symm
    · by_cases hrp : r = p
      · subst hrp
        obtain rfl := hself y hr
        exact hother q hq
      · exact h.inj q r y (hold q y hq hqp) (hold r y hr hrp)

end K23VM.Slots
