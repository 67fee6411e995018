import Mathlib.Data.List.Basic

/-!
# Interning

Each value that is met gets the next index; the values by index and the indices by value are kept apart.
-/

namespace K23VM

variable {α : Type} [DecidableEq α]

/-- The two sides are inverse to each other. -/
def InternTable (indices : List (α × ℕ)) (values : List α) : Prop :=
  ∀ a i, indices.lookup a = some i ↔ values[i]? = some a

theorem internTable_nil : InternTable ([] : List (α × ℕ)) [] := by
  intro a i
  simp

variable {indices : List (α × ℕ)} {values : List α} {a : α} {i j : ℕ}

theorem InternTable.injective (h : InternTable indices values) (hi : values[i]? = some a)
    (hj : values[j]? = some a) : i = j :=
  Option.some_inj.1 (((h a i).2 hi).symm.trans ((h a j).2 hj))

/-- A value that is new gets the next index. -/
theorem InternTable.push (h : InternTable indices values) (ha : indices.lookup a = none) :
    InternTable ((a, values.length) :: indices) (values ++ [a]) := by
  have hnew : ∀ i, values[i]? ≠ some a := fun i hi => by
    rw [(h a i).2 hi] at ha
    cases ha
  intro b i
  by_cases hb : b = a
  · subst hb
    rw [List.lookup_cons_self, Option.some_inj, List.getElem?_append]
    split
    · rename_i hlt
      constructor
      · rintro rfl
        omega
      · exact fun hi => absurd hi (hnew i)
    · rename_i hge
      constructor
      · rintro rfl
        simp
      · intro hi
        have := List.getElem?_eq_some_iff.1 hi
        obtain ⟨hlt, -⟩ := this
        simp only [List.length_singleton] at hlt
        omega
  · rw [List.lookup_cons, beq_false_of_ne hb, h b i, List.getElem?_append]
    split
    · exact Iff.rfl
    · rename_i hge
      have hnone : values[i]? = none := List.getElem?_eq_none (by omega)
      rw [hnone]
      constructor
      · rintro ⟨⟩
      · intro hi
        obtain ⟨hlt, hget⟩ := List.getElem?_eq_some_iff.1 hi
        exact absurd (List.mem_singleton.1 (hget ▸ List.getElem_mem hlt)) hb

end K23VM
