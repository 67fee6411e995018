import Mathlib.Data.List.Nodup
import Mathlib.Logic.Function.Basic

/-!
# Write-once maps

A map from keys to values in which a key is given a value at most once.  Adding a list of values goes up to
the first key that has one already.
-/

namespace K23VM.WriteOnce

variable {κ ν : Type}

theorem mem_of_lookup [BEq κ] [LawfulBEq κ] {items : List (κ × ν)} {k : κ} {v : ν}
    (h : items.lookup k = some v) : (k, v) ∈ items := by
  obtain ⟨l₁, l₂, rfl, -⟩ := List.lookup_eq_some_iff.1 h
  simp

/-- Where the keys are distinct, a value is looked up exactly where it is listed. -/
theorem lookup_eq_some_iff_mem [BEq κ] [LawfulBEq κ] {items : List (κ × ν)}
    (hnodup : (items.map Prod.fst).Nodup) {k : κ} {v : ν} : items.lookup k = some v ↔ (k, v) ∈ items := by
  refine ⟨mem_of_lookup, fun h => ?_⟩
  obtain ⟨l₁, l₂, rfl⟩ := List.append_of_mem h
  rw [List.map_append, List.nodup_append] at hnodup
  refine List.lookup_eq_some_iff.2 ⟨l₁, l₂, rfl, fun e he => ?_⟩
  rw [bne_iff_ne]
  exact fun heq => hnodup.2.2 e.1 (List.mem_map_of_mem he) k (by simp) heq.symm

variable [DecidableEq κ]

/-- Add values one after the other; the key is that of the first value that is refused. -/
def insertAll (defs : κ → Option ν) : List (κ × ν) → (κ → Option ν) × Option κ
  | [] => (defs, none)
  | (k, v) :: items =>
    if (defs k).isSome then (defs, some k)
    else insertAll (Function.update defs k (some v)) items

variable {defs : κ → Option ν} {items : List (κ × ν)} {k : κ} {v : ν}

theorem insertAll_refused (h : (defs k).isSome) :
    insertAll defs ((k, v) :: items) = (defs, some k) := if_pos h

theorem insertAll_fresh (h : defs k = none) :
    insertAll defs ((k, v) :: items) = insertAll (Function.update defs k (some v)) items := by
  rw [insertAll, if_neg (by simp [h])]

/-- What has a value keeps it. -/
theorem insertAll_keeps : ∀ {items : List (κ × ν)} {defs : κ → Option ν}, defs k = some v →
    (insertAll defs items).1 k = some v
  | [], _, h => h
  | (k', v') :: items, defs, h => by
    rcases hk : defs k' with _ | w
    · rw [insertAll_fresh hk]
      refine insertAll_keeps ?_
      rw [Function.update_of_ne, h]
      rintro rfl
      rw [hk] at h
      cases h
    · rw [insertAll_refused (by simp [hk])]
      exact h

/-- What has a value afterwards had it before, or it is the value to add. -/
theorem insertAll_only [BEq κ] [LawfulBEq κ] : ∀ {items : List (κ × ν)} {defs : κ → Option ν},
    (insertAll defs items).1 k = some v → defs k = some v ∨ items.lookup k = some v
  | [], _, h => .inl h
  | (k', v') :: items, defs, h => by
    rcases hk : defs k' with _ | w
    · rw [insertAll_fresh hk] at h
      by_cases hkk : k = k'
      · subst hkk
        have hkeep : (insertAll (Function.update defs k (some v')) items).1 k = some v' :=
          insertAll_keeps (Function.update_self ..)
        rw [List.lookup_cons_self]
        exact .inr (hkeep.symm.trans h)
      · rw [List.lookup_cons, beq_false_of_ne hkk]
        rcases insertAll_only h with h | h
        · rw [Function.update_of_ne hkk] at h
          exact .inl h
        · exact .inr h
    · rw [insertAll_refused (by simp [hk])] at h
      exact .inl h

/-- Everything is added where the keys are distinct and have no value. -/
theorem insertAll_accepted_iff : ∀ {items : List (κ × ν)} {defs : κ → Option ν},
    (insertAll defs items).2 = none ↔
      (∀ e ∈ items, defs e.1 = none) ∧ (items.map Prod.fst).Nodup
  | [], defs => by simp [insertAll]
  | (k, v) :: items, defs => by
    rcases hk : defs k with _ | w
    · rw [insertAll_fresh hk, insertAll_accepted_iff, List.map_cons, List.nodup_cons,
        List.forall_mem_cons]
      constructor
      · rintro ⟨hnone, hnodup⟩
        have hne : ∀ e ∈ items, e.1 ≠ k := by
          rintro e he rfl
          have := hnone e he
          rw [Function.update_self] at this
          cases this
        refine ⟨⟨hk, fun e he => ?_⟩, fun hmem => ?_, hnodup⟩
        · have := hnone e he
          rwa [Function.update_of_ne (hne e he)] at this
        · obtain ⟨e, he, heq⟩ := List.mem_map.1 hmem
          exact hne e he heq
      · rintro ⟨⟨-, hnone⟩, hnot, hnodup⟩
        refine ⟨fun e he => ?_, hnodup⟩
        rw [Function.update_of_ne, hnone e he]
        intro hek
        exact hnot (List.mem_map.2 ⟨e, he, hek⟩)
    · rw [insertAll_refused (by simp [hk])]
      simp [hk]

/-- Where everything is added, the values are those before and those to add. -/
theorem insertAll_lookup [BEq κ] [LawfulBEq κ] : ∀ {items : List (κ × ν)} {defs : κ → Option ν},
    (insertAll defs items).2 = none → ∀ k, (insertAll defs items).1 k = (defs k).or (items.lookup k)
  | [], defs, _, k => by simp [insertAll]
  | (k', v') :: items, defs, h, k => by
    rcases hk : defs k' with _ | w
    · rw [insertAll_fresh hk] at h ⊢
      rw [insertAll_lookup h k]
      by_cases hkk : k = k'
      · subst hkk
        rw [Function.update_self, hk, List.lookup_cons_self]
        rfl
      · rw [Function.update_of_ne hkk, List.lookup_cons, beq_false_of_ne hkk]
    · rw [insertAll_refused (by simp [hk])] at h
      cases h

/-- The key that is refused is one of those to add, and it has a value by then. -/
theorem insertAll_clash : ∀ {items : List (κ × ν)} {defs : κ → Option ν},
    (insertAll defs items).2 = some k →
      k ∈ items.map Prod.fst ∧ ((insertAll defs items).1 k).isSome
  | [], defs, h => by cases h
  | (k', v') :: items, defs, h => by
    rcases hk : defs k' with _ | w
    · rw [insertAll_fresh hk] at h ⊢
      obtain ⟨hmem, hsome⟩ := insertAll_clash h
      exact ⟨List.mem_cons_of_mem _ hmem, hsome⟩
    · rw [insertAll_refused (by simp [hk])] at h ⊢
      obtain rfl := Option.some_inj.1 h
      exact ⟨List.mem_cons_self, by simp [hk]⟩

/-- The values before the one that is refused are added; it has a value by then. -/
theorem insertAll_split : ∀ {items : List (κ × ν)} {defs : κ → Option ν},
    (insertAll defs items).2 = some k → ∃ pre v post, items = pre ++ (k, v) :: post
      ∧ (insertAll defs pre).2 = none ∧ ((insertAll defs pre).1 k).isSome
      ∧ (insertAll defs items).1 = (insertAll defs pre).1
  | [], defs, h => by cases h
  | (k', v') :: items, defs, h => by
    rcases hk : defs k' with _ | w
    · rw [insertAll_fresh hk] at h ⊢
      obtain ⟨pre, v, post, rfl, hpre⟩ := insertAll_split h
      refine ⟨(k', v') :: pre, v, post, rfl, ?_⟩
      rw [insertAll_fresh hk]
      exact hpre
    · rw [insertAll_refused (by simp [hk])] at h ⊢
      obtain rfl := Option.some_inj.1 h
      exact ⟨[], v', items, rfl, rfl, by simp [insertAll, hk], rfl⟩

/-- Where something is refused, nothing has changed exactly if it was the first. -/
theorem insertAll_unchanged_iff (h : (insertAll defs items).2 ≠ none) :
    (insertAll defs items).1 = defs ↔ ∃ e ∈ items.head?, (defs e.1).isSome := by
  cases items with
  | nil => exact absurd rfl h
  | cons e items =>
    obtain ⟨k, v⟩ := e
    rcases hk : defs k with _ | w
    · rw [insertAll_fresh hk]
      constructor
      · intro heq
        have hkeep : (insertAll (Function.update defs k (some v)) items).1 k = some v :=
          insertAll_keeps (Function.update_self ..)
        rw [heq, hk] at hkeep
        cases hkeep
      · rintro ⟨e, he, hsome⟩
        obtain rfl := Option.mem_some_iff.1 he
        simp [hk] at hsome
    · rw [insertAll_refused (by simp [hk])]
      simp [hk]

end K23VM.WriteOnce
