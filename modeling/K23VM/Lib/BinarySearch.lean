import Mathlib.Order.Lattice
import Mathlib.Data.List.Nodup
import Mathlib.Data.List.Pairwise

/-!
# Binary search

The search of the standard library, which halves a range of candidates until one is left and then
compares that one.
-/

namespace K23VM

variable {α : Type} [LinearOrder α]

/-- The candidate that is left of the `size` ones from `base` on. -/
def searchFrom (l : List α) (x : α) (base size : ℕ) : ℕ :=
  if size ≤ 1 then base
  else
    let half := size / 2
    let mid := base + half
    searchFrom l x (if l[mid]?.any (x < ·) then base else mid) (size - half)
termination_by size
decreasing_by omega

/-- `binary_search`, without the place where an element that is not found belongs. -/
def binarySearch (l : List α) (x : α) : Option ℕ :=
  if l = [] then none
  else
    let base := searchFrom l x 0 l.length
    if l[base]? = some x then some base else none

/-- An element that is among the candidates is the one that is left. -/
theorem getElem?_searchFrom {l : List α} {x : α} (hs : l.Pairwise (· ≤ ·)) {base size i : ℕ}
    (hend : base + size ≤ l.length) (hle : base ≤ i) (hlt : i < base + size)
    (hi : l[i]? = some x) : l[searchFrom l x base size]? = some x := by
  induction size using Nat.strong_induction_on generalizing base i with
  | _ size ih =>
    unfold searchFrom
    by_cases h : size ≤ 1
    · rw [if_pos h]
      obtain rfl : i = base := by omega
      exact hi
    rw [if_neg h]
    have hmid : base + size / 2 < l.length := by omega
    have hany : l[base + size / 2]?.any (x < ·) = true ↔ x < l[base + size / 2] := by
      rw [List.getElem?_eq_getElem hmid]
      simp
    obtain ⟨hil, hix⟩ := List.getElem?_eq_some_iff.1 hi
    by_cases hgt : x < l[base + size / 2]
    · -- What is not below the middle is not smaller than it.
      have hbelow : i < base + size / 2 := by
        by_contra hge
        have := hs.rel_get_of_le (a := ⟨base + size / 2, hmid⟩) (b := ⟨i, hil⟩) (not_lt.1 hge)
        exact absurd hgt (not_lt.2 (hix ▸ this))
      simp only [if_pos (hany.2 hgt)]
      exact ih _ (by omega) (by omega) hle (by omega) hi
    · simp only [if_neg (mt hany.1 hgt)]
      by_cases hge : base + size / 2 ≤ i
      · exact ih _ (by omega) (by omega) hge (by omega) hi
      · -- The middle is the element itself.
        have := hs.rel_get_of_le (a := ⟨i, hil⟩) (b := ⟨base + size / 2, hmid⟩)
          (Nat.le_of_not_le hge)
        have heq : l[base + size / 2] = x := le_antisymm (not_lt.1 hgt) (hix ▸ this)
        exact ih _ (by omega) (by omega) le_rfl (by omega)
          (by rw [List.getElem?_eq_getElem hmid, heq])

/-- In a list in strict order the search finds the place of an element. -/
theorem binarySearch_eq_some {l : List α} {x : α} {i : ℕ} (hs : l.Pairwise (· < ·)) :
    binarySearch l x = some i ↔ l[i]? = some x := by
  unfold binarySearch
  constructor
  · intro h
    simp only [] at h
    split_ifs at h with hnil hfound
    obtain rfl := Option.some_inj.1 h
    exact hfound
  · intro hi
    obtain ⟨hil, hix⟩ := List.getElem?_eq_some_iff.1 hi
    have hne : l ≠ [] := List.ne_nil_of_length_pos (by omega)
    have hfound := getElem?_searchFrom (hs.imp le_of_lt) (Nat.zero_add _).le (Nat.zero_le i)
      (by omega) hi
    obtain ⟨hbl, hbx⟩ := List.getElem?_eq_some_iff.1 hfound
    have hnodup : l.Nodup := hs.imp ne_of_lt
    have hinj : i = searchFrom l x 0 l.length := hnodup.getElem_inj_iff.1 (hix.trans hbx.symm)
    simp only [if_neg hne, if_pos hfound]
    rw [hinj]

end K23VM
