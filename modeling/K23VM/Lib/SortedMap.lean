import Mathlib.Order.Lattice
import Mathlib.Data.List.Basic

/-!
# Ordered maps

A finite map as the list of its entries in the order of the keys.
-/

namespace K23VM

namespace SortedMap

variable {κ ν : Type} [LinearOrder κ]

/-- Put an entry at its place, in place of one with the same key. -/
def insertList (k : κ) (x : ν) : List (κ × ν) → List (κ × ν)
  | [] => [(k, x)]
  | e :: l =>
    if k < e.1 then (k, x) :: e :: l
    else if k = e.1 then (k, x) :: l
    else e :: insertList k x l

theorem mem_insertList {k : κ} {x : ν} {e : κ × ν} : ∀ {l : List (κ × ν)},
    e ∈ insertList k x l → e = (k, x) ∨ e ∈ l
  | [], h => .inl (List.mem_singleton.1 h)
  | f :: l, h => by
    unfold insertList at h
    split_ifs at h
    · exact List.mem_cons.1 h
    · rcases List.mem_cons.1 h with h | h
      · exact .inl h
      · exact .inr (List.mem_cons_of_mem _ h)
    · rcases List.mem_cons.1 h with rfl | h
      · exact .inr List.mem_cons_self
      · exact (mem_insertList h).imp_right (List.mem_cons_of_mem _)

theorem mem_insertList_of {k : κ} {x : ν} {e : κ × ν} : ∀ {l : List (κ × ν)},
    (∀ f ∈ l, f.1 ≠ k) → e = (k, x) ∨ e ∈ l → e ∈ insertList k x l
  | [], _, h => by simpa [insertList] using h
  | f :: l, hne, h => by
    unfold insertList
    rw [if_neg (hne f List.mem_cons_self).symm]
    split_ifs
    · exact List.mem_cons.2 h
    · rcases h with h | h
      · exact List.mem_cons_of_mem _
          (mem_insertList_of (fun g hg => hne g (List.mem_cons_of_mem _ hg)) (.inl h))
      · rcases List.mem_cons.1 h with rfl | h
        · exact List.mem_cons_self
        · exact List.mem_cons_of_mem _
            (mem_insertList_of (fun g hg => hne g (List.mem_cons_of_mem _ hg)) (.inr h))

theorem sorted_insertList (k : κ) (x : ν) : ∀ {l : List (κ × ν)},
    l.Pairwise (fun e f => e.1 < f.1) → (insertList k x l).Pairwise fun e f => e.1 < f.1
  | [], _ => List.pairwise_singleton _ _
  | e :: l, h => by
    obtain ⟨he, hl⟩ := List.pairwise_cons.1 h
    unfold insertList
    split_ifs with hlt heq
    · refine List.pairwise_cons.2 ⟨fun f hf => ?_, h⟩
      rcases List.mem_cons.1 hf with rfl | hf
      · exact hlt
      · exact lt_trans hlt (he f hf)
    · exact List.pairwise_cons.2 ⟨fun f hf => heq ▸ he f hf, hl⟩
    · refine List.pairwise_cons.2 ⟨fun f hf => ?_, sorted_insertList k x hl⟩
      rcases mem_insertList hf with rfl | hf
      · exact lt_of_le_of_ne (not_lt.1 hlt) (Ne.symm heq)
      · exact he f hf

theorem lookup_cons_eq (e : κ × ν) (l : List (κ × ν)) (k : κ) :
    (e :: l).lookup k = if k = e.1 then some e.2 else l.lookup k := by
  obtain ⟨k', x⟩ := e
  rw [List.lookup_cons]
  by_cases h : k = k'
  · simp [h]
  · simp [h, show (k == k') = false from by simpa using h]

theorem lookup_insertList (k : κ) (x : ν) (k' : κ) : ∀ (l : List (κ × ν)),
    (insertList k x l).lookup k' = if k' = k then some x else l.lookup k'
  | [] => lookup_cons_eq (k, x) [] k'
  | e :: l => by
    unfold insertList
    by_cases hlt : k < e.1
    · rw [if_pos hlt, lookup_cons_eq]
    · rw [if_neg hlt]
      by_cases heq : k = e.1
      · rw [if_pos heq, lookup_cons_eq, lookup_cons_eq e]
        by_cases hk : k' = k
        · rw [if_pos hk, if_pos hk]
        · rw [if_neg hk, if_neg hk, if_neg fun h => hk (h.trans heq.symm)]
      · rw [if_neg heq, lookup_cons_eq, lookup_cons_eq e, lookup_insertList k x k' l]
        by_cases hk : k' = k
        · rw [if_pos hk, if_pos hk, if_neg fun h => heq (hk.symm.trans h)]
        · rw [if_neg hk, if_neg hk]

end SortedMap

/-- A map with its entries in the order of the keys. -/
structure SortedMap (κ ν : Type) [LinearOrder κ] where
  entries : List (κ × ν)
  sorted : entries.Pairwise fun e f => e.1 < f.1

namespace SortedMap

variable {κ ν : Type} [LinearOrder κ]

def empty : SortedMap κ ν := ⟨[], .nil⟩

def insert (m : SortedMap κ ν) (k : κ) (x : ν) : SortedMap κ ν :=
  ⟨insertList k x m.entries, sorted_insertList k x m.sorted⟩

def get (m : SortedMap κ ν) (k : κ) : Option ν := m.entries.lookup k

/-- The first entry whose key is not below `k`. -/
def firstFrom (m : SortedMap κ ν) (k : κ) : Option (κ × ν) := m.entries.find? fun e => k ≤ e.1

@[simp] theorem get_empty (k : κ) : (empty : SortedMap κ ν).get k = none := rfl

theorem get_insert (m : SortedMap κ ν) (k k' : κ) (x : ν) :
    (m.insert k x).get k' = if k' = k then some x else m.get k' :=
  lookup_insertList k x k' m.entries

theorem get_of_mem (m : SortedMap κ ν) {e : κ × ν} (he : e ∈ m.entries) : m.get e.1 = some e.2 := by
  obtain ⟨entries, hs⟩ := m
  rw [get]
  induction entries with
  | nil => cases he
  | cons f entries ih =>
    obtain ⟨hf, hs⟩ := List.pairwise_cons.1 hs
    rw [lookup_cons_eq]
    rcases List.mem_cons.1 he with rfl | he
    · rw [if_pos rfl]
    · rw [if_neg (ne_of_gt (hf e he))]
      exact ih hs he

theorem mem_of_get {m : SortedMap κ ν} {e : κ × ν} (h : m.get e.1 = some e.2) : e ∈ m.entries := by
  obtain ⟨l₁, l₂, heq, -⟩ := List.lookup_eq_some_iff.1 h
  rw [heq]
  exact List.mem_append_right _ List.mem_cons_self

theorem get_eq_none {m : SortedMap κ ν} {k : κ} (h : ∀ e ∈ m.entries, e.1 ≠ k) :
    m.get k = none := by
  rw [get]
  exact List.lookup_eq_none_iff.2 fun e he => by simpa using Ne.symm (h e he)

theorem mem_insert {m : SortedMap κ ν} {k : κ} (h : ∀ e ∈ m.entries, e.1 ≠ k) {x : ν}
    {e : κ × ν} : e ∈ (m.insert k x).entries ↔ e = (k, x) ∨ e ∈ m.entries :=
  ⟨mem_insertList, mem_insertList_of h⟩

/-- The first entry from `k` on is the one with no other entry from `k` on before it. -/
theorem firstFrom_eq_some {m : SortedMap κ ν} {k : κ} {e : κ × ν} (he : e ∈ m.entries)
    (hk : k ≤ e.1) (hfirst : ∀ f ∈ m.entries, f.1 < e.1 → f.1 < k) : m.firstFrom k = some e := by
  obtain ⟨entries, hs⟩ := m
  unfold firstFrom
  obtain ⟨pre, post, rfl⟩ := List.append_of_mem he
  have hbefore := (List.pairwise_append.1 hs).2.2
  refine List.find?_eq_some_iff_append.2 ⟨by simpa using hk, pre, post, rfl, fun f hf => ?_⟩
  have hlt := hfirst f (List.mem_append_left _ hf) (hbefore f hf e List.mem_cons_self)
  simpa using hlt

end SortedMap

end K23VM
