import Mathlib.Data.List.Perm.Subperm
import K23VM.Lib.Fault

/-!
# Slabs

A slab hands out an id for each value it is given and takes the id back when the value is removed.
Which of the free ids it hands out is left to a policy, which may look at the ids in use and at how
many operations the slab has seen, so that every way to reuse ids is covered.
-/

namespace K23VM

/-- Which free id the slab hands out. -/
structure SlabPolicy where
  pick : ℕ → List ℕ → ℕ
  fresh : ∀ clock ids, pick clock ids ∉ ids

/-- The lowest free id. -/
def lowestFree (ids : List ℕ) : ℕ := ((List.range (ids.length + 1)).find? (· ∉ ids)).getD 0

theorem lowestFree_notMem (ids : List ℕ) : lowestFree ids ∉ ids := by
  unfold lowestFree
  rcases h : (List.range (ids.length + 1)).find? (· ∉ ids) with _ | i
  · rw [List.find?_eq_none] at h
    have hsub : List.range (ids.length + 1) ⊆ ids := fun i hi => by simpa using h i hi
    have := (List.nodup_range.subperm hsub).length_le
    rw [List.length_range] at this
    omega
  · simpa using List.find?_some h

def SlabPolicy.lowest : SlabPolicy := ⟨fun _ ids => lowestFree ids, fun _ => lowestFree_notMem⟩

structure Slab (α : Type) where
  clock : ℕ
  entries : List (ℕ × α)
  nodup : (entries.map Prod.fst).Nodup

namespace Slab

variable {α : Type}

def empty : Slab α := ⟨0, [], List.nodup_nil⟩

def ids (s : Slab α) : List ℕ := s.entries.map Prod.fst

def len (s : Slab α) : ℕ := s.entries.length

def get (s : Slab α) (i : ℕ) : Option α := (s.entries.find? fun p => p.1 = i).map Prod.snd

/-- The id the next allocation returns. -/
def nextId (π : SlabPolicy) (s : Slab α) : ℕ := π.pick s.clock s.ids

def alloc (π : SlabPolicy) (s : Slab α) (a : α) : ℕ × Slab α :=
  (s.nextId π, ⟨s.clock + 1, (s.nextId π, a) :: s.entries,
    List.nodup_cons.2 ⟨π.fresh _ _, s.nodup⟩⟩)

def dealloc (s : Slab α) (i : ℕ) : Except Fault (Slab α) :=
  if i ∈ s.ids then
    .ok ⟨s.clock + 1, s.entries.filter fun p => p.1 ≠ i,
      (List.filter_sublist.map Prod.fst).nodup s.nodup⟩
  else
    panicking "attempt to deallocate an entry that is already vacant"

/-- The ids that `n` allocations in a row return. -/
def nextIds (π : SlabPolicy) : ℕ → ℕ → List ℕ → List ℕ
  | 0, _, _ => []
  | n + 1, clock, ids => π.pick clock ids :: nextIds π n (clock + 1) (π.pick clock ids :: ids)

variable {π : SlabPolicy} {s t : Slab α} {i j : ℕ} {a : α}

theorem mem_ids_iff : i ∈ s.ids ↔ (s.get i).isSome := by
  simp [ids, get, List.find?_isSome]

theorem get_empty (i : ℕ) : (empty : Slab α).get i = none := rfl

theorem get_alloc (π : SlabPolicy) (s : Slab α) (a : α) (i : ℕ) :
    (s.alloc π a).2.get i = if i = s.nextId π then some a else s.get i := by
  simp only [alloc, get, List.find?_cons]
  by_cases h : s.nextId π = i
  · simp [h]
  · simp [h, Ne.symm h]

theorem ids_alloc (π : SlabPolicy) (s : Slab α) (a : α) :
    (s.alloc π a).2.ids = s.nextId π :: s.ids := rfl

theorem dealloc_of_mem (h : i ∈ s.ids) : ∃ t, s.dealloc i = .ok t := by
  simp [dealloc, h]

theorem get_dealloc (h : s.dealloc i = .ok t) (j : ℕ) :
    t.get j = if j = i then none else s.get j := by
  unfold dealloc at h
  split_ifs at h with hi
  obtain rfl := Except.ok.inj h
  by_cases hj : j = i
  · subst hj
    simp [get]
  · simp only [get, if_neg hj, List.find?_filter]
    congr 2
    funext p
    by_cases hp : p.1 = j
    · simp [hp, hj]
    · simp [hp]

theorem length_nextIds : ∀ (n clock : ℕ) (ids : List ℕ), (nextIds π n clock ids).length = n
  | 0, _, _ => rfl
  | n + 1, clock, ids => by simp [nextIds, length_nextIds n]

theorem notMem_of_mem_nextIds : ∀ {n clock : ℕ} {ids : List ℕ}, i ∈ nextIds π n clock ids → i ∉ ids
  | 0, _, _, h => absurd h List.not_mem_nil
  | n + 1, clock, ids, h => by
    rcases List.mem_cons.1 h with rfl | h
    · exact π.fresh _ _
    · exact fun hi => notMem_of_mem_nextIds h (List.mem_cons_of_mem _ hi)

theorem nodup_nextIds : ∀ (n clock : ℕ) (ids : List ℕ), (nextIds π n clock ids).Nodup
  | 0, _, _ => List.nodup_nil
  | n + 1, clock, _ =>
    List.nodup_cons.2 ⟨fun h => notMem_of_mem_nextIds h List.mem_cons_self,
      nodup_nextIds n (clock + 1) _⟩

end Slab

end K23VM
