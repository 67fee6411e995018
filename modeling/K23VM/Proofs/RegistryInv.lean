import K23VM.TypeRegistry
import K23VM.Proofs.TypeTrace
import Mathlib.Tactic

/-!
# The invariant of the type registry

`Inv reg roots zero` says that the registry is consistent when `roots` are held from outside, with
multiplicity, and the entries in `zero` are allowed to be registered although nobody holds them:
those on the drop stack and those a thread is about to unregister.
-/

namespace K23VM.TypeRegistryInner

/-! ## Counts -/

section SetCount

variable (reg : TypeRegistryInner) (e n : ℕ)

@[simp] theorem key_setCount : (reg.setCount e n).key = reg.key := by
  funext f
  by_cases h : f = e
  · subst h
    simp [setCount, key]
  · simp [setCount, key, h]

@[simp] theorem indices_setCount : (reg.setCount e n).indices = reg.indices := by
  funext f
  by_cases h : f = e
  · subst h
    simp [setCount, indices]
  · simp [setCount, indices, h]

theorem count_setCount (f : ℕ) :
    (reg.setCount e n).count f = if f = e then n else reg.count f := by
  by_cases h : f = e
  · subst h
    simp [setCount, count]
  · simp [setCount, count, h]

@[simp] theorem hashConsingMap_setCount :
    (reg.setCount e n).hashConsingMap = reg.hashConsingMap := rfl

@[simp] theorem typeToRecGroup_setCount :
    (reg.setCount e n).typeToRecGroup = reg.typeToRecGroup := rfl

@[simp] theorem types_setCount : (reg.setCount e n).types = reg.types := rfl

@[simp] theorem nextEntry_setCount : (reg.setCount e n).nextEntry = reg.nextEntry := rfl

@[simp] theorem dropStack_setCount : (reg.setCount e n).dropStack = reg.dropStack := rfl

@[simp] theorem removals_setCount : (reg.setCount e n).removals = reg.removals := rfl

end SetCount

theorem decrRefCount_eq {reg : TypeRegistryInner} {e : ℕ} (h : 0 < reg.count e) :
    reg.decrRefCount e = .ok (reg.setCount e (reg.count e - 1), decide (reg.count e = 1)) := by
  have h1 : 1 ≤ reg.count e := h
  simp [decrRefCount, subOrPanic, h1, bind, Except.bind, pure, Except.pure]

/-! ## The invariant -/

/-- The entries that references lead to. -/
def owners (owner : ℕ → Option ℕ) (refs : List CanonicalizedTypeIndex) : List ℕ :=
  refs.filterMap fun
    | .shared i => owner i
    | _ => none

/-- The entries that the key of an entry refers to, with multiplicity. -/
def refs (reg : TypeRegistryInner) (e : ℕ) : List ℕ :=
  owners reg.typeToRecGroup (references (reg.key e))

/-- The entries that registered entries refer to, with multiplicity. -/
def allRefs (reg : TypeRegistryInner) : List ℕ := reg.hashConsingMap.flatMap reg.refs

@[simp] theorem refs_setCount (reg : TypeRegistryInner) (e n : ℕ) :
    (reg.setCount e n).refs = reg.refs := by
  funext f
  simp [refs]

@[simp] theorem allRefs_setCount (reg : TypeRegistryInner) (e n : ℕ) :
    (reg.setCount e n).allRefs = reg.allRefs := by
  simp [allRefs]

structure Inv (reg : TypeRegistryInner) (roots zero : List ℕ) : Prop where
  nodup : reg.hashConsingMap.Nodup
  lt : ∀ e ∈ reg.hashConsingMap, e < reg.nextEntry
  key_inj : ∀ e ∈ reg.hashConsingMap, ∀ f ∈ reg.hashConsingMap, reg.key e = reg.key f → e = f
  count : ∀ e, reg.count e = roots.count e + reg.allRefs.count e
  live : ∀ e, 0 < reg.count e → e ∈ reg.hashConsingMap
  zero : ∀ e ∈ reg.hashConsingMap, reg.count e = 0 → e ∈ zero
  owner : ∀ i e, reg.typeToRecGroup i = some e ↔ e ∈ reg.hashConsingMap ∧ i ∈ reg.indices e
  indices_nodup : ∀ e ∈ reg.hashConsingMap, (reg.indices e).Nodup
  slab : ∀ i, i ∈ reg.types.ids ↔ (reg.typeToRecGroup i).isSome
  ref_lt : ∀ e ∈ reg.hashConsingMap, ∀ i, .shared i ∈ references (reg.key e) →
    ∃ f, reg.typeToRecGroup i = some f ∧ f < e
  canonical : ∀ e ∈ reg.hashConsingMap, isCanonicalizedForHashConsing (reg.key e) = true
  length : ∀ e ∈ reg.hashConsingMap, (reg.indices e).length = (reg.key e).types.length

theorem inv_new : Inv new [] [] where
  nodup := List.nodup_nil
  lt := by simp [new]
  key_inj := by simp [new]
  count := by simp [new, TypeRegistryInner.count, allRefs]
  live := by simp [new, TypeRegistryInner.count]
  zero := by simp [new]
  owner := by simp [new]
  indices_nodup := by simp [new]
  slab := by simp [new, Slab.ids, Slab.empty]
  ref_lt := by simp [new]
  canonical := by simp [new]
  length := by simp [new]

section Inv

variable {reg : TypeRegistryInner} {roots zero : List ℕ} {e f i : ℕ}

theorem Inv.mem_of_root (h : Inv reg roots zero) (he : e ∈ roots) : e ∈ reg.hashConsingMap := by
  apply h.live
  have := List.count_pos_iff.2 he
  have := h.count e
  omega

theorem Inv.owner_unique (h : Inv reg roots zero) (he : e ∈ reg.hashConsingMap)
    (hf : f ∈ reg.hashConsingMap) (hie : i ∈ reg.indices e) (hif : i ∈ reg.indices f) : e = f :=
  Option.some_inj.1 (((h.owner i e).2 ⟨he, hie⟩).symm.trans ((h.owner i f).2 ⟨hf, hif⟩))

theorem mem_owners {owner : ℕ → Option ℕ} {rs : List CanonicalizedTypeIndex} :
    e ∈ owners owner rs ↔ ∃ i, .shared i ∈ rs ∧ owner i = some e := by
  simp only [owners, List.mem_filterMap]
  constructor
  · rintro ⟨r, hr, ho⟩
    cases r with
    | shared i => exact ⟨i, hr, ho⟩
    | _ => cases ho
  · rintro ⟨i, hi, ho⟩
    exact ⟨_, hi, ho⟩

theorem owners_congr {o o' : ℕ → Option ℕ} {rs : List CanonicalizedTypeIndex}
    (h : ∀ i, .shared i ∈ rs → o i = o' i) : owners o rs = owners o' rs := by
  refine List.filterMap_congr fun r hr => ?_
  cases r with
  | shared i => exact h i hr
  | _ => rfl

theorem Inv.ref_mem (h : Inv reg roots zero) (hf : e ∈ reg.refs f) :
    e ∈ reg.hashConsingMap := by
  obtain ⟨i, -, ho⟩ := mem_owners.1 hf
  exact ((h.owner i e).1 ho).1

/-- Nobody refers to an entry whose count is zero. -/
theorem Inv.notMem_refs_of_count_zero (h : Inv reg roots zero) (he : reg.count e = 0)
    (hf : f ∈ reg.hashConsingMap) : e ∉ reg.refs f := by
  intro hmem
  have : 0 < reg.allRefs.count e := List.count_pos_iff.2 (List.mem_flatMap.2 ⟨f, hf, hmem⟩)
  have := h.count e
  omega

theorem Inv.mono_zero {zero' : List ℕ} (h : Inv reg roots zero)
    (hz : ∀ e ∈ reg.hashConsingMap, reg.count e = 0 → e ∈ zero → e ∈ zero') :
    Inv reg roots zero' :=
  { h with zero := fun e he h0 => hz e he h0 (h.zero e he h0) }

theorem Inv.roots_perm {roots' : List ℕ} (h : Inv reg roots zero) (hp : roots.Perm roots') :
    Inv reg roots' zero :=
  { h with count := fun e => by rw [h.count e, hp.count_eq] }

/-- A count that is raised accounts for one more holder. -/
theorem Inv.incr (h : Inv reg roots zero) (he : e ∈ reg.hashConsingMap) :
    Inv (reg.incrRefCount e) (e :: roots) zero := by
  refine ⟨h.nodup, h.lt, ?_, ?_, ?_, ?_, ?_, ?_, h.slab, ?_, ?_, ?_⟩
  · simpa [incrRefCount] using h.key_inj
  · intro f
    rw [incrRefCount, allRefs_setCount, count_setCount]
    have := h.count f
    by_cases hfe : f = e
    · subst hfe
      simp only [if_true, List.count_cons_self]
      omega
    · rw [if_neg hfe, List.count_cons_of_ne (Ne.symm hfe)]
      exact this
  · intro f hf
    rw [incrRefCount, count_setCount] at hf
    split_ifs at hf with hfe
    · exact hfe ▸ he
    · exact h.live f hf
  · intro f hf h0
    rw [incrRefCount, count_setCount] at h0
    split_ifs at h0
    exact h.zero f hf h0
  · simpa [incrRefCount] using h.owner
  · simpa [incrRefCount] using h.indices_nodup
  · simpa [incrRefCount] using h.ref_lt
  · simpa [incrRefCount] using h.canonical
  · simpa [incrRefCount] using h.length

/-- A count that is lowered accounts for one holder less; the entry may now be held by nobody. -/
theorem Inv.decr (h : Inv reg (e :: roots) zero) :
    Inv (reg.setCount e (reg.count e - 1)) roots (e :: zero) := by
  have hcount : reg.count e = (e :: roots).count e + reg.allRefs.count e := h.count e
  rw [List.count_cons_self] at hcount
  refine ⟨h.nodup, h.lt, ?_, ?_, ?_, ?_, ?_, ?_, h.slab, ?_, ?_, ?_⟩
  · simpa using h.key_inj
  · intro f
    rw [allRefs_setCount, count_setCount]
    by_cases hfe : f = e
    · subst hfe
      rw [if_pos rfl]
      omega
    · rw [if_neg hfe, h.count f, List.count_cons_of_ne (Ne.symm hfe)]
  · intro f hf
    rw [count_setCount] at hf
    split_ifs at hf with hfe
    · exact h.live f (by subst hfe; omega)
    · exact h.live f hf
  · intro f hf h0
    rw [count_setCount] at h0
    split_ifs at h0 with hfe
    · exact hfe ▸ List.mem_cons_self
    · exact List.mem_cons_of_mem _ (h.zero f hf h0)
  · simpa using h.owner
  · simpa using h.indices_nodup
  · simpa using h.ref_lt
  · simpa using h.canonical
  · simpa using h.length

end Inv

end K23VM.TypeRegistryInner
