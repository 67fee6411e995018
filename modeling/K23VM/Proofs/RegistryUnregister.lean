import K23VM.Proofs.RegistryInv

/-!
# Unregistering entries

`removeEntry` is followed through its three parts, the references it releases, the types it removes
and the entry itself.  The loop of `unregisterEntry` then keeps the invariant, ends, and does
nothing to the entries that stay: `unregisterEntry_spec`.
-/

namespace K23VM.TypeRegistryInner

/-! ## Releasing references -/

/-- The registry after some counts were lowered and the entries `pushed` reached zero. -/
structure Released (reg reg' : TypeRegistryInner) (targets pushed : List ℕ) : Prop where
  key : reg'.key = reg.key
  indices : reg'.indices = reg.indices
  nextEntry : reg'.nextEntry = reg.nextEntry
  hashConsingMap : reg'.hashConsingMap = reg.hashConsingMap
  typeToRecGroup : reg'.typeToRecGroup = reg.typeToRecGroup
  types : reg'.types = reg.types
  removals : reg'.removals = reg.removals
  dropStack : reg'.dropStack = pushed ++ reg.dropStack
  count : ∀ e, reg'.count e = reg.count e - targets.count e
  nodup : pushed.Nodup
  mem_pushed : ∀ e, e ∈ pushed ↔ e ∈ targets ∧ reg.count e = targets.count e

theorem owners_cons_shared (owner : ℕ → Option ℕ) {i e : ℕ} (h : owner i = some e)
    (rs : List CanonicalizedTypeIndex) : owners owner (.shared i :: rs) = e :: owners owner rs := by
  simp [owners, h]

/-- One reference is released. -/
def releaseOne (reg : TypeRegistryInner) (o : ℕ) : TypeRegistryInner :=
  if reg.count o = 1 then
    { reg.setCount o (reg.count o - 1) with dropStack := o :: reg.dropStack }
  else
    reg.setCount o (reg.count o - 1)

theorem releaseOne_released (reg : TypeRegistryInner) {o : ℕ} (h : 0 < reg.count o) :
    Released reg (reg.releaseOne o) [o] (if reg.count o = 1 then [o] else []) := by
  have hcount : ∀ e, (reg.setCount o (reg.count o - 1)).count e = reg.count e - [o].count e := by
    intro e
    rw [count_setCount]
    by_cases he : e = o
    · subst he
      simp
    · simp [he, List.count_cons_of_ne (Ne.symm he)]
  have hmem : ∀ e, e ∈ (if reg.count o = 1 then [o] else []) ↔
      e ∈ [o] ∧ reg.count e = [o].count e := by
    intro e
    by_cases he : e = o
    · subst he
      split_ifs with h1 <;> simp [h1]
    · split_ifs <;> simp [he]
  unfold releaseOne
  split_ifs with h1
  · rw [if_pos h1] at hmem
    exact ⟨key_setCount reg o _, indices_setCount reg o _, rfl, rfl, rfl, rfl, rfl, rfl, hcount,
      List.nodup_singleton o, hmem⟩
  · rw [if_neg h1] at hmem
    exact ⟨key_setCount reg o _, indices_setCount reg o _, rfl, rfl, rfl, rfl, rfl, rfl, hcount,
      List.nodup_nil, hmem⟩

theorem released_trans {reg₀ reg₁ reg₂ : TypeRegistryInner} {ts us ps qs : List ℕ}
    (h₁ : Released reg₀ reg₁ ts ps) (h₂ : Released reg₁ reg₂ us qs)
    (hle : ∀ e, (ts ++ us).count e ≤ reg₀.count e) :
    Released reg₀ reg₂ (ts ++ us) (qs ++ ps) where
  key := h₂.key.trans h₁.key
  indices := h₂.indices.trans h₁.indices
  nextEntry := h₂.nextEntry.trans h₁.nextEntry
  hashConsingMap := h₂.hashConsingMap.trans h₁.hashConsingMap
  typeToRecGroup := h₂.typeToRecGroup.trans h₁.typeToRecGroup
  types := h₂.types.trans h₁.types
  removals := h₂.removals.trans h₁.removals
  dropStack := by rw [h₂.dropStack, h₁.dropStack, List.append_assoc]
  count e := by rw [h₂.count, h₁.count, List.count_append, Nat.sub_sub]
  nodup := by
    refine h₂.nodup.append h₁.nodup fun e he he' => ?_
    obtain ⟨heu, -⟩ := (h₂.mem_pushed e).1 he
    obtain ⟨-, hc⟩ := (h₁.mem_pushed e).1 he'
    have := List.count_pos_iff.2 heu
    have := hle e
    rw [List.count_append] at this
    omega
  mem_pushed e := by
    have hl := hle e
    rw [List.count_append] at hl
    rw [List.mem_append, h₁.mem_pushed, h₂.mem_pushed, h₁.count, List.mem_append,
      List.count_append, ← List.count_pos_iff, ← List.count_pos_iff]
    omega

theorem releaseReferences_cons {reg : TypeRegistryInner} {i o : ℕ}
    (hoi : reg.typeToRecGroup i = some o) (h : 0 < reg.count o)
    (rs : List CanonicalizedTypeIndex) :
    reg.releaseReferences (.shared i :: rs)
      = (reg.releaseOne o).releaseReferences rs >>= fun p => pure (p.1, o :: p.2) := by
  by_cases h1 : reg.count o = 1 <;>
    simp [releaseReferences, hoi, decrRefCount_eq h, releaseOne, h1, bind, Except.bind]

theorem releaseReferences_spec : ∀ (rs : List CanonicalizedTypeIndex) (reg : TypeRegistryInner),
    (∀ i, .shared i ∈ rs → (reg.typeToRecGroup i).isSome) →
    (∀ e, (owners reg.typeToRecGroup rs).count e ≤ reg.count e) →
    ∃ reg' pushed, reg.releaseReferences rs = .ok (reg', owners reg.typeToRecGroup rs)
      ∧ Released reg reg' (owners reg.typeToRecGroup rs) pushed
  | [], reg, _, _ => ⟨reg, [], rfl, by constructor <;> simp [owners]⟩
  | .recGroup _ :: rs, reg, ho, hc =>
    releaseReferences_spec rs reg (fun i hi => ho i (List.mem_cons_of_mem _ hi)) hc
  | .module _ :: rs, reg, ho, hc =>
    releaseReferences_spec rs reg (fun i hi => ho i (List.mem_cons_of_mem _ hi)) hc
  | .shared i :: rs, reg, ho, hc => by
    obtain ⟨o, hoi⟩ := Option.isSome_iff_exists.1 (ho i List.mem_cons_self)
    rw [owners_cons_shared _ hoi] at hc ⊢
    have hpos : 0 < reg.count o := by
      have := hc o
      rw [List.count_cons_self] at this
      omega
    have h₁ := releaseOne_released reg hpos
    obtain ⟨reg', pushed, hrun, h₂⟩ := releaseReferences_spec rs (reg.releaseOne o)
      (by rw [h₁.typeToRecGroup]; exact fun i hi => ho i (List.mem_cons_of_mem _ hi))
      (by
        intro e
        have := hc e
        rw [h₁.typeToRecGroup, h₁.count]
        rw [← List.singleton_append, List.count_append] at this
        omega)
    rw [h₁.typeToRecGroup] at hrun h₂
    refine ⟨reg', _, ?_, released_trans h₁ h₂ hc⟩
    rw [releaseReferences_cons hoi hpos, hrun]
    rfl

/-! ## Removing types -/

/-- The registry after the types `is` of an entry were removed. -/
structure TypesRemoved (reg reg' : TypeRegistryInner) (is : List ℕ) : Prop where
  entries : reg'.entries = reg.entries
  nextEntry : reg'.nextEntry = reg.nextEntry
  hashConsingMap : reg'.hashConsingMap = reg.hashConsingMap
  removals : reg'.removals = reg.removals
  dropStack : reg'.dropStack = reg.dropStack
  typeToRecGroup : ∀ i, reg'.typeToRecGroup i = if i ∈ is then none else reg.typeToRecGroup i
  types : ∀ i, reg'.types.get i = if i ∈ is then none else reg.types.get i

theorem removeTypes_spec (debug : Bool) (entry : ℕ) : ∀ (is : List ℕ) (reg : TypeRegistryInner),
    is.Nodup → (∀ i ∈ is, reg.typeToRecGroup i = some entry) → (∀ i ∈ is, i ∈ reg.types.ids) →
    ∃ reg', reg.removeTypes debug entry is = .ok (reg', is.map fun i => (i, some entry))
      ∧ TypesRemoved reg reg' is
  | [], reg, _, _, _ => ⟨reg, rfl, by constructor <;> simp⟩
  | i :: is, reg, hnd, ho, hs => by
    obtain ⟨hni, hnd⟩ := List.nodup_cons.1 hnd
    have hoi := ho i List.mem_cons_self
    obtain ⟨types, ht⟩ := Slab.dealloc_of_mem (hs i List.mem_cons_self)
    have hne : ∀ j ∈ is, j ≠ i := fun j hj h => hni (h ▸ hj)
    obtain ⟨reg', hrun, h'⟩ := removeTypes_spec debug entry is
      { reg with typeToRecGroup := Function.update reg.typeToRecGroup i none, types } hnd
      (fun j hj => by simp [hne j hj, ho j (List.mem_cons_of_mem _ hj)])
      (fun j hj => by
        rw [Slab.mem_ids_iff, Slab.get_dealloc ht, if_neg (hne j hj), ← Slab.mem_ids_iff]
        exact hs j (List.mem_cons_of_mem _ hj))
    refine ⟨reg', ?_, ?_⟩
    · simp only [removeTypes, hoi, Option.isSome_some, debugAssert_true, Option.all_some,
        decide_true, ht, hrun, bind, Except.bind]
      rfl
    · refine ⟨h'.entries, h'.nextEntry, h'.hashConsingMap, h'.removals, h'.dropStack, ?_, ?_⟩
      · intro j
        rw [h'.typeToRecGroup]
        by_cases hj : j = i
        · subst hj
          simp
        · simp [hj]
      · intro j
        rw [h'.types]
        simp only [Slab.get_dealloc ht]
        by_cases hj : j = i
        · subst hj
          simp
        · simp [hj]

/-! ## Removing an entry -/

theorem eraseP_congr {β : Type} {p q : β → Bool} : ∀ {l : List β}, (∀ x ∈ l, p x = q x) →
    l.eraseP p = l.eraseP q
  | [], _ => rfl
  | x :: xs, h => by
    rw [List.eraseP_cons, List.eraseP_cons, h x List.mem_cons_self,
      eraseP_congr fun y hy => h y (List.mem_cons_of_mem _ hy)]

/-- The references of a key to other groups. -/
def crossRefs (k : WasmRecGroup) : List ℕ :=
  (references k).filterMap fun
    | .shared i => some i
    | _ => none

theorem length_owners {owner : ℕ → Option ℕ} : ∀ rs : List CanonicalizedTypeIndex,
    (∀ i, .shared i ∈ rs → (owner i).isSome) → (owners owner rs).length
      = (rs.filterMap fun | .shared i => some i | _ => none).length
  | [], _ => rfl
  | .recGroup _ :: rs, h => length_owners rs fun i hi => h i (List.mem_cons_of_mem _ hi)
  | .module _ :: rs, h => length_owners rs fun i hi => h i (List.mem_cons_of_mem _ hi)
  | .shared i :: rs, h => by
    obtain ⟨e, he⟩ := Option.isSome_iff_exists.1 (h i List.mem_cons_self)
    rw [owners_cons_shared _ he]
    simpa using length_owners rs fun j hj => h j (List.mem_cons_of_mem _ hj)

/-- The registry after some entries were unregistered: what stays is as it was. -/
structure Shrinks (reg reg' : TypeRegistryInner) (l : List Removal) : Prop where
  key : reg'.key = reg.key
  indices : reg'.indices = reg.indices
  nextEntry : reg'.nextEntry = reg.nextEntry
  mem_map : ∀ e ∈ reg'.hashConsingMap, e ∈ reg.hashConsingMap
  types : ∀ i ∈ reg'.types.ids, reg'.types.get i = reg.types.get i
  removals : reg'.removals = l ++ reg.removals
  removed_nodup : (l.map Removal.entry).Nodup
  removed_mem : ∀ r ∈ l, r.entry ∈ reg.hashConsingMap ∧ r.entry ∉ reg'.hashConsingMap
  gone : ∀ e ∈ reg.hashConsingMap, e ∉ reg'.hashConsingMap → e ∈ l.map Removal.entry
  freed : ∀ r ∈ l, r.freed = (reg.indices r.entry).map fun i => (i, some r.entry)
  released : ∀ r ∈ l, r.released.length = (crossRefs (reg.key r.entry)).length

theorem shrinks_refl (reg : TypeRegistryInner) : Shrinks reg reg [] := by
  constructor <;> simp

/-- Nothing but counts and the drop stack changed. -/
theorem shrinks_of_eq {reg reg' : TypeRegistryInner} (hk : reg'.key = reg.key)
    (hi : reg'.indices = reg.indices) (hn : reg'.nextEntry = reg.nextEntry)
    (hm : reg'.hashConsingMap = reg.hashConsingMap) (ht : reg'.types = reg.types)
    (hr : reg'.removals = reg.removals) : Shrinks reg reg' [] := by
  constructor <;> simp_all

theorem shrinks_trans {reg₀ reg₁ reg₂ : TypeRegistryInner} {l m : List Removal}
    (h₁ : Shrinks reg₀ reg₁ l) (h₂ : Shrinks reg₁ reg₂ m)
    (hs : ∀ i ∈ reg₂.types.ids, i ∈ reg₁.types.ids) : Shrinks reg₀ reg₂ (m ++ l) where
  key := h₂.key.trans h₁.key
  indices := h₂.indices.trans h₁.indices
  nextEntry := h₂.nextEntry.trans h₁.nextEntry
  mem_map e he := h₁.mem_map e (h₂.mem_map e he)
  types i hi := by rw [h₂.types i hi, h₁.types i (hs i hi)]
  removals := by rw [h₂.removals, h₁.removals, List.append_assoc]
  removed_nodup := by
    rw [List.map_append]
    refine h₂.removed_nodup.append h₁.removed_nodup fun e he he' => ?_
    obtain ⟨r, hr, rfl⟩ := List.mem_map.1 he
    obtain ⟨r', hr', heq⟩ := List.mem_map.1 he'
    exact (h₁.removed_mem r' hr').2 (heq ▸ (h₂.removed_mem r hr).1)
  removed_mem r hr := by
    rcases List.mem_append.1 hr with hr | hr
    · exact ⟨h₁.mem_map _ (h₂.removed_mem r hr).1, (h₂.removed_mem r hr).2⟩
    · exact ⟨(h₁.removed_mem r hr).1,
        fun hm => (h₁.removed_mem r hr).2 (h₂.mem_map _ hm)⟩
  gone e he he' := by
    rw [List.map_append, List.mem_append]
    by_cases he₁ : e ∈ reg₁.hashConsingMap
    · exact .inl (h₂.gone e he₁ he')
    · exact .inr (h₁.gone e he he₁)
  freed r hr := by
    rcases List.mem_append.1 hr with hr | hr
    · rw [h₂.freed r hr, h₁.indices]
    · exact h₁.freed r hr
  released r hr := by
    rcases List.mem_append.1 hr with hr | hr
    · rw [h₂.released r hr, h₁.key]
    · exact h₁.released r hr

theorem Shrinks.ofDropStack {reg reg' : TypeRegistryInner} {stack : List ℕ} {l : List Removal}
    (h : Shrinks { reg with dropStack := stack } reg' l) : Shrinks reg reg' l :=
  ⟨h.key, h.indices, h.nextEntry, h.mem_map, h.types, h.removals, h.removed_nodup, h.removed_mem,
    h.gone, h.freed, h.released⟩

section RemoveEntry

variable {reg : TypeRegistryInner} {roots zero : List ℕ} {e : ℕ}

theorem Inv.eraseP_key (h : Inv reg roots zero) (he : e ∈ reg.hashConsingMap) :
    reg.hashConsingMap.eraseP (fun f => reg.key f = reg.key e) = reg.hashConsingMap.erase e := by
  rw [List.erase_eq_eraseP]
  refine eraseP_congr fun f hf => ?_
  by_cases hfe : f = e
  · simp [hfe]
  · have := mt (h.key_inj f hf e he) hfe
    simp [this, Ne.symm hfe]

theorem allRefs_count (he : e ∈ reg.hashConsingMap) (f : ℕ) :
    reg.allRefs.count f
      = (reg.refs e).count f + ((reg.hashConsingMap.erase e).flatMap reg.refs).count f := by
  have hp := (List.perm_cons_erase he).flatMap_right reg.refs
  rw [allRefs, hp.count_eq, List.flatMap_cons, List.count_append]

/-- What removing an entry does, when all its references lead somewhere. -/
structure Removed (reg reg' : TypeRegistryInner) (e : ℕ) (pushed : List ℕ) : Prop where
  key : reg'.key = reg.key
  indices : reg'.indices = reg.indices
  nextEntry : reg'.nextEntry = reg.nextEntry
  hashConsingMap : reg'.hashConsingMap = reg.hashConsingMap.erase e
  typeToRecGroup : ∀ i,
    reg'.typeToRecGroup i = if i ∈ reg.indices e then none else reg.typeToRecGroup i
  types : ∀ i, reg'.types.get i = if i ∈ reg.indices e then none else reg.types.get i
  removals : reg'.removals
    = ⟨e, reg.refs e, (reg.indices e).map fun i => (i, some e)⟩ :: reg.removals
  dropStack : reg'.dropStack = pushed ++ reg.dropStack
  count : ∀ f, reg'.count f = reg.count f - (reg.refs e).count f
  nodup : pushed.Nodup
  mem_pushed : ∀ f, f ∈ pushed ↔ f ∈ reg.refs e ∧ reg.count f = (reg.refs e).count f

theorem Inv.isSome_owner (h : Inv reg roots zero) (he : e ∈ reg.hashConsingMap) (i : ℕ)
    (hi : .shared i ∈ references (reg.key e)) : (reg.typeToRecGroup i).isSome := by
  obtain ⟨f, hf, -⟩ := h.ref_lt e he i hi
  simp [hf]

theorem Inv.count_refs_le (h : Inv reg roots zero) (he : e ∈ reg.hashConsingMap) (f : ℕ) :
    (reg.refs e).count f ≤ reg.count f := by
  have := h.count f
  have := allRefs_count he f
  omega

theorem removeEntry_eq (debug : Bool) (h : Inv reg roots zero) (he : e ∈ reg.hashConsingMap) :
    ∃ reg' pushed, reg.removeEntry debug e = .ok reg' ∧ Removed reg reg' e pushed := by
  obtain ⟨reg₁, pushed, hrel, h₁⟩ := releaseReferences_spec (references (reg.key e)) reg
    (h.isSome_owner he) (h.count_refs_le he)
  have hmap : reg₁.hashConsingMap.eraseP (fun f => reg₁.key f = reg₁.key e)
      = reg.hashConsingMap.erase e := by
    rw [h₁.key, h₁.hashConsingMap, h.eraseP_key he]
  have hown : ∀ i ∈ reg.indices e, reg.typeToRecGroup i = some e := fun i hi =>
    (h.owner i e).2 ⟨he, hi⟩
  obtain ⟨reg₂, hrem, h₂⟩ := removeTypes_spec debug e (reg.indices e)
    { reg₁ with hashConsingMap := reg.hashConsingMap.erase e } (h.indices_nodup e he)
    (fun i hi => by simp only [h₁.typeToRecGroup, hown i hi])
    (fun i hi => by simp only [h₁.types, h.slab, hown i hi, Option.isSome_some])
  refine ⟨{ reg₂ with removals :=
    ⟨e, reg.refs e, (reg.indices e).map fun i => (i, some e)⟩ :: reg₂.removals }, pushed, ?_, ?_⟩
  · have hindices : ({ reg₁ with hashConsingMap := reg.hashConsingMap.erase e } :
        TypeRegistryInner).indices e = reg.indices e := congrFun h₁.indices e
    simp only [removeEntry, h.canonical e he, debugAssert_true, trace_eq, hrel, bind, Except.bind,
      hmap, hindices, hrem]
    rfl
  · have hkey : ∀ f, reg₂.entries f = reg₁.entries f := fun f => congrFun h₂.entries f
    refine ⟨?_, ?_, h₂.nextEntry.trans h₁.nextEntry, h₂.hashConsingMap, ?_, ?_, ?_, ?_, ?_,
      h₁.nodup, h₁.mem_pushed⟩
    · rw [← h₁.key]
      exact funext fun f => congrArg RecGroupEntryInner.hashConsingKey (hkey f)
    · rw [← h₁.indices]
      exact funext fun f => congrArg RecGroupEntryInner.sharedTypeIndices (hkey f)
    · intro i
      rw [← h₁.typeToRecGroup]
      exact h₂.typeToRecGroup i
    · intro i
      rw [← h₁.types]
      exact h₂.types i
    · simp only [h₂.removals, h₁.removals]
    · exact h₂.dropStack.trans h₁.dropStack
    · intro f
      rw [refs, ← h₁.count]
      exact congrArg RecGroupEntryInner.registrations (hkey f)

variable {reg' : TypeRegistryInner} {pushed : List ℕ}

/-- The references of the entries that stay lead where they led. -/
theorem Removed.refs_eq (hr : Removed reg reg' e pushed) (h : Inv reg roots zero)
    (he : e ∈ reg.hashConsingMap) (h0 : reg.count e = 0) {f : ℕ}
    (hf : f ∈ reg.hashConsingMap) : reg'.refs f = reg.refs f := by
  rw [refs, refs, hr.key]
  refine owners_congr fun i hi => ?_
  rw [hr.typeToRecGroup, if_neg]
  intro hie
  have hoi := (h.owner i e).2 ⟨he, hie⟩
  exact h.notMem_refs_of_count_zero h0 hf (mem_owners.2 ⟨i, hi, hoi⟩)

theorem Removed.allRefs_eq (hr : Removed reg reg' e pushed) (h : Inv reg roots zero)
    (he : e ∈ reg.hashConsingMap) (h0 : reg.count e = 0) :
    reg'.allRefs = (reg.hashConsingMap.erase e).flatMap reg.refs := by
  rw [allRefs, hr.hashConsingMap]
  refine List.flatMap_congr fun f hf => ?_
  exact hr.refs_eq h he h0 (List.mem_of_mem_erase hf)

/-- Removing an entry that nobody holds keeps the invariant; what it referred to may be held by
nobody now and is then on the drop stack. -/
theorem Removed.inv (hr : Removed reg reg' e pushed) (h : Inv reg roots zero)
    (he : e ∈ reg.hashConsingMap) (h0 : reg.count e = 0) : Inv reg' roots (pushed ++ zero) := by
  have hmem : ∀ f, f ∈ reg'.hashConsingMap ↔ f ≠ e ∧ f ∈ reg.hashConsingMap := fun f => by
    rw [hr.hashConsingMap, h.nodup.mem_erase_iff]
  have hown : ∀ i ∈ reg.indices e, reg.typeToRecGroup i = some e := fun i hi =>
    (h.owner i e).2 ⟨he, hi⟩
  refine ⟨?_, ?_, ?_, ?_, ?_, ?_, ?_, ?_, ?_, ?_, ?_, ?_⟩
  · rw [hr.hashConsingMap]
    exact h.nodup.erase e
  · intro f hf
    rw [hr.nextEntry]
    exact h.lt f ((hmem f).1 hf).2
  · intro f hf g hg hfg
    rw [hr.key] at hfg
    exact h.key_inj f ((hmem f).1 hf).2 g ((hmem g).1 hg).2 hfg
  · intro f
    rw [hr.count, hr.allRefs_eq h he h0, h.count f, allRefs_count he f]
    omega
  · intro f hf
    rw [hr.count] at hf
    refine (hmem f).2 ⟨?_, h.live f (by omega)⟩
    rintro rfl
    omega
  · intro f hf hf0
    rw [hr.count] at hf0
    have hle := h.count_refs_le he f
    have hf' := ((hmem f).1 hf).2
    by_cases hz : reg.count f = 0
    · exact List.mem_append_right _ (h.zero f hf' hz)
    · refine List.mem_append_left _ ((hr.mem_pushed f).2 ⟨?_, by omega⟩)
      exact List.count_pos_iff.1 (by omega)
  · intro i f
    rw [hr.typeToRecGroup, hr.indices, hmem]
    split_ifs with hi
    · simp only [false_iff]
      rintro ⟨⟨hfe, hf⟩, hif⟩
      exact hfe (h.owner_unique hf he hif hi)
    · rw [h.owner]
      constructor
      · rintro ⟨hf, hif⟩
        exact ⟨⟨fun hfe => hi (hfe ▸ hif), hf⟩, hif⟩
      · rintro ⟨⟨-, hf⟩, hif⟩
        exact ⟨hf, hif⟩
  · intro f hf
    rw [hr.indices]
    exact h.indices_nodup f ((hmem f).1 hf).2
  · intro i
    rw [Slab.mem_ids_iff, hr.types, hr.typeToRecGroup]
    split_ifs
    · simp
    · rw [← h.slab, Slab.mem_ids_iff]
  · intro f hf i hi
    rw [hr.key] at hi
    obtain ⟨g, hg, hgf⟩ := h.ref_lt f ((hmem f).1 hf).2 i hi
    refine ⟨g, ?_, hgf⟩
    rw [hr.typeToRecGroup, if_neg, hg]
    intro hie
    obtain rfl : e = g := Option.some_inj.1 ((hown i hie).symm.trans hg)
    exact h.notMem_refs_of_count_zero h0 ((hmem f).1 hf).2 (mem_owners.2 ⟨i, hi, hg⟩)
  · intro f hf
    rw [hr.key]
    exact h.canonical f ((hmem f).1 hf).2
  · intro f hf
    rw [hr.key, hr.indices]
    exact h.length f ((hmem f).1 hf).2

theorem Removed.ids_subset (hr : Removed reg reg' e pushed) {i : ℕ} (hi : i ∈ reg'.types.ids) :
    i ∈ reg.types.ids := by
  rw [Slab.mem_ids_iff, hr.types] at hi
  split_ifs at hi with hie
  · cases hi
  · exact Slab.mem_ids_iff.2 hi

theorem Removed.shrinks (hr : Removed reg reg' e pushed) (h : Inv reg roots zero)
    (he : e ∈ reg.hashConsingMap) : ∃ r, r.entry = e ∧ Shrinks reg reg' [r] := by
  refine ⟨⟨e, reg.refs e, (reg.indices e).map fun i => (i, some e)⟩, rfl, hr.key, hr.indices,
    hr.nextEntry, ?_, ?_, hr.removals, List.nodup_singleton _, ?_, ?_, ?_, ?_⟩
  · intro f hf
    rw [hr.hashConsingMap] at hf
    exact List.mem_of_mem_erase hf
  · intro i hi
    rw [Slab.mem_ids_iff, hr.types] at hi
    rw [hr.types]
    split_ifs at hi ⊢ with hie
    · cases hi
    · rfl
  · intro r hr'
    obtain rfl := List.mem_singleton.1 hr'
    rw [hr.hashConsingMap, h.nodup.mem_erase_iff]
    exact ⟨he, fun hne => hne.1 rfl⟩
  · intro f hf hf'
    rw [hr.hashConsingMap, h.nodup.mem_erase_iff] at hf'
    by_contra hne
    exact hf' ⟨fun heq => hne (by simp [heq]), hf⟩
  · intro r hr'
    obtain rfl := List.mem_singleton.1 hr'
    rfl
  · intro r hr'
    obtain rfl := List.mem_singleton.1 hr'
    exact length_owners _ (h.isSome_owner he)

/-- What reaches zero was counted before. -/
theorem Removed.totalCount_le (hr : Removed reg reg' e pushed) (h : Inv reg roots zero) :
    reg'.totalCount + pushed.length ≤ reg.totalCount := by
  have hpush : ∀ f ∈ pushed, reg'.count f + 1 ≤ reg.count f := by
    intro f hf
    obtain ⟨hm, hc⟩ := (hr.mem_pushed f).1 hf
    have := List.count_pos_iff.2 hm
    rw [hr.count]
    omega
  have hlt : ∀ f ∈ pushed, f < reg.nextEntry := fun f hf =>
    h.lt f (h.ref_mem ((hr.mem_pushed f).1 hf).1)
  have hsum : ∀ (g : TypeRegistryInner) n,
      ((List.range n).map g.count).sum = ∑ f ∈ Finset.range n, g.count f := fun _ _ => rfl
  have hcard : pushed.length = ∑ f ∈ Finset.range reg.nextEntry, if f ∈ pushed then 1 else 0 := by
    rw [← Finset.sum_filter, Finset.sum_const, smul_eq_mul, mul_one,
      ← List.toFinset_card_of_nodup hr.nodup]
    congr 1
    ext f
    simp only [List.mem_toFinset, Finset.mem_filter, Finset.mem_range]
    exact ⟨fun hf => ⟨hlt f hf, hf⟩, fun hf => hf.2⟩
  rw [totalCount, totalCount, hr.nextEntry, hsum, hsum, hcard, ← Finset.sum_add_distrib]
  refine Finset.sum_le_sum fun f _ => ?_
  have := hr.count f
  split_ifs with hf
  · exact hpush f hf
  · omega

end RemoveEntry

/-! ## The loop -/

theorem Inv.setDropStack {reg : TypeRegistryInner} {roots zero : List ℕ} (h : Inv reg roots zero)
    (stack : List ℕ) : Inv { reg with dropStack := stack } roots zero :=
  ⟨h.nodup, h.lt, h.key_inj, h.count, h.live, h.zero, h.owner, h.indices_nodup, h.slab, h.ref_lt,
    h.canonical, h.length⟩

theorem unregisterLoop_nil (debug : Bool) (fuel : ℕ) {reg : TypeRegistryInner}
    (h : reg.dropStack = []) : unregisterLoop debug fuel reg = .ok reg := by
  unfold unregisterLoop
  simp [h, pure, Except.pure]

theorem unregisterLoop_cons (debug : Bool) (fuel : ℕ) {reg : TypeRegistryInner} {e : ℕ}
    {stack : List ℕ} (h : reg.dropStack = e :: stack) :
    unregisterLoop debug (fuel + 1) reg =
      if reg.count e ≠ 0 then unregisterLoop debug fuel { reg with dropStack := stack }
      else removeEntry debug { reg with dropStack := stack } e >>= unregisterLoop debug fuel := by
  rw [unregisterLoop.eq_def]
  simp only [h]
  rfl

/-- The entries on the drop stack wait there once each, and nobody holds them. -/
structure StackOk (reg : TypeRegistryInner) : Prop where
  nodup : reg.dropStack.Nodup
  mem : ∀ e ∈ reg.dropStack, e ∈ reg.hashConsingMap
  count : ∀ e ∈ reg.dropStack, reg.count e = 0

theorem Removed.stackOk {reg reg' : TypeRegistryInner} {roots zero pushed : List ℕ} {e : ℕ}
    (hr : Removed reg reg' e pushed) (h : Inv reg roots zero) (h0 : reg.count e = 0)
    (hs : StackOk reg) (hne : e ∉ reg.dropStack) : StackOk reg' := by
  have hpush : ∀ f ∈ pushed, 0 < reg.count f := fun f hf => by
    obtain ⟨hm, hc⟩ := (hr.mem_pushed f).1 hf
    have := List.count_pos_iff.2 hm
    omega
  refine ⟨?_, ?_, ?_⟩
  · rw [hr.dropStack]
    refine hr.nodup.append hs.nodup fun f hf hf' => ?_
    have := hpush f hf
    have := hs.count f hf'
    omega
  · intro f hf
    rw [hr.dropStack] at hf
    rw [hr.hashConsingMap, h.nodup.mem_erase_iff]
    rcases List.mem_append.1 hf with hf | hf
    · refine ⟨?_, h.ref_mem ((hr.mem_pushed f).1 hf).1⟩
      rintro rfl
      have := hpush f hf
      omega
    · exact ⟨fun hfe => hne (hfe ▸ hf), hs.mem f hf⟩
  · intro f hf
    rw [hr.dropStack] at hf
    rw [hr.count]
    rcases List.mem_append.1 hf with hf | hf
    · have := ((hr.mem_pushed f).1 hf).2
      omega
    · have := hs.count f hf
      omega

/-- Entries on the drop stack that nobody holds are unregistered, with all that is then held by
nobody. -/
theorem unregisterLoop_spec (debug : Bool) {roots : List ℕ} (pending : List ℕ) (fuel : ℕ) :
    ∀ reg : TypeRegistryInner, Inv reg roots (reg.dropStack ++ pending) → StackOk reg →
    reg.totalCount + reg.dropStack.length ≤ fuel →
    ∃ reg' l, unregisterLoop debug fuel reg = .ok reg' ∧ Inv reg' roots pending
      ∧ reg'.dropStack = [] ∧ Shrinks reg reg' l ∧ ∀ i ∈ reg'.types.ids, i ∈ reg.types.ids := by
  induction fuel with
  | zero =>
    intro reg h _ hfuel
    have hs : reg.dropStack = [] := List.length_eq_zero_iff.1 (by omega)
    rw [hs, List.nil_append] at h
    exact ⟨reg, [], unregisterLoop_nil debug _ hs, h, hs, shrinks_refl reg, fun _ hi => hi⟩
  | succ fuel ih =>
    intro reg h hstack hfuel
    rcases hs : reg.dropStack with _ | ⟨e, stack⟩
    · rw [hs, List.nil_append] at h
      exact ⟨reg, [], unregisterLoop_nil debug _ hs, h, hs, shrinks_refl reg, fun _ hi => hi⟩
    have he : e ∈ reg.dropStack := by simp [hs]
    have h0 := hstack.count e he
    have hnd := hstack.nodup
    rw [hs, List.nodup_cons] at hnd
    let reg₀ : TypeRegistryInner := { reg with dropStack := stack }
    have hinv₀ : Inv reg₀ roots (e :: stack ++ pending) := by
      rw [hs] at h
      exact h.setDropStack stack
    have hstack₀ : StackOk reg₀ :=
      ⟨hnd.2, fun f hf => hstack.mem f (by rw [hs]; exact List.mem_cons_of_mem _ hf),
        fun f hf => hstack.count f (by rw [hs]; exact List.mem_cons_of_mem _ hf)⟩
    obtain ⟨reg₁, pushed, hrun₁, hr⟩ := removeEntry_eq debug hinv₀ (hstack.mem e he)
    have hinv₁ := hr.inv hinv₀ (hstack.mem e he) h0
    obtain ⟨r, -, hshr₁⟩ := hr.shrinks hinv₀ (hstack.mem e he)
    have htot : reg₁.totalCount + pushed.length ≤ reg.totalCount := hr.totalCount_le hinv₀
    have hds : reg₁.dropStack = pushed ++ stack := hr.dropStack
    have hzero : Inv reg₁ roots (reg₁.dropStack ++ pending) := by
      refine hinv₁.mono_zero fun f hf _ hz => ?_
      have hfe : f ≠ e := by
        rw [hr.hashConsingMap, hinv₀.nodup.mem_erase_iff] at hf
        exact hf.1
      rw [hds]
      simpa [hfe, or_assoc] using hz
    have hfuel₁ : reg₁.totalCount + reg₁.dropStack.length ≤ fuel := by
      rw [hs, List.length_cons] at hfuel
      rw [hds, List.length_append]
      omega
    obtain ⟨reg', l, hrun, hinv, hnil, hshr, hids⟩ :=
      ih reg₁ hzero (hr.stackOk hinv₀ h0 hstack₀ hnd.1) hfuel₁
    refine ⟨reg', l ++ [r], ?_, hinv, hnil, ?_, fun i hi => hr.ids_subset (hids i hi)⟩
    · rw [unregisterLoop_cons debug fuel hs, if_neg (by omega), hrun₁]
      exact hrun
    · exact (shrinks_trans hshr₁ hshr hids).ofDropStack

/-- Unregistering an entry that is still registered, whether or not it was resurrected: the loop
ends without a fault and the registry is consistent without it. -/
theorem unregisterEntry_spec (debug : Bool) {reg : TypeRegistryInner} {roots pending : List ℕ}
    {e : ℕ} (h : Inv reg roots (e :: pending)) (hnil : reg.dropStack = [])
    (he : e ∈ reg.hashConsingMap) :
    ∃ reg' l, reg.unregisterEntry debug e = .ok reg' ∧ Inv reg' roots pending
      ∧ reg'.dropStack = [] ∧ Shrinks reg reg' l ∧ ∀ i ∈ reg'.types.ids, i ∈ reg.types.ids := by
  have hdef : reg.unregisterEntry debug e
      = unregisterLoop debug (reg.totalCount + 1) { reg with dropStack := [e] } := by
    simp only [unregisterEntry, hnil, List.isEmpty_nil, debugAssert_true, bind, Except.bind]
    rfl
  rw [hdef]
  by_cases h0 : reg.count e = 0
  · have hstack : StackOk { reg with dropStack := [e] } := by
      refine ⟨List.nodup_singleton e, fun f hf => ?_, fun f hf => ?_⟩
      · exact List.mem_singleton.1 hf ▸ he
      · exact List.mem_singleton.1 hf ▸ h0
    obtain ⟨reg', l, hrun, hinv, hnil', hshr, hids⟩ := unregisterLoop_spec debug pending
      (reg.totalCount + 1) { reg with dropStack := [e] } (h.setDropStack [e]) hstack le_rfl
    exact ⟨reg', l, hrun, hinv, hnil', hshr.ofDropStack, hids⟩
  · refine ⟨{ reg with dropStack := [] }, [], ?_, ?_, rfl, ?_, fun _ hi => hi⟩
    · rw [unregisterLoop_cons debug _ rfl]
      exact (if_pos h0).trans (unregisterLoop_nil debug _ rfl)
    · refine (h.setDropStack []).mono_zero fun f _ hf0 hz => ?_
      rcases List.mem_cons.1 hz with rfl | hz
      · exact absurd hf0 h0
      · exact hz
    · exact shrinks_of_eq rfl rfl rfl rfl rfl rfl

/-- One holder of an entry is dropped. -/
theorem release_spec (debug : Bool) {reg : TypeRegistryInner} {roots pending : List ℕ} {e : ℕ}
    (h : Inv reg (e :: roots) pending) (hnil : reg.dropStack = []) :
    ∃ reg' l, reg.release debug e = .ok reg' ∧ Inv reg' roots pending ∧ reg'.dropStack = []
      ∧ Shrinks reg reg' l ∧ ∀ i ∈ reg'.types.ids, i ∈ reg.types.ids := by
  have hmem := h.mem_of_root List.mem_cons_self
  have hpos : 0 < reg.count e := by
    have := h.count e
    rw [List.count_cons_self] at this
    omega
  have hdef : reg.release debug e = if reg.count e = 1
      then (reg.setCount e (reg.count e - 1)).unregisterEntry debug e
      else .ok (reg.setCount e (reg.count e - 1)) := by
    simp only [release, decrRefCount_eq hpos, bind, Except.bind, decide_eq_true_eq]
    rfl
  have hkey := key_setCount reg e (reg.count e - 1)
  have hind := indices_setCount reg e (reg.count e - 1)
  rw [hdef]
  split_ifs with h1
  · obtain ⟨reg', l, hrun, hinv, hnil', hshr, hids⟩ :=
      unregisterEntry_spec debug h.decr hnil hmem
    exact ⟨reg', l, hrun, hinv, hnil', ⟨hshr.key.trans hkey, hshr.indices.trans hind,
      hshr.nextEntry, hshr.mem_map, hshr.types, hshr.removals, hshr.removed_nodup,
      hshr.removed_mem, hshr.gone, hind ▸ hshr.freed, hkey ▸ hshr.released⟩, hids⟩
  · refine ⟨_, [], rfl, h.decr.mono_zero fun f _ hf0 hz => ?_, hnil, ?_, fun _ hi => hi⟩
    · rcases List.mem_cons.1 hz with rfl | hz
      · rw [count_setCount, if_pos rfl] at hf0
        omega
      · exact hz
    · exact shrinks_of_eq hkey hind rfl rfl rfl rfl

end K23VM.TypeRegistryInner
