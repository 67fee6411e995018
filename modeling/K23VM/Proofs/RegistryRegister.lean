import K23VM.Proofs.RegistryInv

/-!
# Registering rec groups

A rec group that is registered either finds an entry with its key, which is then held once more, or
is new: `Registered` says what a new entry changes.  Both keep the invariant and leave the older
entries as they were, `registerRecGroup_spec`.
-/

namespace K23VM.TypeRegistryInner

/-! ## The parts of a registration -/

/-- The registry after the entries `targets` were held once more each. -/
structure Retained (reg reg' : TypeRegistryInner) (targets : List ℕ) : Prop where
  key : reg'.key = reg.key
  indices : reg'.indices = reg.indices
  nextEntry : reg'.nextEntry = reg.nextEntry
  hashConsingMap : reg'.hashConsingMap = reg.hashConsingMap
  typeToRecGroup : reg'.typeToRecGroup = reg.typeToRecGroup
  types : reg'.types = reg.types
  removals : reg'.removals = reg.removals
  dropStack : reg'.dropStack = reg.dropStack
  count : ∀ e, reg'.count e = reg.count e + targets.count e

theorem retainReferences_ok : ∀ (rs : List CanonicalizedTypeIndex) {reg reg' : TypeRegistryInner},
    reg.retainReferences rs = .ok reg' →
    (∀ i, .shared i ∈ rs → (reg.typeToRecGroup i).isSome)
      ∧ Retained reg reg' (owners reg.typeToRecGroup rs)
  | [], reg, reg', h => by
    obtain rfl := Except.ok.inj h
    exact ⟨by simp, by constructor <;> simp [owners]⟩
  | .recGroup _ :: rs, reg, reg', h => by
    obtain ⟨ho, hr⟩ := retainReferences_ok rs h
    exact ⟨fun i hi => ho i (by simpa using hi), hr⟩
  | .module _ :: rs, reg, reg', h => by
    obtain ⟨ho, hr⟩ := retainReferences_ok rs h
    exact ⟨fun i hi => ho i (by simpa using hi), hr⟩
  | .shared i :: rs, reg, reg', h => by
    obtain ⟨e, he, h⟩ := bind_eq_ok.1 h
    have he := unwrap_eq_ok.1 he
    obtain ⟨ho, hr⟩ := retainReferences_ok rs h
    have howner : owners reg.typeToRecGroup (.shared i :: rs)
        = e :: owners reg.typeToRecGroup rs := by
      simp [owners, he]
    refine ⟨fun j hj => ?_, ?_⟩
    · rcases List.mem_cons.1 hj with hj | hj
      · rw [CanonicalizedTypeIndex.shared.inj hj, he]
        rfl
      · exact ho j hj
    · rw [howner]
      refine ⟨hr.key.trans (key_setCount ..), hr.indices.trans (indices_setCount ..), hr.nextEntry,
        hr.hashConsingMap, hr.typeToRecGroup, hr.types, hr.removals, hr.dropStack, ?_⟩
      intro f
      rw [hr.count, incrRefCount, count_setCount, typeToRecGroup_setCount]
      by_cases hf : f = e
      · subst hf
        rw [if_pos rfl, List.count_cons_self]
        omega
      · rw [if_neg hf, List.count_cons_of_ne (Ne.symm hf)]

/-- The slab after types were put in it under new ids. -/
structure Inserted (π : SlabPolicy) (s t : Slab WasmSubType) (tys : List WasmSubType)
    (ids : List ℕ) : Prop where
  ids_eq : ids = Slab.nextIds π tys.length s.clock s.ids
  mem : ∀ i, i ∈ t.ids ↔ i ∈ ids ∨ i ∈ s.ids
  old : ∀ i, i ∉ ids → t.get i = s.get i
  new : List.Forall₂ (fun i ty => t.get i = some ty) ids tys

theorem inserted_cons {π : SlabPolicy} {s t : Slab WasmSubType} {ty : WasmSubType}
    {tys : List WasmSubType} {ids : List ℕ} (h : Inserted π (s.alloc π ty).2 t tys ids) :
    Inserted π s t (ty :: tys) (s.nextId π :: ids) := by
  have hnext : s.nextId π ∉ ids := fun hmem => by
    rw [h.ids_eq] at hmem
    exact Slab.notMem_of_mem_nextIds hmem List.mem_cons_self
  refine ⟨?_, ?_, ?_, ?_⟩
  · rw [h.ids_eq]
    rfl
  · intro i
    rw [h.mem, Slab.ids_alloc, List.mem_cons, List.mem_cons]
    tauto
  · intro i hi
    obtain ⟨hne, hi⟩ := List.ne_and_not_mem_of_not_mem_cons hi
    rw [h.old i hi, Slab.get_alloc, if_neg hne]
  · refine .cons ?_ h.new
    rw [h.old _ hnext, Slab.get_alloc, if_pos rfl]

theorem insertTypes_ok {debug : Bool} {π : SlabPolicy} {map : List ℕ} {start engineStart : ℕ} :
    ∀ {tys : List WasmSubType} {reg reg' : TypeRegistryInner} {ids : List ℕ},
    insertTypes debug π map start engineStart reg tys = .ok (reg', ids) →
    ∃ tys' types, tys.mapM (canonicalizeForRuntimeUsage (predictIndex map start engineStart))
        = .ok tys' ∧ reg' = { reg with types } ∧ Inserted π reg.types types tys' ids
  | [], reg, reg', ids, h => by
    obtain ⟨rfl, rfl⟩ := Prod.mk.inj (Except.ok.inj h)
    exact ⟨[], reg.types, rfl, rfl, ⟨rfl, by simp, by simp, .nil⟩⟩
  | ty :: tys, reg, reg', ids, h => by
    obtain ⟨ty', hty, h⟩ := bind_eq_ok.1 h
    obtain ⟨⟨reg₁, id⟩, h₁, h⟩ := bind_eq_ok.1 h
    obtain ⟨⟨reg₂, ids'⟩, h₂, h⟩ := bind_eq_ok.1 h
    obtain ⟨rfl, rfl⟩ := Prod.mk.inj (Except.ok.inj h)
    obtain ⟨-, -, h₁⟩ := bind_eq_ok.1 h₁
    obtain ⟨rfl, rfl⟩ := Prod.mk.inj (Except.ok.inj h₁)
    obtain ⟨tys', types, htys, rfl, hins⟩ := insertTypes_ok h₂
    refine ⟨ty' :: tys', types, ?_, rfl, inserted_cons hins⟩
    rw [List.mapM_cons, hty, htys]
    rfl

theorem setOwner_ok {debug : Bool} {e : ℕ} : ∀ {ids : List ℕ} {reg reg' : TypeRegistryInner},
    setOwner debug e reg ids = .ok reg' → ∃ owner, reg' = { reg with typeToRecGroup := owner }
      ∧ ∀ i, owner i = if i ∈ ids then some e else reg.typeToRecGroup i
  | [], reg, reg', h => by
    obtain rfl := Except.ok.inj h
    exact ⟨reg.typeToRecGroup, rfl, by simp⟩
  | id :: ids, reg, reg', h => by
    obtain ⟨-, -, h⟩ := bind_eq_ok.1 h
    obtain ⟨owner, rfl, ho⟩ := setOwner_ok h
    refine ⟨owner, rfl, fun i => ?_⟩
    rw [ho]
    by_cases hi : i = id
    · subst hi
      simp
    · simp [hi]

/-! ## A new entry -/

/-- What registering a new rec group changes: the entry `reg.nextEntry` with the key `k` and the
slab's next ids. -/
structure Registered (π : SlabPolicy) (reg reg' : TypeRegistryInner) (k : WasmRecGroup)
    (tys : List WasmSubType) (ids : List ℕ) : Prop where
  nextEntry : reg'.nextEntry = reg.nextEntry + 1
  hashConsingMap : reg'.hashConsingMap = reg.nextEntry :: reg.hashConsingMap
  key : ∀ f, reg'.key f = if f = reg.nextEntry then k else reg.key f
  indices : ∀ f, reg'.indices f = if f = reg.nextEntry then ids else reg.indices f
  count : ∀ f, reg'.count f = if f = reg.nextEntry then 1
    else reg.count f + (owners reg.typeToRecGroup (references k)).count f
  owned : ∀ i, .shared i ∈ references k → (reg.typeToRecGroup i).isSome
  typeToRecGroup : ∀ i,
    reg'.typeToRecGroup i = if i ∈ ids then some reg.nextEntry else reg.typeToRecGroup i
  types : Inserted π reg.types reg'.types tys ids
  dropStack : reg'.dropStack = reg.dropStack
  removals : reg'.removals = reg.removals

theorem hashConsingGet_eq {reg reg' : TypeRegistryInner} (hk : reg'.key = reg.key)
    (hm : reg'.hashConsingMap = reg.hashConsingMap) (k : WasmRecGroup) :
    reg'.hashConsingGet k = reg.hashConsingGet k := by
  simp only [hashConsingGet, hk, hm]

theorem registerRecGroup_cases {debug : Bool} {π : SlabPolicy} {reg reg' : TypeRegistryInner}
    {map : List ℕ} {range : ℕ × ℕ} {tys : List WasmSubType} {e : ℕ}
    (h : reg.registerRecGroup debug π map range tys = .ok (reg', e)) :
    ∃ k, hashConsingKey debug map range tys = .ok k ∧
      ((reg.hashConsingGet k = some e ∧ reg' = reg.incrRefCount e) ∨
        (reg.hashConsingGet k = none ∧ e = reg.nextEntry ∧ ∃ tys' ids,
          tys.mapM (canonicalizeForRuntimeUsage (predictIndex map range.1 reg.types.len))
            = .ok tys' ∧ Registered π reg reg' k tys' ids)) := by
  obtain ⟨-, -, h⟩ := bind_eq_ok.1 h
  obtain ⟨k, hk, h⟩ := bind_eq_ok.1 h
  refine ⟨k, hk, ?_⟩
  rcases hget : reg.hashConsingGet k with _ | entry
  · right
    simp only [hget] at h
    obtain ⟨reg₁, h₁, h⟩ := bind_eq_ok.1 h
    obtain ⟨start, hstart, h⟩ := bind_eq_ok.1 h
    obtain ⟨⟨reg₂, ids⟩, h₂, h⟩ := bind_eq_ok.1 h
    obtain ⟨⟨reg₃, entry⟩, h₃, h⟩ := bind_eq_ok.1 h
    obtain ⟨reg₄, h₄, h⟩ := bind_eq_ok.1 h
    obtain ⟨rfl, rfl⟩ := Prod.mk.inj (Except.ok.inj h)
    rw [trace_eq] at h₁
    obtain ⟨howned, hret⟩ := retainReferences_ok _ h₁
    obtain ⟨tys', types, htys, rfl, hins⟩ := insertTypes_ok h₂
    obtain ⟨-, -, h₃⟩ := bind_eq_ok.1 h₃
    obtain ⟨rfl, rfl⟩ := Prod.mk.inj (Except.ok.inj h₃)
    obtain ⟨owner, rfl, howner⟩ := setOwner_ok h₄
    have hstart : start = reg.types.len := by
      unfold toU32 at hstart
      split_ifs at hstart
      rw [← Except.ok.inj hstart, hret.types]
    subst hstart
    have hget₂ : hashConsingGet { reg₁ with types } k = none :=
      (hashConsingGet_eq hret.key hret.hashConsingMap k).trans hget
    refine ⟨rfl, hret.nextEntry, tys', ids, htys, ?_⟩
    constructor
    · simp [hret.nextEntry]
    · rw [← hret.nextEntry, ← hret.hashConsingMap]
      exact if_pos (by rw [hget₂]; rfl)
    · intro f
      rw [← hret.key, ← hret.nextEntry]
      by_cases hf : f = reg₁.nextEntry
      · simp [hf, key]
      · simp [hf, key]
    · intro f
      rw [← hret.indices, ← hret.nextEntry]
      by_cases hf : f = reg₁.nextEntry
      · simp [hf, indices]
      · simp [hf, indices]
    · intro f
      rw [← hret.count, ← hret.nextEntry]
      by_cases hf : f = reg₁.nextEntry
      · simp [hf, count]
      · simp [hf, count]
    · exact howned
    · intro i
      simp only [howner, hret.nextEntry, hret.typeToRecGroup]
    · rw [← hret.types]
      exact hins
    · exact hret.dropStack
    · exact hret.removals
  · left
    simp only [hget] at h
    obtain ⟨rfl, rfl⟩ := Prod.mk.inj (Except.ok.inj h)
    exact ⟨rfl, rfl⟩

/-! ## The invariant -/

/-- The entries of a registry that was only added to are as they were. -/
structure Extends (reg reg' : TypeRegistryInner) : Prop where
  nextEntry : reg.nextEntry ≤ reg'.nextEntry
  key : ∀ f < reg.nextEntry, reg'.key f = reg.key f
  indices : ∀ f < reg.nextEntry, reg'.indices f = reg.indices f
  mem_map : ∀ f ∈ reg.hashConsingMap, f ∈ reg'.hashConsingMap
  map_new : ∀ f ∈ reg'.hashConsingMap, f ∈ reg.hashConsingMap ∨ reg.nextEntry ≤ f
  new_mem : ∀ f, reg.nextEntry ≤ f → f < reg'.nextEntry → f ∈ reg'.hashConsingMap
  types : ∀ i ∈ reg.types.ids, reg'.types.get i = reg.types.get i
  removals : reg'.removals = reg.removals
  dropStack : reg'.dropStack = reg.dropStack

theorem extends_refl (reg : TypeRegistryInner) : Extends reg reg :=
  ⟨le_rfl, fun _ _ => rfl, fun _ _ => rfl, fun _ h => h, fun _ h => .inl h,
    fun _ h h' => absurd h' (Nat.not_lt.2 h), fun _ _ => rfl, rfl, rfl⟩

theorem extends_trans {reg₀ reg₁ reg₂ : TypeRegistryInner} (h₁ : Extends reg₀ reg₁)
    (h₂ : Extends reg₁ reg₂) (hs : ∀ i ∈ reg₀.types.ids, i ∈ reg₁.types.ids) :
    Extends reg₀ reg₂ where
  nextEntry := h₁.nextEntry.trans h₂.nextEntry
  key f hf := by rw [h₂.key f (hf.trans_le h₁.nextEntry), h₁.key f hf]
  indices f hf := by rw [h₂.indices f (hf.trans_le h₁.nextEntry), h₁.indices f hf]
  mem_map f hf := h₂.mem_map f (h₁.mem_map f hf)
  map_new f hf := by
    rcases h₂.map_new f hf with hf | hf
    · exact h₁.map_new f hf
    · exact .inr (h₁.nextEntry.trans hf)
  new_mem f hf hf' := by
    by_cases hf₁ : f < reg₁.nextEntry
    · exact h₂.mem_map f (h₁.new_mem f hf hf₁)
    · exact h₂.new_mem f (Nat.le_of_not_lt hf₁) hf'
  types i hi := by rw [h₂.types i (hs i hi), h₁.types i hi]
  removals := h₂.removals.trans h₁.removals
  dropStack := h₂.dropStack.trans h₁.dropStack

theorem extends_incr (reg : TypeRegistryInner) (e : ℕ) : Extends reg (reg.incrRefCount e) :=
  ⟨le_rfl, fun f _ => by rw [incrRefCount, key_setCount],
    fun f _ => by rw [incrRefCount, indices_setCount], fun _ h => h, fun _ h => .inl h,
    fun _ h h' => absurd h' (Nat.not_lt.2 h), fun _ _ => rfl, rfl, rfl⟩

section Registered

variable {π : SlabPolicy} {reg reg' : TypeRegistryInner} {k : WasmRecGroup}
  {tys : List WasmSubType} {ids roots zero : List ℕ}

theorem Registered.extends (hr : Registered π reg reg' k tys ids) : Extends reg reg' where
  nextEntry := by rw [hr.nextEntry]; omega
  key f hf := by rw [hr.key, if_neg hf.ne]
  indices f hf := by rw [hr.indices, if_neg hf.ne]
  mem_map f hf := by rw [hr.hashConsingMap]; exact List.mem_cons_of_mem _ hf
  map_new f hf := by
    rw [hr.hashConsingMap] at hf
    rcases List.mem_cons.1 hf with rfl | hf
    · exact .inr le_rfl
    · exact .inl hf
  new_mem f hf hf' := by
    rw [hr.nextEntry] at hf'
    obtain rfl : f = reg.nextEntry := by omega
    rw [hr.hashConsingMap]
    exact List.mem_cons_self
  types i hi := hr.types.old i fun hmem => by
    rw [hr.types.ids_eq] at hmem
    exact Slab.notMem_of_mem_nextIds hmem hi
  removals := hr.removals
  dropStack := hr.dropStack

/-- New ids have no owner yet. -/
theorem Registered.owner_none (hr : Registered π reg reg' k tys ids) (h : Inv reg roots zero)
    {i : ℕ} (hi : i ∈ ids) : reg.typeToRecGroup i = none := by
  rw [hr.types.ids_eq] at hi
  have := mt (h.slab i).2 (Slab.notMem_of_mem_nextIds hi)
  simpa using this

theorem Registered.refs_eq (hr : Registered π reg reg' k tys ids) (h : Inv reg roots zero) {f : ℕ}
    (hf : f ∈ reg.hashConsingMap) : reg'.refs f = reg.refs f := by
  rw [refs, refs, hr.key, if_neg (h.lt f hf).ne]
  refine owners_congr fun i hi => ?_
  obtain ⟨g, hg, -⟩ := h.ref_lt f hf i hi
  rw [hr.typeToRecGroup, if_neg]
  intro hmem
  rw [hr.owner_none h hmem] at hg
  cases hg

theorem Registered.refs_new (hr : Registered π reg reg' k tys ids) (h : Inv reg roots zero) :
    reg'.refs reg.nextEntry = owners reg.typeToRecGroup (references k) := by
  rw [refs, hr.key, if_pos rfl]
  refine owners_congr fun i hi => ?_
  rw [hr.typeToRecGroup, if_neg]
  intro hmem
  have := hr.owned i hi
  rw [hr.owner_none h hmem] at this
  cases this

theorem Registered.length_ids (hr : Registered π reg reg' k tys ids) : ids.length = tys.length := by
  rw [hr.types.ids_eq, Slab.length_nextIds]

theorem Registered.count_eq (hr : Registered π reg reg' k tys ids) (h : Inv reg roots zero)
    (f : ℕ) : reg'.count f = (reg.nextEntry :: roots).count f + reg'.allRefs.count f := by
  have hnew : reg.nextEntry ∉ reg.hashConsingMap := fun hm => (h.lt _ hm).false
  have hall : reg'.allRefs = owners reg.typeToRecGroup (references k) ++ reg.allRefs := by
    rw [allRefs, hr.hashConsingMap, List.flatMap_cons, hr.refs_new h]
    exact congrArg _ (List.flatMap_congr fun f hf => hr.refs_eq h hf)
  rw [hr.count, hall, List.count_append]
  have hf := h.count f
  by_cases hfe : f = reg.nextEntry
  · have h1 : roots.count f = 0 := List.count_eq_zero.2 fun hm => hnew (hfe ▸ h.mem_of_root hm)
    have h2 : (owners reg.typeToRecGroup (references k)).count f = 0 := List.count_eq_zero.2 fun hm => by
      obtain ⟨i, -, hi⟩ := mem_owners.1 hm
      exact hnew (hfe ▸ ((h.owner i f).1 hi).1)
    have h3 : reg.allRefs.count f = 0 := List.count_eq_zero.2 fun hm => by
      obtain ⟨g, -, hg⟩ := List.mem_flatMap.1 hm
      exact hnew (hfe ▸ h.ref_mem hg)
    subst hfe
    rw [if_pos rfl, List.count_cons_self]
    omega
  · rw [if_neg hfe, List.count_cons_of_ne (Ne.symm hfe)]
    omega

theorem Registered.owner_iff (hr : Registered π reg reg' k tys ids) (h : Inv reg roots zero)
    (i f : ℕ) : reg'.typeToRecGroup i = some f ↔ f ∈ reg'.hashConsingMap ∧ i ∈ reg'.indices f := by
  have hnew : reg.nextEntry ∉ reg.hashConsingMap := fun hm => (h.lt _ hm).false
  rw [hr.typeToRecGroup, hr.hashConsingMap, hr.indices, List.mem_cons]
  by_cases hfe : f = reg.nextEntry
  · subst hfe
    rw [if_pos rfl]
    split_ifs with hi
    · simp [hi]
    · simp only [hi, and_false, iff_false]
      exact fun hm => hnew ((h.owner i _).1 hm).1
  · rw [if_neg hfe]
    split_ifs with hi
    · simp only [Option.some.injEq, Ne.symm hfe, false_iff, hfe, false_or]
      intro hm
      have := (h.owner i f).2 hm
      rw [hr.owner_none h hi] at this
      cases this
    · simp only [hfe, false_or]
      exact h.owner i f

theorem Registered.inv (hr : Registered π reg reg' k tys ids) (h : Inv reg roots zero)
    (hget : reg.hashConsingGet k = none) (hcanon : isCanonicalizedForHashConsing k = true)
    (hlen : k.types.length = tys.length) : Inv reg' (reg.nextEntry :: roots) zero := by
  have hnew : reg.nextEntry ∉ reg.hashConsingMap := fun hm => (h.lt _ hm).false
  have hkey : ∀ f ∈ reg.hashConsingMap, reg.key f ≠ k := by
    simpa [hashConsingGet, List.find?_eq_none] using hget
  have hmem : ∀ f, f ∈ reg'.hashConsingMap ↔ f = reg.nextEntry ∨ f ∈ reg.hashConsingMap := by
    simp [hr.hashConsingMap]
  have hold : ∀ f ∈ reg.hashConsingMap, f ≠ reg.nextEntry := fun f hf => (h.lt f hf).ne
  refine ⟨?_, ?_, ?_, hr.count_eq h, ?_, ?_, hr.owner_iff h, ?_, ?_, ?_, ?_, ?_⟩
  · rw [hr.hashConsingMap]
    exact List.nodup_cons.2 ⟨hnew, h.nodup⟩
  · intro f hf
    rw [hr.nextEntry]
    rcases (hmem f).1 hf with rfl | hf
    · omega
    · have := h.lt f hf
      omega
  · intro f hf g hg hfg
    rw [hr.key, hr.key] at hfg
    rcases (hmem f).1 hf with rfl | hf <;> rcases (hmem g).1 hg with rfl | hg
    · rfl
    · rw [if_pos rfl, if_neg (hold g hg)] at hfg
      exact absurd hfg.symm (hkey g hg)
    · rw [if_pos rfl, if_neg (hold f hf)] at hfg
      exact absurd hfg (hkey f hf)
    · rw [if_neg (hold f hf), if_neg (hold g hg)] at hfg
      exact h.key_inj f hf g hg hfg
  · intro f hf
    rw [hr.count] at hf
    split_ifs at hf with hfe
    · exact (hmem f).2 (.inl hfe)
    · refine (hmem f).2 (.inr ?_)
      by_cases h0 : 0 < reg.count f
      · exact h.live f h0
      · have hpos : 0 < (owners reg.typeToRecGroup (references k)).count f := by omega
        obtain ⟨i, -, hi⟩ := mem_owners.1 (List.count_pos_iff.1 hpos)
        exact ((h.owner i f).1 hi).1
  · intro f hf h0
    rw [hr.count] at h0
    split_ifs at h0 with hfe
    rcases (hmem f).1 hf with rfl | hf
    · exact absurd rfl hfe
    · exact h.zero f hf (by omega)
  · intro f hf
    rw [hr.indices]
    split_ifs with hfe
    · rw [hr.types.ids_eq]
      exact Slab.nodup_nextIds _ _ _
    · exact h.indices_nodup f (((hmem f).1 hf).resolve_left hfe)
  · intro i
    rw [hr.types.mem, hr.typeToRecGroup, h.slab]
    split_ifs with hi <;> simp [hi]
  · intro f hf i hi
    rw [hr.key] at hi
    rw [hr.typeToRecGroup]
    split_ifs at hi with hfe
    · obtain ⟨g, hg⟩ := Option.isSome_iff_exists.1 (hr.owned i hi)
      have hni : i ∉ ids := fun hm => by
        rw [hr.owner_none h hm] at hg
        cases hg
      rw [if_neg hni, hfe]
      exact ⟨g, hg, h.lt g ((h.owner i g).1 hg).1⟩
    · obtain ⟨g, hg, hgf⟩ := h.ref_lt f (((hmem f).1 hf).resolve_left hfe) i hi
      have hni : i ∉ ids := fun hm => by
        rw [hr.owner_none h hm] at hg
        cases hg
      rw [if_neg hni]
      exact ⟨g, hg, hgf⟩
  · intro f hf
    rw [hr.key]
    split_ifs with hfe
    · exact hcanon
    · exact h.canonical f (((hmem f).1 hf).resolve_left hfe)
  · intro f hf
    rw [hr.key, hr.indices]
    split_ifs with hfe
    · rw [hr.length_ids, hlen]
    · exact h.length f (((hmem f).1 hf).resolve_left hfe)

end Registered

/-! ## Registering a group -/

theorem hashConsingKey_ok {debug : Bool} {map : List ℕ} {range : ℕ × ℕ} {tys : List WasmSubType}
    {k : WasmRecGroup} : hashConsingKey debug map range tys = .ok k ↔
      traceMut (hashConsingIndex debug range (mapIndex debug map range)) tys = .ok k.types := by
  unfold hashConsingKey
  rw [bind_eq_ok]
  constructor
  · rintro ⟨ts, hts, hk⟩
    obtain rfl := Except.ok.inj hk
    exact hts
  · intro h
    exact ⟨k.types, h, rfl⟩

theorem hashConsingIndex_ne_module {debug : Bool} {range : ℕ × ℕ} {f : ℕ → Except Fault ℕ}
    {i : CanonicalizedTypeIndex} {m : ℕ} : hashConsingIndex debug range f i ≠ .ok (.module m) := by
  intro h
  cases i with
  | shared i => cases Except.ok.inj h
  | recGroup i => cases h
  | module i =>
    simp only [hashConsingIndex] at h
    split_ifs at h
    all_goals
      obtain ⟨_, -, h⟩ := bind_eq_ok.1 h
      cases Except.ok.inj h

theorem isCanonicalized_of_hashConsingKey {debug : Bool} {map : List ℕ} {range : ℕ × ℕ}
    {tys : List WasmSubType} {k : WasmRecGroup} (h : hashConsingKey debug map range tys = .ok k) :
    isCanonicalizedForHashConsing k = true := by
  rw [isCanonicalizedForHashConsing, List.all_eq_true, trace_eq]
  intro r hr
  obtain ⟨i, -, hi⟩ := exists_of_mem_mapM (mapM_references (hashConsingKey_ok.1 h)) hr
  cases r with
  | module m => exact absurd hi hashConsingIndex_ne_module
  | _ => rfl

/-- What a registration of a rec group leaves behind: the entry is held once more, its key is the
group's, and everything older is as it was. -/
theorem registerRecGroup_spec {debug : Bool} {π : SlabPolicy} {reg reg' : TypeRegistryInner}
    {map : List ℕ} {range : ℕ × ℕ} {tys : List WasmSubType} {e : ℕ} {roots zero : List ℕ}
    (h : reg.registerRecGroup debug π map range tys = .ok (reg', e)) (hinv : Inv reg roots zero) :
    Inv reg' (e :: roots) zero ∧ Extends reg reg' ∧ (∀ i ∈ reg.types.ids, i ∈ reg'.types.ids)
      ∧ hashConsingKey debug map range tys = .ok (reg'.key e) := by
  obtain ⟨k, hk, ⟨hget, rfl⟩ | ⟨hget, rfl, tys', ids, htys, hr⟩⟩ := registerRecGroup_cases h
  · have hmem : e ∈ reg.hashConsingMap := List.mem_of_find?_eq_some hget
    have hkey : reg.key e = k := by simpa using List.find?_some hget
    refine ⟨hinv.incr hmem, extends_incr reg e, fun _ hi => hi, ?_⟩
    rw [incrRefCount, key_setCount, hkey, hk]
  · have hlen : k.types.length = tys'.length := by
      rw [mapM_ok_length (hashConsingKey_ok.1 hk), mapM_ok_length htys]
    refine ⟨hr.inv hinv hget (isCanonicalized_of_hashConsingKey hk) hlen, hr.extends,
      fun i hi => (hr.types.mem i).2 (.inr hi), ?_⟩
    rw [hr.key, if_pos rfl, hk]

end K23VM.TypeRegistryInner
