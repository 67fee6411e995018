import K23VM.RegistryRuns
import K23VM.Proofs.RegistryRegister
import K23VM.Proofs.RegistryUnregister

/-!
# The invariant along runs of the registry

A live collection stays what it was made as: each of its groups is held by an entry with the
group's key, and the collection's indices are those of the entry (`GroupOk`).  With the invariant
of the registry this holds in every reachable state, `reachable_inv`, and from there no operation
that gives up a handle can fail, `step_ok`.
-/

namespace K23VM

open TypeRegistryInner

/-! ## Collections -/

/-- The entry `e` is what registering the group `g` of a module led to. -/
structure GroupOk (reg : TypeRegistryInner) (wasmTypes : List WasmSubType) (map : List ℕ)
    (g : ℕ × ℕ) (e : ℕ) : Prop where
  mem : e ∈ reg.hashConsingMap
  le : g.2 ≤ map.length
  key : ∃ tys, groupTypes wasmTypes g = .ok tys ∧ hashConsingKey false map g tys = .ok (reg.key e)
  indices : reg.indices e = (map.drop g.1).take (g.2 - g.1)

/-- The entries `entries` are what registering the groups of a module led to, and `map` says where
each of its types is. -/
structure CollectionOk (reg : TypeRegistryInner) (wasmTypes : List WasmSubType)
    (groups : List (ℕ × ℕ)) (entries map : List ℕ) : Prop where
  consecutive : Consecutive 0 groups map.length
  groups : List.Forall₂ (GroupOk reg wasmTypes map) groups entries

section Groups

variable {reg reg' : TypeRegistryInner} {wasmTypes : List WasmSubType} {map : List ℕ}
  {g : ℕ × ℕ} {e : ℕ}

theorem GroupOk.extends (h : GroupOk reg wasmTypes map g e) (hx : Extends reg reg')
    (hlt : e < reg.nextEntry) : GroupOk reg' wasmTypes map g e := by
  refine ⟨hx.mem_map e h.mem, h.le, ?_, ?_⟩
  · rw [hx.key e hlt]
    exact h.key
  · rw [hx.indices e hlt, h.indices]

theorem GroupOk.shrinks (h : GroupOk reg wasmTypes map g e) {l : List Removal}
    (hs : Shrinks reg reg' l) (he : e ∈ reg'.hashConsingMap) : GroupOk reg' wasmTypes map g e := by
  refine ⟨he, h.le, ?_, ?_⟩
  · rw [hs.key]
    exact h.key
  · rw [hs.indices, h.indices]

theorem mapIndex_ok {debug : Bool} {i j : ℕ} (h : mapIndex debug map g i = .ok j) :
    map[i]? = some j := by
  obtain ⟨_, -, h⟩ := bind_eq_ok.1 h
  exact unwrap_eq_ok.1 h

theorem hashConsingIndex_mono {debug : Bool} {map' : List ℕ} {r r' : CanonicalizedTypeIndex}
    (hmap : ∀ i j : ℕ, map[i]? = some j → map'[i]? = some j)
    (h : hashConsingIndex debug g (mapIndex debug map g) r = .ok r') :
    hashConsingIndex false g (mapIndex false map' g) r = .ok r' := by
  cases r with
  | shared i => exact h
  | recGroup i => cases h
  | module m =>
    simp only [hashConsingIndex] at h ⊢
    split_ifs at h ⊢ with hm
    · obtain ⟨_, -, h⟩ := bind_eq_ok.1 h
      exact h
    · obtain ⟨j, hj, h⟩ := bind_eq_ok.1 h
      have := hmap m j (mapIndex_ok hj)
      simp only [mapIndex, debugAssert_release, this, unwrap_some, bind, Except.bind]
      exact h

theorem hashConsingKey_mono {debug : Bool} {map' : List ℕ} {tys : List WasmSubType}
    {k : WasmRecGroup} (hmap : ∀ i j : ℕ, map[i]? = some j → map'[i]? = some j)
    (h : hashConsingKey debug map g tys = .ok k) : hashConsingKey false map' g tys = .ok k := by
  rw [hashConsingKey_ok] at h ⊢
  exact traceMut_mono h fun r _ r' hr => hashConsingIndex_mono hmap hr

theorem GroupOk.append (h : GroupOk reg wasmTypes map g e) (is : List ℕ) :
    GroupOk reg wasmTypes (map ++ is) g e := by
  have hle := h.le
  refine ⟨h.mem, ?_, ?_, ?_⟩
  · rw [List.length_append]
    omega
  · obtain ⟨tys, htys, hk⟩ := h.key
    refine ⟨tys, htys, hashConsingKey_mono (fun i j hij => ?_) hk⟩
    rw [List.getElem?_append_left (List.getElem?_eq_some_iff.1 hij).1, hij]
  · rw [h.indices]
    by_cases hg : g.1 ≤ map.length
    · rw [List.drop_append_of_le_length hg, List.take_append_of_le_length]
      rw [List.length_drop]
      omega
    · have h0 : g.2 - g.1 = 0 := by omega
      rw [h0, List.take_zero, List.take_zero]

end Groups

theorem pushIndices_ok : ∀ {n start : ℕ} {map is map' : List ℕ},
    pushIndices start map n is = .ok map' → map' = map ++ is.take n
  | 0, _, _, _, _, h => by
    simp [← Except.ok.inj h]
  | n + 1, _, _, [], _, h => by
    simp [← Except.ok.inj h]
  | n + 1, _, _, i :: is, _, h => by
    obtain ⟨_, -, h⟩ := bind_eq_ok.1 h
    rw [pushIndices_ok h]
    simp

theorem groupTypes_length {wasmTypes : List WasmSubType} {g : ℕ × ℕ} {tys : List WasmSubType}
    (h : groupTypes wasmTypes g = .ok tys) : tys.length = g.2 - g.1 := by
  rw [mapM_ok_length h, List.length_range']

theorem consecutive_append : ∀ {groups : List (ℕ × ℕ)} {a b : ℕ} {g : ℕ × ℕ},
    Consecutive a groups b → g.1 = b → g.1 ≤ g.2 → Consecutive a (groups ++ [g]) g.2
  | [], _, _, _, rfl, hg, hle => ⟨hg, hle, rfl⟩
  | _ :: _, _, _, _, h, hg, hle => ⟨h.1, h.2.1, consecutive_append h.2.2 hg hle⟩

/-- Registering the remaining groups of a module extends the collection made so far. -/
theorem registerGroups_spec {debug : Bool} {π : SlabPolicy} {wasmTypes : List WasmSubType}
    {roots zero : List ℕ} {stop : ℕ} : ∀ {ranges done : List (ℕ × ℕ)} {reg reg' : TypeRegistryInner}
    {entries map entries' map' : List ℕ},
    registerGroups debug π wasmTypes reg entries map ranges = .ok (reg', entries', map') →
    Inv reg (entries ++ roots) zero → CollectionOk reg wasmTypes done entries map →
    Consecutive map.length ranges stop →
    Inv reg' (entries' ++ roots) zero ∧ CollectionOk reg' wasmTypes (done ++ ranges) entries' map'
      ∧ Extends reg reg' ∧ (∀ i ∈ reg.types.ids, i ∈ reg'.types.ids) ∧ map'.length = stop
  | [], done, reg, reg', entries, map, entries', map', h, hinv, hok, hcons => by
    obtain ⟨rfl, hp⟩ := Prod.mk.inj (Except.ok.inj h)
    obtain ⟨rfl, rfl⟩ := Prod.mk.inj hp
    rw [List.append_nil]
    exact ⟨hinv, hok, extends_refl reg, fun _ hi => hi, hcons⟩
  | range :: ranges, done, reg, reg', entries, map, entries', map', h, hinv, hok, hcons => by
    obtain ⟨tys, htys, h⟩ := bind_eq_ok.1 h
    obtain ⟨⟨reg₁, e⟩, hreg, h⟩ := bind_eq_ok.1 h
    obtain ⟨map₁, hpush, h⟩ := bind_eq_ok.1 h
    obtain ⟨hstart, hle, hcons⟩ := hcons
    obtain ⟨hinv₁, hext, hids, hkey⟩ := registerRecGroup_spec hreg hinv
    have hmem₁ : e ∈ reg₁.hashConsingMap := hinv₁.mem_of_root List.mem_cons_self
    have hlen : (reg₁.indices e).length = range.2 - range.1 := by
      rw [hinv₁.length e hmem₁, mapM_ok_length (hashConsingKey_ok.1 hkey), groupTypes_length htys]
    have hmap₁ : map₁ = map ++ reg₁.indices e := by
      rw [pushIndices_ok hpush, List.take_of_length_le hlen.le]
    have hlen₁ : map₁.length = range.2 := by
      rw [hmap₁, List.length_append, hlen]
      omega
    have hgroup : GroupOk reg₁ wasmTypes map₁ range e := by
      refine ⟨hmem₁, hlen₁.ge, ⟨tys, htys, hashConsingKey_mono (fun i j hij => ?_) hkey⟩, ?_⟩
      · rw [hmap₁, List.getElem?_append_left (List.getElem?_eq_some_iff.1 hij).1, hij]
      · rw [hmap₁, hstart, List.drop_left, List.take_of_length_le (by omega)]
    have hok₁ : CollectionOk reg₁ wasmTypes (done ++ [range]) (entries ++ [e]) map₁ := by
      refine ⟨?_, ?_⟩
      · rw [hlen₁]
        exact consecutive_append hok.consecutive hstart hle
      · refine List.rel_append (hok.groups.imp fun g f hf => ?_) (.cons hgroup .nil)
        rw [hmap₁]
        exact (hf.extends hext (hinv.lt f hf.mem)).append _
    have hinv₂ : Inv reg₁ (entries ++ [e] ++ roots) zero :=
      hinv₁.roots_perm (by simpa using List.perm_middle.symm)
    obtain ⟨hinv', hok', hext', hids', hlen'⟩ :=
      registerGroups_spec h hinv₂ hok₁ (hlen₁ ▸ hcons)
    refine ⟨hinv', ?_, extends_trans hext hext' hids, fun i hi => hids' i (hids i hi), hlen'⟩
    rwa [List.append_assoc] at hok'

theorem CollectionOk.extends {reg reg' : TypeRegistryInner} {wasmTypes : List WasmSubType}
    {groups : List (ℕ × ℕ)} {entries map roots zero : List ℕ}
    (h : CollectionOk reg wasmTypes groups entries map) (hx : Extends reg reg')
    (hinv : Inv reg roots zero) : CollectionOk reg' wasmTypes groups entries map :=
  ⟨h.consecutive, h.groups.imp fun _ f hf => hf.extends hx (hinv.lt f hf.mem)⟩

theorem CollectionOk.shrinks {reg reg' : TypeRegistryInner} {wasmTypes : List WasmSubType}
    {groups : List (ℕ × ℕ)} {entries map : List ℕ} {l : List Removal}
    (h : CollectionOk reg wasmTypes groups entries map) (hs : Shrinks reg reg' l)
    (he : ∀ e ∈ entries, e ∈ reg'.hashConsingMap) :
    CollectionOk reg' wasmTypes groups entries map :=
  ⟨h.consecutive, forall₂_imp_mem h.groups fun _ _ f hf hg => hg.shrinks hs (he f hf)⟩

/-! ## Reachable states -/

/-- The handles are good, when the entries in `zero` may be registered without a holder. -/
structure EngineInv (s : EngineState) (zero : List ℕ) : Prop where
  inv : Inv s.reg s.roots zero
  dropStack : s.reg.dropStack = []
  collections : ∀ p ∈ s.collections, p.1.WF
    ∧ CollectionOk s.reg p.1.wasmTypes p.1.recGroups p.2.recGroups p.2.types
    ∧ p.2.types.length = p.1.wasmTypes.length
  registered : ∀ r ∈ s.registered, r.index ∈ s.reg.indices r.entry
    ∧ s.reg.types.get r.index = some r.ty

theorem engineInv_new : EngineInv EngineState.new [] where
  inv := inv_new
  dropStack := rfl
  collections := by simp [EngineState.new]
  registered := by simp [EngineState.new]

section Engine

variable {debug : Bool} {π : SlabPolicy} {s s' : EngineState} {zero : List ℕ}

theorem mem_roots_of_collection {p : ModuleTypes × RuntimeTypeCollection} {e : ℕ}
    (hp : p ∈ s.collections) (he : e ∈ p.2.recGroups) : e ∈ s.roots :=
  List.mem_append_left _ (List.mem_flatMap.2 ⟨p, hp, he⟩)

theorem mem_roots_of_registered {r : RegisteredType} (hr : r ∈ s.registered) :
    r.entry ∈ s.roots :=
  List.mem_append_right _ (List.mem_map.2 ⟨r, hr, rfl⟩)

/-- Handles are as good after the registry was added to. -/
theorem EngineInv.extends (h : EngineInv s zero) {reg' : TypeRegistryInner}
    (hx : Extends s.reg reg') : (∀ p ∈ s.collections, p.1.WF
        ∧ CollectionOk reg' p.1.wasmTypes p.1.recGroups p.2.recGroups p.2.types
        ∧ p.2.types.length = p.1.wasmTypes.length)
      ∧ ∀ r ∈ s.registered, r.index ∈ reg'.indices r.entry
        ∧ reg'.types.get r.index = some r.ty := by
  refine ⟨fun p hp => ?_, fun r hr => ?_⟩
  · obtain ⟨hwf, hok, hlen⟩ := h.collections p hp
    exact ⟨hwf, hok.extends hx h.inv, hlen⟩
  · obtain ⟨hi, ht⟩ := h.registered r hr
    have hmem := h.inv.mem_of_root (mem_roots_of_registered hr)
    rw [hx.indices _ (h.inv.lt _ hmem), hx.types, ht]
    · exact ⟨hi, rfl⟩
    · exact Slab.mem_ids_iff.2 (by simp [ht])

/-- Handles that still hold their entries are as good after others were unregistered. -/
theorem EngineInv.shrinks (h : EngineInv s zero) {reg' : TypeRegistryInner} {l : List Removal}
    {roots zero' : List ℕ} (hs : Shrinks s.reg reg' l) (hinv : Inv reg' roots zero') :
    (∀ p ∈ s.collections, (∀ e ∈ p.2.recGroups, e ∈ roots) → p.1.WF
        ∧ CollectionOk reg' p.1.wasmTypes p.1.recGroups p.2.recGroups p.2.types
        ∧ p.2.types.length = p.1.wasmTypes.length)
      ∧ ∀ r ∈ s.registered, r.entry ∈ roots → r.index ∈ reg'.indices r.entry
        ∧ reg'.types.get r.index = some r.ty := by
  refine ⟨fun p hp he => ?_, fun r hr he => ?_⟩
  · obtain ⟨hwf, hok, hlen⟩ := h.collections p hp
    exact ⟨hwf, hok.shrinks hs fun e hm => hinv.mem_of_root (he e hm), hlen⟩
  · obtain ⟨hi, ht⟩ := h.registered r hr
    rw [hs.indices]
    refine ⟨hi, ?_⟩
    have hmem := hinv.mem_of_root he
    have hown : reg'.typeToRecGroup r.index = some r.entry :=
      (hinv.owner _ _).2 ⟨hmem, by rw [hs.indices]; exact hi⟩
    rw [hs.types _ ((hinv.slab _).2 (by simp [hown])), ht]

theorem unregisterTypeCollection_spec (debug : Bool) {roots pending : List ℕ} :
    ∀ (entries : List ℕ) (reg : TypeRegistryInner), Inv reg (entries ++ roots) pending →
    reg.dropStack = [] →
    ∃ reg' l, unregisterTypeCollection debug reg entries = .ok reg' ∧ Inv reg' roots pending
      ∧ reg'.dropStack = [] ∧ Shrinks reg reg' l ∧ ∀ i ∈ reg'.types.ids, i ∈ reg.types.ids
  | [], reg, h, hnil => ⟨reg, [], rfl, h, hnil, shrinks_refl reg, fun _ hi => hi⟩
  | e :: entries, reg, h, hnil => by
    obtain ⟨reg₁, l₁, hrun₁, hinv₁, hnil₁, hs₁, hids₁⟩ := release_spec debug h hnil
    obtain ⟨reg₂, l₂, hrun₂, hinv₂, hnil₂, hs₂, hids₂⟩ :=
      unregisterTypeCollection_spec debug entries reg₁ hinv₁ hnil₁
    refine ⟨reg₂, l₂ ++ l₁, ?_, hinv₂, hnil₂, shrinks_trans hs₁ hs₂ hids₂,
      fun i hi => hids₁ i (hids₂ i hi)⟩
    rw [unregisterTypeCollection, hrun₁]
    exact hrun₂

theorem roots_eraseIdx_collection {n : ℕ} {p : ModuleTypes × RuntimeTypeCollection}
    (h : s.collections[n]? = some p) (reg : TypeRegistryInner) :
    s.roots.Perm (p.2.recGroups
      ++ EngineState.roots { s with reg, collections := s.collections.eraseIdx n }) := by
  obtain ⟨hn, rfl⟩ := List.getElem?_eq_some_iff.1 h
  have hp := (List.getElem_cons_eraseIdx_perm hn).flatMap_right fun p => p.2.recGroups
  rw [List.flatMap_cons] at hp
  simpa [EngineState.roots] using hp.symm.append_right (s.registered.map RegisteredType.entry)

theorem roots_eraseIdx_registered {n : ℕ} {r : RegisteredType}
    (h : s.registered[n]? = some r) (reg : TypeRegistryInner) :
    s.roots.Perm (r.entry
      :: EngineState.roots { s with reg, registered := s.registered.eraseIdx n }) := by
  obtain ⟨hn, rfl⟩ := List.getElem?_eq_some_iff.1 h
  have hp := (List.getElem_cons_eraseIdx_perm hn).map RegisteredType.entry
  rw [List.map_cons] at hp
  exact (hp.symm.append_left _).trans List.perm_middle

theorem dropCollection_spec (debug : Bool) (h : EngineInv s zero) {n : ℕ}
    {p : ModuleTypes × RuntimeTypeCollection} (hn : s.collections[n]? = some p) :
    ∃ reg', EngineState.dropCollection debug s.reg p.2 = .ok reg'
      ∧ EngineInv { s with reg := reg', collections := s.collections.eraseIdx n } zero
      ∧ ∃ l, Shrinks s.reg reg' l := by
  have hinv := h.inv.roots_perm (roots_eraseIdx_collection hn s.reg)
  obtain ⟨reg', l, hrun, hinv', hnil, hs, hids⟩ :=
    unregisterTypeCollection_spec debug p.2.recGroups s.reg hinv h.dropStack
  have hok : EngineState.dropCollection debug s.reg p.2 = .ok reg' := by
    unfold EngineState.dropCollection
    split_ifs with he
    · rw [List.isEmpty_iff.1 he] at hrun
      exact hrun
    · exact hrun
  obtain ⟨hcoll, hreg⟩ := h.shrinks hs hinv'
  refine ⟨reg', hok, ⟨hinv', hnil, fun q hq => ?_, fun r hr => ?_⟩, l, hs⟩
  · exact hcoll q (List.mem_of_mem_eraseIdx hq) fun e he =>
      mem_roots_of_collection (s := { s with collections := s.collections.eraseIdx n }) hq he
  · exact hreg r hr (List.mem_append_right _ (List.mem_map.2 ⟨r, hr, rfl⟩))

theorem dropType_spec (debug : Bool) (h : EngineInv s zero) {n : ℕ} {r : RegisteredType}
    (hn : s.registered[n]? = some r) :
    ∃ reg', s.reg.release debug r.entry = .ok reg'
      ∧ EngineInv { s with reg := reg', registered := s.registered.eraseIdx n } zero
      ∧ ∃ l, Shrinks s.reg reg' l := by
  have hinv := h.inv.roots_perm (roots_eraseIdx_registered hn s.reg)
  obtain ⟨reg', l, hrun, hinv', hnil, hs, hids⟩ := release_spec debug hinv h.dropStack
  obtain ⟨hcoll, hreg⟩ := h.shrinks hs hinv'
  refine ⟨reg', hrun, ⟨hinv', hnil, fun q hq => ?_, fun q hq => ?_⟩, l, hs⟩
  · exact hcoll q hq fun e he => List.mem_append_left _ (List.mem_flatMap.2 ⟨q, hq, he⟩)
  · exact hreg q (List.mem_of_mem_eraseIdx hq) (List.mem_append_right _
      (List.mem_map.2 ⟨q, hq, rfl⟩))

theorem getType_spec (debug : Bool) (h : EngineInv s zero) (index : ℕ) :
    ∃ reg' handle, s.reg.getType debug index = .ok (reg', handle)
      ∧ EngineInv { s with reg := reg', registered := handle.toList ++ s.registered } zero
      ∧ Extends s.reg reg' ∧ reg'.hashConsingMap = s.reg.hashConsingMap := by
  unfold getType
  rcases ht : s.reg.types.get index with _ | ty
  · exact ⟨s.reg, none, rfl, ⟨h.inv, h.dropStack, h.collections, h.registered⟩,
      extends_refl _, rfl⟩
  · have hid : index ∈ s.reg.types.ids := Slab.mem_ids_iff.2 (by simp [ht])
    obtain ⟨e, he⟩ := Option.isSome_iff_exists.1 ((h.inv.slab index).1 hid)
    obtain ⟨hmem, hie⟩ := (h.inv.owner index e).1 he
    obtain ⟨hcoll, hreg⟩ := h.extends (extends_incr s.reg e)
    have hcount : decide ((s.reg.incrRefCount e).count e ≠ 0) = true := by
      rw [incrRefCount, count_setCount, if_pos rfl]
      simp
    refine ⟨s.reg.incrRefCount e, some ⟨e, ty, index⟩, ?_, ⟨?_, h.dropStack, hcoll, ?_⟩,
      extends_incr s.reg e, rfl⟩
    · simp only [he, unwrap_some, hcount, debugAssert_true, bind, Except.bind]
      rfl
    · refine (h.inv.incr hmem).roots_perm ?_
      exact List.perm_middle.symm
    · intro r hr
      rcases List.mem_append.1 hr with hr | hr
      · obtain rfl := List.mem_singleton.1 hr
        refine ⟨?_, ht⟩
        rw [incrRefCount, indices_setCount]
        exact hie
      · exact hreg r hr

theorem cloneType_inv (h : EngineInv s zero) {n : ℕ} {r : RegisteredType}
    (hn : s.registered[n]? = some r) :
    EngineInv { s with reg := s.reg.incrRefCount r.entry, registered := r :: s.registered } zero := by
  have hr := List.mem_of_getElem? hn
  have hmem := h.inv.mem_of_root (mem_roots_of_registered hr)
  obtain ⟨hcoll, hreg⟩ := h.extends (extends_incr s.reg r.entry)
  refine ⟨(h.inv.incr hmem).roots_perm List.perm_middle.symm, h.dropStack, hcoll, fun q hq => ?_⟩
  rcases List.mem_cons.1 hq with rfl | hq
  · exact hreg q hr
  · exact hreg q hq

theorem registerModuleTypes_inv (h : EngineInv s zero) {mt : ModuleTypes} (hwf : mt.WF)
    {reg' : TypeRegistryInner} {recGroups types : List ℕ}
    (hreg : s.reg.registerModuleTypes debug π mt = .ok (reg', recGroups, types)) :
    EngineInv { s with reg := reg', collections := (mt, ⟨recGroups, types⟩) :: s.collections } zero := by
  have hnil : CollectionOk s.reg mt.wasmTypes [] [] [] := ⟨rfl, .nil⟩
  obtain ⟨hinv, hok, hext, hids, hlen⟩ := registerGroups_spec hreg h.inv hnil hwf.consecutive
  obtain ⟨hcoll, hreg⟩ := h.extends hext
  refine ⟨?_, hext.dropStack.trans h.dropStack, fun q hq => ?_, hreg⟩
  · simpa [EngineState.roots] using hinv
  · rcases List.mem_cons.1 hq with rfl | hq
    · exact ⟨hwf, hok, hlen⟩
    · exact hcoll q hq

/-- Operations that take or give up handles never fail; the entries stay those they were, or some of
them are unregistered. -/
theorem step_ok (debug : Bool) (π : SlabPolicy) (h : EngineInv s zero) {op : RegistryOp}
    (hop : ∀ mt, op ≠ .registerModuleTypes mt) : ∃ s', s.step debug π op = .ok s' ∧ EngineInv s' zero
      ∧ ((Extends s.reg s'.reg ∧ s'.reg.hashConsingMap = s.reg.hashConsingMap)
        ∨ ∃ l, Shrinks s.reg s'.reg l) := by
  cases op with
  | registerModuleTypes mt => exact absurd rfl (hop mt)
  | dropCollection n =>
    simp only [EngineState.step]
    rcases hn : s.collections[n]? with _ | p
    · exact ⟨s, rfl, h, .inl ⟨extends_refl _, rfl⟩⟩
    · obtain ⟨reg', hrun, hinv, hs⟩ := dropCollection_spec debug h hn
      exact ⟨_, by simp only [hrun]; rfl, hinv, .inr hs⟩
  | getType index =>
    obtain ⟨reg', handle, hrun, hinv, hx⟩ := getType_spec debug h index
    exact ⟨_, by simp only [EngineState.step, hrun]; rfl, hinv, .inl hx⟩
  | cloneType n =>
    simp only [EngineState.step]
    rcases hn : s.registered[n]? with _ | r
    · exact ⟨s, rfl, h, .inl ⟨extends_refl _, rfl⟩⟩
    · exact ⟨_, rfl, cloneType_inv h hn, .inl ⟨extends_incr _ _, rfl⟩⟩
  | dropType n =>
    simp only [EngineState.step]
    rcases hn : s.registered[n]? with _ | r
    · exact ⟨s, rfl, h, .inl ⟨extends_refl _, rfl⟩⟩
    · obtain ⟨reg', hrun, hinv, hs⟩ := dropType_spec debug h hn
      exact ⟨_, by simp only [hrun]; rfl, hinv, .inr hs⟩

theorem step_inv (h : EngineInv s zero) {op : RegistryOp} (hop : op.WF)
    (hs : s.step debug π op = .ok s') : EngineInv s' zero := by
  by_cases hreg : ∃ mt, op = .registerModuleTypes mt
  · obtain ⟨mt, rfl⟩ := hreg
    obtain ⟨⟨reg', recGroups, types⟩, hrun, hs⟩ := bind_eq_ok.1 hs
    obtain rfl := Except.ok.inj hs
    exact registerModuleTypes_inv h hop hrun
  · obtain ⟨s'', hs'', hinv, -⟩ := step_ok debug π h fun mt hmt => hreg ⟨mt, hmt⟩
    rw [hs] at hs''
    exact Except.ok.inj hs'' ▸ hinv

theorem reachable_inv (h : EngineState.Reachable debug π s) : EngineInv s [] := by
  induction h with
  | new => exact engineInv_new
  | step _ hop hs ih => exact step_inv ih hop hs

end Engine

end K23VM
