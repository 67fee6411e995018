import K23VM.Proofs.RegistryRuns

/-!
# Reference counts of the type registry

In every state an engine reaches, a count is the number of those who hold the entry, an entry is
registered exactly where its count is positive, and dropping handles never fails.  References lead
to older entries, so that with the last handle everything is unregistered.
-/

namespace K23VM

open TypeRegistryInner

/-- Counts say who holds an entry, and an entry is registered, with its types, exactly where somebody
does. -/
structure CountsExact (s : EngineState) : Prop where
  count : ∀ e, s.reg.count e = (s.collections.flatMap fun p => p.2.recGroups).count e
    + (s.registered.map RegisteredType.entry).count e + s.reg.allRefs.count e
  mem_map_iff : ∀ e, e ∈ s.reg.hashConsingMap ↔ 0 < s.reg.count e
  owner_iff : ∀ e i, s.reg.typeToRecGroup i = some e ↔ 0 < s.reg.count e ∧ i ∈ s.reg.indices e
  slab_iff : ∀ i, i ∈ s.reg.types.ids ↔ ∃ e, 0 < s.reg.count e ∧ i ∈ s.reg.indices e
  dropStack : s.reg.dropStack = []

theorem EngineInv.countsExact {s : EngineState} (h : EngineInv s []) : CountsExact s := by
  have hmem : ∀ e, e ∈ s.reg.hashConsingMap ↔ 0 < s.reg.count e := fun e =>
    ⟨fun he => Nat.pos_of_ne_zero fun h0 => List.not_mem_nil (h.inv.zero e he h0), h.inv.live e⟩
  refine ⟨fun e => ?_, hmem, fun e i => ?_, fun i => ?_, h.dropStack⟩
  · rw [h.inv.count e, EngineState.roots, List.count_append]
  · rw [h.inv.owner, hmem]
  · rw [h.inv.slab, Option.isSome_iff_exists]
    simp only [h.inv.owner, hmem]

/-- Without handles there is nothing left: the newest entry is referred to by none. -/
theorem Inv.isEmpty_of_no_roots {reg : TypeRegistryInner} (h : Inv reg [] [])
    (hd : reg.dropStack = []) : reg.isEmpty := by
  have hmap : reg.hashConsingMap = [] := by
    by_contra hne
    obtain ⟨e, he, hmax⟩ := reg.hashConsingMap.toFinset.exists_max_image id
      (List.toFinset_nonempty_iff _ |>.2 hne)
    simp only [List.mem_toFinset, id_eq] at he hmax
    have hpos : 0 < reg.count e := Nat.pos_of_ne_zero fun h0 => List.not_mem_nil (h.zero e he h0)
    rw [h.count e, List.count_nil, Nat.zero_add] at hpos
    obtain ⟨f, hf, hfe⟩ := List.mem_flatMap.1 (List.count_pos_iff.1 hpos)
    obtain ⟨i, hi, hoi⟩ := mem_owners.1 hfe
    obtain ⟨g, hg, hgf⟩ := h.ref_lt f hf i hi
    obtain rfl : e = g := Option.some_inj.1 (hoi.symm.trans hg)
    exact absurd (hmax f hf) (by omega)
  have hnone : ∀ i, reg.typeToRecGroup i = none := by
    intro i
    rcases ho : reg.typeToRecGroup i with _ | e
    · rfl
    · have := ((h.owner i e).1 ho).1
      rw [hmap] at this
      cases this
  refine ⟨hmap, ?_, hnone, hd⟩
  rw [List.eq_nil_iff_forall_not_mem]
  intro i hi
  have := (h.slab i).1 hi
  rw [hnone i] at this
  cases this

/-- In every state an engine reaches the counts are exact, an operation that takes or gives up a
handle does not fail, and without handles the registry is empty. -/
theorem registry_counts_exact {debug : Bool} {π : SlabPolicy} {s : EngineState}
    (h : EngineState.Reachable debug π s) :
    CountsExact s
      ∧ (∀ op, (∀ mt, op ≠ .registerModuleTypes mt) → ∃ s', s.step debug π op = .ok s')
      ∧ (s.collections = [] → s.registered = [] → s.reg.isEmpty) := by
  have hinv := reachable_inv h
  refine ⟨hinv.countsExact, fun op hop => ?_, fun hc hr => ?_⟩
  · obtain ⟨s', hs', -⟩ := step_ok debug π hinv hop
    exact ⟨s', hs'⟩
  · refine Inv.isEmpty_of_no_roots ?_ hinv.dropStack
    have := hinv.inv
    rwa [EngineState.roots, hc, hr] at this

/-- A function type, and a struct type of a later group with a field of that type. -/
def funcAndStruct : ModuleTypes where
  recGroups := [(0, 1), (1, 2)]
  wasmTypes :=
    [⟨true, none, ⟨.func ⟨[], []⟩, false⟩⟩,
      ⟨true, none, ⟨.struct ⟨[⟨false, .val (.ref ⟨true, ⟨false, .concreteFunc (.module 0)⟩⟩)⟩]⟩,
        false⟩⟩]

theorem funcAndStruct_wf : funcAndStruct.WF := by
  refine ⟨by simp [Consecutive, funcAndStruct], ?_⟩
  intro g hg i hi hi' t ht r hr
  simp only [funcAndStruct, List.mem_cons, List.not_mem_nil, or_false] at hg
  rcases hg with rfl | rfl
  · obtain rfl : i = 0 := by simp only at hi'; omega
    obtain rfl := Option.some_inj.1 ht
    cases hr
  · obtain rfl : i = 1 := by simp only at hi hi'; omega
    obtain rfl := Option.some_inj.1 ht
    obtain rfl := List.mem_singleton.1 hr
    exact ⟨0, rfl, by norm_num⟩

theorem registry_counts_exact_funcAndStruct : ∃ s,
    EngineState.new.run false .lowest [.registerModuleTypes funcAndStruct, .getType 1,
      .registerModuleTypes funcAndStruct, .dropCollection 1, .cloneType 0] = .ok s
      ∧ CountsExact s := by
  obtain ⟨s, hs⟩ : ∃ s, EngineState.new.run false .lowest
      [.registerModuleTypes funcAndStruct, .getType 1, .registerModuleTypes funcAndStruct,
        .dropCollection 1, .cloneType 0] = .ok s := ⟨_, rfl⟩
  refine ⟨s, hs, (registry_counts_exact (EngineState.reachable_of_run .new ?_ hs)).1⟩
  simp [RegistryOp.WF, funcAndStruct_wf]

end K23VM
