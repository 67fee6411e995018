import K23VM.RegistryThreads
import K23VM.Proofs.RegistryCounts

/-!
# Entries are unregistered once

Between the decrement of a drop and the locked call that follows it, another thread can resurrect
the entry, drop it again and unregister it; the check in `unregister_entry` sees a count of zero
either way.  Where the entry is still registered at every such call (`StillRegistered`) each entry is
removed once and by itself, `removedOnce_iff_stillRegistered`.
-/

namespace K23VM

open TypeRegistryInner

/-- The removals so far: no entry twice, with each of its references released once, and of its own
slots only. -/
structure RemovedOnce (reg : TypeRegistryInner) : Prop where
  once : (reg.removals.map Removal.entry).Nodup
  released : ∀ r ∈ reg.removals, r.released.length = (crossRefs (reg.key r.entry)).length
  freed : ∀ r ∈ reg.removals, r.freed = (reg.indices r.entry).map fun i => (i, some r.entry)

/-- What was removed is not registered, and what is not registered was removed. -/
structure RemovalsOk (reg : TypeRegistryInner) : Prop extends RemovedOnce reg where
  removed : ∀ r ∈ reg.removals, r.entry < reg.nextEntry ∧ r.entry ∉ reg.hashConsingMap
  gone : ∀ f < reg.nextEntry, f ∉ reg.hashConsingMap → f ∈ reg.removals.map Removal.entry

theorem RemovalsOk.extends {reg reg' : TypeRegistryInner} (h : RemovalsOk reg)
    (hx : Extends reg reg') : RemovalsOk reg' := by
  refine ⟨⟨?_, ?_, ?_⟩, ?_, ?_⟩
  · rw [hx.removals]
    exact h.once
  · intro r hr
    rw [hx.removals] at hr
    rw [hx.key _ (h.removed r hr).1, h.released r hr]
  · intro r hr
    rw [hx.removals] at hr
    rw [hx.indices _ (h.removed r hr).1, h.freed r hr]
  · intro r hr
    rw [hx.removals] at hr
    obtain ⟨hlt, hnot⟩ := h.removed r hr
    refine ⟨hlt.trans_le hx.nextEntry, fun hm => ?_⟩
    rcases hx.map_new _ hm with hm | hle
    · exact hnot hm
    · omega
  · intro f hf hnot
    rw [hx.removals]
    by_cases hlt : f < reg.nextEntry
    · exact h.gone f hlt fun hm => hnot (hx.mem_map f hm)
    · exact absurd (hx.new_mem f (Nat.le_of_not_lt hlt) hf) hnot

theorem RemovalsOk.shrinks {reg reg' : TypeRegistryInner} {l : List Removal} {roots zero : List ℕ}
    (h : RemovalsOk reg) (hinv : Inv reg roots zero) (hs : Shrinks reg reg' l) :
    RemovalsOk reg' := by
  refine ⟨⟨?_, ?_, ?_⟩, ?_, ?_⟩
  · rw [hs.removals, List.map_append]
    refine hs.removed_nodup.append h.once fun e he he' => ?_
    obtain ⟨r, hr, rfl⟩ := List.mem_map.1 he
    obtain ⟨r', hr', heq⟩ := List.mem_map.1 he'
    exact (h.removed r' hr').2 (heq ▸ (hs.removed_mem r hr).1)
  · intro r hr
    rw [hs.removals] at hr
    rw [hs.key]
    exact (List.mem_append.1 hr).elim (hs.released r) (h.released r)
  · intro r hr
    rw [hs.removals] at hr
    rw [hs.indices]
    exact (List.mem_append.1 hr).elim (hs.freed r) (h.freed r)
  · intro r hr
    rw [hs.removals] at hr
    rw [hs.nextEntry]
    rcases List.mem_append.1 hr with hr | hr
    · obtain ⟨hm, hnot⟩ := hs.removed_mem r hr
      exact ⟨hinv.lt _ hm, hnot⟩
    · obtain ⟨hlt, hnot⟩ := h.removed r hr
      exact ⟨hlt, fun hm => hnot (hs.mem_map _ hm)⟩
  · intro f hf hnot
    rw [hs.nextEntry] at hf
    rw [hs.removals, List.map_append, List.mem_append]
    by_cases hm : f ∈ reg.hashConsingMap
    · exact .inl (hs.gone f hm hnot)
    · exact .inr (h.gone f hf hm)

/-! ## A removal is recorded -/

theorem releaseReferences_removals : ∀ {rs : List CanonicalizedTypeIndex}
    {reg reg' : TypeRegistryInner} {l : List ℕ}, reg.releaseReferences rs = .ok (reg', l) →
    reg'.removals = reg.removals
  | [], reg, reg', l, h => by
    obtain ⟨rfl, -⟩ := Prod.mk.inj (Except.ok.inj h)
    rfl
  | .shared i :: rs, reg, reg', l, h => by
    obtain ⟨o, -, h⟩ := bind_eq_ok.1 h
    obtain ⟨⟨reg₁, last⟩, hdec, h⟩ := bind_eq_ok.1 h
    obtain ⟨⟨reg₂, l₂⟩, hrest, h⟩ := bind_eq_ok.1 h
    obtain ⟨rfl, -⟩ := Prod.mk.inj (Except.ok.inj h)
    obtain ⟨n, -, hdec⟩ := bind_eq_ok.1 hdec
    obtain ⟨rfl, -⟩ := Prod.mk.inj (Except.ok.inj hdec)
    rw [releaseReferences_removals hrest]
    split_ifs <;> rfl
  | .recGroup _ :: rs, reg, reg', l, h => by
    have h : reg.releaseReferences rs = .ok (reg', l) := h
    exact releaseReferences_removals h
  | .module _ :: rs, reg, reg', l, h => by
    have h : reg.releaseReferences rs = .ok (reg', l) := h
    exact releaseReferences_removals h

theorem removeTypes_removals {debug : Bool} {e : ℕ} : ∀ {ids : List ℕ}
    {reg reg' : TypeRegistryInner} {l : List (ℕ × Option ℕ)},
    reg.removeTypes debug e ids = .ok (reg', l) → reg'.removals = reg.removals
  | [], reg, reg', l, h => by
    obtain ⟨rfl, -⟩ := Prod.mk.inj (Except.ok.inj h)
    rfl
  | i :: ids, reg, reg', l, h => by
    obtain ⟨-, -, h⟩ := bind_eq_ok.1 h
    obtain ⟨-, -, h⟩ := bind_eq_ok.1 h
    obtain ⟨types, -, h⟩ := bind_eq_ok.1 h
    obtain ⟨⟨reg₁, l₁⟩, hrest, h⟩ := bind_eq_ok.1 h
    obtain ⟨rfl, -⟩ := Prod.mk.inj (Except.ok.inj h)
    rw [removeTypes_removals hrest]

theorem removeEntry_removals {debug : Bool} {reg reg' : TypeRegistryInner} {e : ℕ}
    (h : reg.removeEntry debug e = .ok reg') :
    ∃ r, r.entry = e ∧ reg'.removals = r :: reg.removals := by
  obtain ⟨-, -, h⟩ := bind_eq_ok.1 h
  obtain ⟨⟨reg₁, released⟩, h₁, h⟩ := bind_eq_ok.1 h
  obtain ⟨⟨reg₂, freed⟩, h₂, h⟩ := bind_eq_ok.1 h
  obtain rfl := Except.ok.inj h
  refine ⟨⟨e, released, freed⟩, rfl, ?_⟩
  rw [← releaseReferences_removals h₁]
  exact congrArg _ (removeTypes_removals h₂)

theorem unregisterLoop_removals {debug : Bool} : ∀ {fuel : ℕ} {reg reg' : TypeRegistryInner},
    unregisterLoop debug fuel reg = .ok reg' → ∃ l, reg'.removals = l ++ reg.removals
  | fuel, reg, reg', h => by
    rcases hs : reg.dropStack with _ | ⟨e, stack⟩
    · rw [unregisterLoop_nil debug _ hs] at h
      obtain rfl := Except.ok.inj h
      exact ⟨[], rfl⟩
    · cases fuel with
      | zero =>
        unfold unregisterLoop at h
        rw [hs] at h
        cases h
      | succ fuel =>
        rw [unregisterLoop_cons debug fuel hs] at h
        split_ifs at h with h0
        · obtain ⟨l, hl⟩ := unregisterLoop_removals h
          exact ⟨l, hl⟩
        · obtain ⟨reg₁, h₁, h⟩ := bind_eq_ok.1 h
          obtain ⟨r, -, hr⟩ := removeEntry_removals h₁
          obtain ⟨l, hl⟩ := unregisterLoop_removals h
          exact ⟨l ++ [r], by rw [hl, hr, List.append_assoc]; rfl⟩

/-- An entry nobody holds is removed, whether or not it was before. -/
theorem unregisterEntry_removals {debug : Bool} {reg reg' : TypeRegistryInner} {e : ℕ}
    (hnil : reg.dropStack = []) (h0 : reg.count e = 0)
    (h : reg.unregisterEntry debug e = .ok reg') :
    ∃ l r, r.entry = e ∧ reg'.removals = l ++ r :: reg.removals := by
  obtain ⟨-, -, h⟩ := bind_eq_ok.1 h
  simp only [hnil, List.length_cons, List.length_nil] at h
  rw [unregisterLoop_cons debug _ rfl] at h
  rw [if_neg (fun hne => hne h0)] at h
  obtain ⟨reg₁, h₁, h⟩ := bind_eq_ok.1 h
  obtain ⟨r, hr, hr₁⟩ := removeEntry_removals h₁
  obtain ⟨l, hl⟩ := unregisterLoop_removals h
  exact ⟨l, r, hr, by rw [hl, hr₁]⟩

/-! ## Steps of threads -/

/-- A thread that takes the lock to unregister an entry finds it still registered. -/
def StillRegistered (s : ThreadedState) (t : ℕ) (op : ThreadOp) : Prop :=
  op = .unregister → ∀ e, s.pendingOf t = some e → e ∈ s.engine.reg.hashConsingMap

/-- The states that interleavings reach in which every locked call finds its entry registered. -/
inductive OrderlyReachable (debug : Bool) (π : SlabPolicy) : ThreadedState → Prop where
  | new : OrderlyReachable debug π .new
  | step {s s' : ThreadedState} (hs : OrderlyReachable debug π s) (t : ℕ) (op : ThreadOp)
    (hop : op.WF) (hreg : StillRegistered s t op) (h : s.step debug π t op = .ok s') :
    OrderlyReachable debug π s'

structure ThreadInv (s : ThreadedState) : Prop where
  engine : EngineInv s.engine (s.pending.map Prod.snd)
  removals : RemovalsOk s.engine.reg
  pending : ∀ p ∈ s.pending, p.2 < s.engine.reg.nextEntry

theorem threadInv_new : ThreadInv .new where
  engine := engineInv_new
  removals := ⟨⟨List.nodup_nil, by simp [ThreadedState.new, EngineState.new, TypeRegistryInner.new],
    by simp [ThreadedState.new, EngineState.new, TypeRegistryInner.new]⟩,
    by simp [ThreadedState.new, EngineState.new, TypeRegistryInner.new],
    by simp [ThreadedState.new, EngineState.new, TypeRegistryInner.new]⟩
  pending := by simp [ThreadedState.new]

section Threads

variable {debug : Bool} {π : SlabPolicy} {s s' : ThreadedState} {t e : ℕ}

theorem mem_pending_of_pendingOf (h : s.pendingOf t = some e) : (t, e) ∈ s.pending := by
  obtain ⟨l, r, hl, -⟩ := List.lookup_eq_some_iff.1 h
  simp [hl]

theorem registerModuleTypes_extends {s s' : EngineState} {zero : List ℕ} (h : EngineInv s zero)
    {mt : ModuleTypes} (hwf : mt.WF) (hs : s.step debug π (.registerModuleTypes mt) = .ok s') :
    Extends s.reg s'.reg := by
  obtain ⟨⟨reg', recGroups, types⟩, hrun, hs⟩ := bind_eq_ok.1 hs
  obtain rfl := Except.ok.inj hs
  have hnil : CollectionOk s.reg mt.wasmTypes [] [] [] := ⟨rfl, .nil⟩
  exact (registerGroups_spec hrun h.inv hnil hwf.consecutive).2.2.1

/-- A step of the engine as a whole keeps the invariant of the threads. -/
theorem ThreadInv.engineStep (h : ThreadInv s) {op : RegistryOp} (hop : op.WF) {eng : EngineState}
    (hs : s.engine.step debug π op = .ok eng) : ThreadInv { s with engine := eng } := by
  have heng := step_inv h.engine hop hs
  have hx : Extends s.engine.reg eng.reg ∨ ∃ l, Shrinks s.engine.reg eng.reg l := by
    by_cases hreg : ∃ mt, op = .registerModuleTypes mt
    · obtain ⟨mt, rfl⟩ := hreg
      exact .inl (registerModuleTypes_extends h.engine hop hs)
    · obtain ⟨s'', hs'', -, hcases⟩ := step_ok debug π h.engine fun mt hmt => hreg ⟨mt, hmt⟩
      obtain rfl := Except.ok.inj (hs''.symm.trans hs)
      exact hcases.imp_left And.left
  rcases hx with hx | ⟨l, hx⟩
  · exact ⟨heng, h.removals.extends hx, fun p hp => (h.pending p hp).trans_le hx.nextEntry⟩
  · refine ⟨heng, h.removals.shrinks h.engine.inv hx, fun p hp => ?_⟩
    exact (h.pending p hp).trans_eq hx.nextEntry.symm

/-- The decrement of a drop: the thread that saw the last registration go is now pending. -/
theorem ThreadInv.dropType (h : ThreadInv s) (t n : ℕ) :
    ∃ s', s.dropType t n = .ok s' ∧ ThreadInv s' := by
  unfold ThreadedState.dropType
  rcases hn : s.engine.registered[n]? with _ | r
  · exact ⟨s, rfl, h⟩
  have hinv := h.engine.inv.roots_perm (roots_eraseIdx_registered hn s.engine.reg)
  have hmem := hinv.mem_of_root List.mem_cons_self
  have hpos : 0 < s.engine.reg.count r.entry := by
    have := hinv.count r.entry
    rw [List.count_cons_self] at this
    omega
  let reg' := s.engine.reg.setCount r.entry (s.engine.reg.count r.entry - 1)
  have hshr : Shrinks s.engine.reg reg' [] :=
    shrinks_of_eq (key_setCount _ _ _) (indices_setCount _ _ _) rfl rfl rfl rfl
  have hpend : Inv reg' (EngineState.roots { s.engine with
      reg := reg', registered := s.engine.registered.eraseIdx n })
      ((if s.engine.reg.count r.entry = 1 then (t, r.entry) :: s.pending else s.pending).map
        Prod.snd) := by
    split_ifs with h1
    · exact hinv.decr
    · refine hinv.decr.mono_zero fun f _ hf0 hz => ?_
      rcases List.mem_cons.1 hz with rfl | hz
      · rw [count_setCount, if_pos rfl] at hf0
        omega
      · exact hz
  obtain ⟨hcoll, hreg⟩ := h.engine.shrinks hshr hpend
  refine ⟨_, by simp only [decrRefCount_eq hpos, bind, Except.bind, pure, Except.pure]; rfl, ?_⟩
  refine ⟨⟨?_, h.engine.dropStack, fun q hq => ?_, fun q hq => ?_⟩,
    h.removals.shrinks h.engine.inv hshr, fun p hp => ?_⟩
  · simpa using hpend
  · exact hcoll q hq fun e he => List.mem_append_left _ (List.mem_flatMap.2 ⟨q, hq, he⟩)
  · exact hreg q (List.mem_of_mem_eraseIdx hq) (List.mem_append_right _
      (List.mem_map.2 ⟨q, hq, rfl⟩))
  · simp only [decide_eq_true_eq] at hp
    split_ifs at hp
    · rcases List.mem_cons.1 hp with rfl | hp
      · exact h.engine.inv.lt _ hmem
      · exact h.pending p hp
    · exact h.pending p hp

/-- The locked call on an entry that is still registered. -/
theorem ThreadInv.unregister (h : ThreadInv s) (debug : Bool) (t : ℕ)
    (he : e ∈ s.engine.reg.hashConsingMap) :
    ∃ s', s.unregister debug t e = .ok s' ∧ ThreadInv s' := by
  have hzero : Inv s.engine.reg s.engine.roots (e :: (s.pending.erase (t, e)).map Prod.snd) := by
    refine h.engine.inv.mono_zero fun f _ _ hf => ?_
    obtain ⟨p, hmem, rfl⟩ := List.mem_map.1 hf
    by_cases hpe : p = (t, e)
    · simp [hpe]
    · exact List.mem_cons_of_mem _ (List.mem_map.2 ⟨p, (List.mem_erase_of_ne hpe).2 hmem, rfl⟩)
  obtain ⟨reg', l, hrun, hinv, hnil, hs, -⟩ :=
    unregisterEntry_spec debug hzero h.engine.dropStack he
  obtain ⟨hcoll, hreg⟩ := h.engine.shrinks hs hinv
  refine ⟨⟨{ s.engine with reg := reg' }, s.pending.erase (t, e)⟩, ?_,
    ⟨hinv, hnil, fun q hq => ?_, fun q hq => ?_⟩, h.removals.shrinks h.engine.inv hs,
    fun p hp => ?_⟩
  · rw [ThreadedState.unregister, hrun]
    rfl
  · exact hcoll q hq fun e he => mem_roots_of_collection hq he
  · exact hreg q hq (mem_roots_of_registered hq)
  · exact (h.pending p (List.mem_of_mem_erase hp)).trans_eq hs.nextEntry.symm

/-- What a step of a thread can be. -/
theorem threadStep_cases (debug : Bool) (π : SlabPolicy) (s : ThreadedState) (t : ℕ)
    (op : ThreadOp) :
    s.step debug π t op = .ok s
      ∨ (∃ e, op = .unregister ∧ s.pendingOf t = some e
        ∧ s.step debug π t op = s.unregister debug t e)
      ∨ (∃ n, s.step debug π t op = s.dropType t n)
      ∨ ∃ rop : RegistryOp, (op.WF → rop.WF)
        ∧ (∀ mt, rop = .registerModuleTypes mt → op = .registerModuleTypes mt)
        ∧ s.step debug π t op
          = s.engine.step debug π rop >>= fun eng => pure { s with engine := eng } := by
  unfold ThreadedState.step
  rcases hp : s.pendingOf t with _ | e
  · cases op with
    | unregister => exact .inl rfl
    | dropType n => exact .inr (.inr (.inl ⟨n, rfl⟩))
    | registerModuleTypes mt =>
      exact .inr (.inr (.inr ⟨.registerModuleTypes mt, id, by rintro _ ⟨⟩; rfl, rfl⟩))
    | dropCollection n =>
      exact .inr (.inr (.inr ⟨.dropCollection n, fun _ => trivial, by rintro _ ⟨⟩, rfl⟩))
    | getType index =>
      exact .inr (.inr (.inr ⟨.getType index, fun _ => trivial, by rintro _ ⟨⟩, rfl⟩))
    | cloneType n =>
      exact .inr (.inr (.inr ⟨.cloneType n, fun _ => trivial, by rintro _ ⟨⟩, rfl⟩))
  · cases op with
    | unregister => exact .inr (.inl ⟨e, rfl, rfl, rfl⟩)
    | _ => exact .inl rfl

/-- A step that finds its entry registered keeps the invariant. -/
theorem ThreadInv.step (h : ThreadInv s) {op : ThreadOp} (hreg : StillRegistered s t op)
    (hop : op.WF) (hs : s.step debug π t op = .ok s') : ThreadInv s' := by
  rcases threadStep_cases debug π s t op with heq | ⟨e, rfl, hp, heq⟩ | ⟨n, heq⟩ | ⟨rop, hwf, -, heq⟩
  · obtain rfl := Except.ok.inj (heq.symm.trans hs)
    exact h
  · obtain ⟨s'', hs'', hinv⟩ := h.unregister debug t (hreg rfl e hp)
    obtain rfl := Except.ok.inj ((heq.trans hs'').symm.trans hs)
    exact hinv
  · obtain ⟨s'', hs'', hinv⟩ := h.dropType t n
    obtain rfl := Except.ok.inj ((heq.trans hs'').symm.trans hs)
    exact hinv
  · obtain ⟨eng, heng, hs⟩ := bind_eq_ok.1 (heq.symm.trans hs)
    obtain rfl := Except.ok.inj hs
    exact h.engineStep (hwf hop) heng

/-- Only a registration can fail. -/
theorem ThreadInv.step_ok (h : ThreadInv s) {op : ThreadOp} (hreg : StillRegistered s t op)
    (hop : ∀ mt, op ≠ .registerModuleTypes mt) : ∃ s', s.step debug π t op = .ok s' := by
  rcases threadStep_cases debug π s t op with heq | ⟨e, rfl, hp, heq⟩ | ⟨n, heq⟩ | ⟨rop, -, hmt, heq⟩
  · exact ⟨s, heq⟩
  · obtain ⟨s'', hs'', -⟩ := h.unregister debug t (hreg rfl e hp)
    exact ⟨s'', heq.trans hs''⟩
  · obtain ⟨s'', hs'', -⟩ := h.dropType t n
    exact ⟨s'', heq.trans hs''⟩
  · obtain ⟨eng, heng, -⟩ := K23VM.step_ok debug π h.engine fun mt hr => hop mt (hmt mt hr)
    exact ⟨{ s with engine := eng }, by rw [heq, heng]; rfl⟩

/-- A locked call on an entry that was unregistered removes it once more, or fails. -/
theorem ThreadInv.removed_twice (h : ThreadInv s) (hp : s.pendingOf t = some e)
    (he : e ∉ s.engine.reg.hashConsingMap) (hs : s.step debug π t .unregister = .ok s') :
    ¬ (s'.engine.reg.removals.map Removal.entry).Nodup := by
  simp only [ThreadedState.step, hp] at hs
  obtain ⟨reg', hrun, hs⟩ := bind_eq_ok.1 hs
  obtain rfl := Except.ok.inj hs
  have h0 : s.engine.reg.count e = 0 := by
    by_contra hne
    exact he (h.engine.inv.live e (Nat.pos_of_ne_zero hne))
  obtain ⟨l, r, rfl, hr⟩ := unregisterEntry_removals h.engine.dropStack h0 hrun
  have hgone := h.removals.gone r.entry (h.pending _ (mem_pending_of_pendingOf hp)) he
  rw [hr, List.map_append, List.map_cons]
  exact fun hnd => (List.nodup_cons.1 (List.nodup_append.1 hnd).2.1).1 hgone

theorem orderlyReachable_inv (h : OrderlyReachable debug π s) : ThreadInv s := by
  induction h with
  | new => exact threadInv_new
  | step _ _ _ hop hreg hs ih => exact ih.step hreg hop hs

/-- Along every interleaving in which the locked calls find their entries registered, entries are
removed once and only a registration can fail; and the next step that does not find its entry
registered is the one that removes an entry twice, or fails. -/
theorem removedOnce_iff_stillRegistered (h : OrderlyReachable debug π s) :
    RemovedOnce s.engine.reg
      ∧ (∀ t op, (∀ mt, op ≠ .registerModuleTypes mt) → StillRegistered s t op →
        ∃ s', s.step debug π t op = .ok s')
      ∧ ∀ t op s', op.WF → s.step debug π t op = .ok s' →
        (RemovedOnce s'.engine.reg ↔ StillRegistered s t op) := by
  have hinv := orderlyReachable_inv h
  refine ⟨hinv.removals.toRemovedOnce, fun t op hop hreg => hinv.step_ok hreg hop,
    fun t op s' hop hs => ⟨fun hr => ?_, fun hreg => ?_⟩⟩
  · rintro rfl e hp
    by_contra he
    exact hinv.removed_twice hp he hs hr.once
  · exact (hinv.step hreg hop hs).removals.toRemovedOnce

end Threads

/-- A function type. -/
def oneFunc (params : List WasmValType) : ModuleTypes :=
  ⟨[(0, 1)], [⟨true, none, ⟨.func ⟨params, []⟩, false⟩⟩]⟩

theorem oneFunc_wf : (oneFunc []).WF := by
  refine ⟨by simp [Consecutive, oneFunc], ?_⟩
  intro g hg i hi hi' t ht r hr
  obtain rfl := List.mem_singleton.1 hg
  obtain rfl : i = 0 := by simp only at hi'; omega
  obtain rfl := Option.some_inj.1 ht
  cases hr

/-- Thread 1 sees the last registration go, thread 2 resurrects the entry, thread 1 leaves it alone,
and thread 2 drops and unregisters it. -/
theorem removedOnce_resurrected : ∃ s, ThreadedState.new.run false .lowest
      [(0, .registerModuleTypes (oneFunc [])), (0, .getType 0), (0, .dropCollection 0),
        (1, .dropType 0), (2, .getType 0), (1, .unregister), (2, .dropType 0), (2, .unregister)]
      = .ok s ∧ s.engine.reg.removals.map Removal.entry = [0] ∧ RemovedOnce s.engine.reg := by
  have h₀ : OrderlyReachable false .lowest .new := .new
  have h₁ := h₀.step 0 (.registerModuleTypes (oneFunc [])) oneFunc_wf (by rintro ⟨⟩) rfl
  have h₂ := h₁.step 0 (.getType 0) trivial (by rintro ⟨⟩) rfl
  have h₃ := h₂.step 0 (.dropCollection 0) trivial (by rintro ⟨⟩) rfl
  have h₄ := h₃.step 1 (.dropType 0) trivial (by rintro ⟨⟩) rfl
  have h₅ := h₄.step 2 (.getType 0) trivial (by rintro ⟨⟩) rfl
  have h₆ := h₅.step 1 .unregister trivial
    (by rintro - e ⟨⟩; exact List.mem_cons_self) rfl
  have h₇ := h₆.step 2 (.dropType 0) trivial (by rintro ⟨⟩) rfl
  have h₈ := h₇.step 2 .unregister trivial
    (by rintro - e ⟨⟩; exact List.mem_cons_self) rfl
  exact ⟨_, rfl, rfl, (removedOnce_iff_stillRegistered h₈).1⟩

/-- Thread 1 sees the last registration go; thread 2 resurrects the entry, drops and unregisters it;
thread 3 registers another type, which gets the slot; then thread 1 removes the entry once more and
frees the slot of the new one. -/
theorem removed_twice_overtaken : ∃ s, ThreadedState.new.run false .lowest
      [(0, .registerModuleTypes (oneFunc [])), (0, .getType 0), (0, .dropCollection 0),
        (1, .dropType 0), (2, .getType 0), (2, .dropType 0), (2, .unregister),
        (3, .registerModuleTypes (oneFunc [.i32])), (1, .unregister)] = .ok s
      ∧ s.engine.reg.removals = [⟨0, [], [(0, some 1)]⟩, ⟨0, [], [(0, some 0)]⟩]
      ∧ s.engine.reg.hashConsingMap = [1] ∧ s.engine.reg.count 1 = 1 ∧ s.engine.reg.types.ids = []
      ∧ ¬ RemovedOnce s.engine.reg := by
  refine ⟨_, rfl, rfl, rfl, rfl, rfl, fun h => ?_⟩
  exact absurd h.once (by decide)

end K23VM
