import K23VM.Runtime.InstanceAllocator
import Mathlib.Tactic

/-!
# Allocating the resources of an instance

The map of the entities allocated so far numbers them as the module numbers those that it defines, so
that the cleanup after a failure finds each one under its own index.
-/

namespace K23VM.InstanceAllocator.Recorded

open Logged (Ends)

/-! ## Maps -/

section PushDefined

variable {δ β : Type} {debug : Bool} {definedIndex : ℕ → Option ℕ}
  {allocate : δ → ℕ → Fallible Error β} {allocated : ℕ → β → AllocatorCall}

/-- The calls that put resources at the positions of a map from `start` on. -/
def callsFrom (call : ℕ → β → AllocatorCall) (start : ℕ) (news : List β) : List AllocatorCall :=
  (news.zipIdx start).map fun (b, i) => call i b

@[simp] theorem callsFrom_nil (call : ℕ → β → AllocatorCall) (start : ℕ) :
    callsFrom call start [] = [] := rfl

theorem callsFrom_cons (call : ℕ → β → AllocatorCall) (start : ℕ) (b : β) (news : List β) :
    callsFrom call start (b :: news) = call start b :: callsFrom call (start + 1) news := rfl

theorem answer_ends {x : Fallible Error β} {succeeded : β → AllocatorCall} {log : List AllocatorCall}
    {r : Except Error β} (h : Ends (answer x succeeded) log r) :
    (∃ e, r = .error e ∧ log = [])
      ∨ ∃ b, r = .ok b ∧ log = [succeeded b] ∧ x = (.ok (.ok b) : Except Fault (Except Error β)) := by
  unfold answer at h
  rcases hx : x.run with fault | e | b <;> rw [hx] at h
  · cases h
  · obtain ⟨rfl, hr⟩ := Logged.mk.inj h
    exact .inl ⟨e, (Except.ok.inj hr).symm, rfl⟩
  · obtain ⟨rfl, hr⟩ := Logged.mk.inj h
    exact .inr ⟨b, (Except.ok.inj hr).symm, rfl, hx⟩

/-- What the loop pushes: one resource for each entity that it passes, under the index that the entity
has among those that the module defines. -/
theorem pushDefined_ends {k : ℕ} (hdef : ∀ i, definedIndex i = if i < k then none else some (i - k)) :
    ∀ {plans : List δ} {n : ℕ} {done done' : List β} {log : List AllocatorCall}
      {r : Except Error Unit}, done.length = n - k →
      Ends (pushDefined debug definedIndex allocate allocated done (plans.zipIdx n)) log (done', r) →
      ∃ news, done' = done ++ news ∧ log = callsFrom allocated done.length news
        ∧ (r = .ok () → done'.length = n + plans.length - k)
        ∧ ∀ (j : ℕ) b, news[j]? = some b → ∃ p plan, plans[p]? = some plan
          ∧ n + p = k + (done.length + j)
          ∧ allocate plan (done.length + j) = (.ok (.ok b) : Except Fault (Except Error β))
  | [], n, done, done', log, r, hlen, h => by
    obtain ⟨rfl, hr⟩ := Logged.mk.inj h
    obtain ⟨rfl, rfl⟩ := Prod.mk.inj (Except.ok.inj hr)
    exact ⟨[], (List.append_nil _).symm, rfl, fun _ => hlen, by rintro j b ⟨⟩⟩
  | plan :: plans, n, done, done', log, r, hlen, h => by
    rw [List.zipIdx_cons] at h
    unfold pushDefined at h
    rw [hdef n] at h
    by_cases hn : n < k
    · rw [if_pos hn] at h
      obtain ⟨news, hdone, hlog, hok, hnews⟩ := pushDefined_ends hdef (by omega) h
      refine ⟨news, hdone, hlog, fun hr => ?_, fun j b hb => ?_⟩
      · rw [hok hr, List.length_cons]
        omega
      · obtain ⟨p, plan', hplan, hp, halloc⟩ := hnews j b hb
        exact ⟨p + 1, plan', hplan, by omega, halloc⟩
    · rw [if_neg hn] at h
      obtain ⟨log₁, log₂, res, hanswer, hrest, rfl⟩ := Logged.bind_ends h
      rcases answer_ends hanswer with ⟨e, rfl, rfl⟩ | ⟨new, rfl, rfl, halloc⟩
      · obtain ⟨rfl, hr⟩ := Logged.mk.inj hrest
        obtain ⟨rfl, rfl⟩ := Prod.mk.inj (Except.ok.inj hr)
        refine ⟨[], (List.append_nil _).symm, rfl, ?_, ?_⟩
        · rintro ⟨⟩
        · rintro j b ⟨⟩
      · obtain ⟨log₃, log₄, u, hassert, hpush, rfl⟩ := Logged.bind_ends hrest
        obtain ⟨-, rfl⟩ := Logged.lift_ends hassert
        obtain ⟨news, hdone, hlog, hok, hnews⟩ := pushDefined_ends hdef
          (by rw [List.length_append, hlen, List.length_singleton]; omega) hpush
        have hindex : n - k = done.length := hlen.symm
        rw [List.length_append, List.length_singleton] at hlog hnews
        refine ⟨new :: news, ?_, ?_, fun hr => ?_, fun j b hb => ?_⟩
        · rw [hdone, List.append_assoc]
          rfl
        · rw [hindex, hlog, callsFrom_cons]
          rfl
        · rw [hok hr, List.length_cons]
          omega
        · cases j with
          | zero =>
            obtain rfl := Option.some_inj.1 hb
            exact ⟨0, plan, rfl, by omega, hindex ▸ halloc⟩
          | succ j =>
            obtain ⟨p, plan', hplan, hp, halloc'⟩ := hnews j b hb
            refine ⟨p + 1, plan', hplan, by omega, ?_⟩
            rw [Nat.add_right_comm] at halloc'
            exact halloc'

/-- A map is given back position by position. -/
theorem deallocate_ends {call : ℕ → β → AllocatorCall} {items : List β} {log : List AllocatorCall}
    {u : Unit} (h : Ends (Logged.recordAll
      (fun (item, index) => (pure (call index item) : Except Fault AllocatorCall)) items.zipIdx) log u) :
    log = callsFrom call 0 items := by
  have hforall : List.Forall₂ (fun (a : β × ℕ) w => call a.2 a.1 = w) items.zipIdx log :=
    (Logged.recordAll_ends h).imp fun a w hw => Except.ok.inj hw
  have hmap := List.forall₂_map_left_iff.2 hforall
  exact (List.forall₂_eq_eq_eq ▸ hmap).symm

/-- The resources of a map with their indices. -/
def numbered (items : List β) : List (ℕ × β) := items.zipIdx.map Prod.swap

theorem numbered_nodup (items : List β) : ((numbered items).map Prod.fst).Nodup := by
  have hfst : (numbered items).map Prod.fst = items.zipIdx.map Prod.snd := by
    rw [numbered, List.map_map]
    rfl
  rw [hfst, List.zipIdx_map_snd]
  exact List.nodup_range'

/-- The calls for one kind of resource are found again, -/
theorem filterMap_callsFrom_some (call : ℕ → β → AllocatorCall) (read : AllocatorCall → Option (ℕ × β))
    (hread : ∀ i b, read (call i b) = some (i, b)) (items : List β) :
    (callsFrom call 0 items).filterMap read = numbered items := by
  rw [callsFrom, numbered, List.filterMap_map, ← List.filterMap_eq_map]
  exact List.filterMap_congr fun ⟨b, i⟩ _ => hread i b

/-- and are no calls for another. -/
theorem filterMap_callsFrom_none {γ : Type} (call : ℕ → β → AllocatorCall)
    (read : AllocatorCall → Option γ) (hread : ∀ i b, read (call i b) = none) (items : List β) :
    (callsFrom call 0 items).filterMap read = [] := by
  rw [List.filterMap_eq_nil_iff]
  intro c hc
  obtain ⟨⟨b, i⟩, -, rfl⟩ := List.mem_map.1 hc
  exact hread i b

theorem mem_callsFrom {call : ℕ → β → AllocatorCall} {items : List β} {c : AllocatorCall}
    (hc : c ∈ callsFrom call 0 items) : ∃ i b, c = call i b := by
  obtain ⟨⟨b, i⟩, -, rfl⟩ := List.mem_map.1 hc
  exact ⟨i, b, rfl⟩

end PushDefined

/-! ## Modules -/

/-- What was deallocated is what was allocated, each resource once and under its index. -/
structure Released (log : List AllocatorCall) : Prop where
  tables : log.filterMap AllocatorCall.deallocatedTable?
    = log.filterMap AllocatorCall.allocatedTable?
  memories : log.filterMap AllocatorCall.deallocatedMemory?
    = log.filterMap AllocatorCall.allocatedMemory?
  tables_once : ((log.filterMap AllocatorCall.deallocatedTable?).map Prod.fst).Nodup
  memories_once : ((log.filterMap AllocatorCall.deallocatedMemory?).map Prod.fst).Nodup
  vmctx : ∀ vmctx, .deallocateVmctx vmctx ∉ log

/-- Nothing was deallocated, and the maps hold what was allocated for each entity that the module
defines. -/
structure Kept (m : TranslatedModule) (log : List AllocatorCall) (tables : List Table)
    (memories : List InstanceMemory) : Prop where
  none : ∀ c ∈ log, ¬ c.IsDeallocation
  tables_length : tables.length = m.tables.length - m.numImportedTables
  memories_length : memories.length = m.memories.length - m.numImportedMemories
  tables : log.filterMap AllocatorCall.allocatedTable? = numbered tables
  memories : log.filterMap AllocatorCall.allocatedMemory? = numbered memories

/-- The allocator gave each resource for the entity of the module that has the resource's index. -/
structure FromAllocator (alloc : InstanceAllocator) (m : TranslatedModule)
    (log : List AllocatorCall) : Prop where
  tables : ∀ i table, (i, table) ∈ log.filterMap AllocatorCall.allocatedTable? →
    ∃ plan, m.tables[m.numImportedTables + i]? = some plan
      ∧ alloc.allocateTable m plan i = (.ok (.ok table) : Except Fault (Except Error _))
  memories : ∀ i memory, (i, memory) ∈ log.filterMap AllocatorCall.allocatedMemory? →
    ∃ plan, m.memories[m.numImportedMemories + i]? = some plan
      ∧ alloc.allocateMemory m plan i = (.ok (.ok memory) : Except Fault (Except Error _))

variable {debug : Bool} {alloc : InstanceAllocator} {m : TranslatedModule} {tables : List Table}
  {memories : List InstanceMemory} {log : List AllocatorCall}

/-- The resource `i` of a map was allocated for the entity `i` of those that the module defines. -/
def AllocatedFor {δ β : Type} (allocate : δ → ℕ → Fallible Error β) (plans : List δ) (k : ℕ)
    (items : List β) : Prop :=
  ∀ (i : ℕ) b, items[i]? = some b → ∃ plan, plans[k + i]? = some plan
    ∧ allocate plan i = (.ok (.ok b) : Except Fault (Except Error β))

theorem pushDefined_zipIdx {δ β : Type} {definedIndex : ℕ → Option ℕ}
    {allocate : δ → ℕ → Fallible Error β} {allocated : ℕ → β → AllocatorCall} {k : ℕ}
    (hdef : ∀ i, definedIndex i = if i < k then none else some (i - k)) {plans : List δ}
    {items : List β} {r : Except Error Unit}
    (h : Ends (pushDefined debug definedIndex allocate allocated [] plans.zipIdx) log (items, r)) :
    log = callsFrom allocated 0 items ∧ (r = .ok () → items.length = plans.length - k)
      ∧ AllocatedFor allocate plans k items := by
  have hlen : ([] : List β).length = 0 - k := (Nat.zero_sub k).symm
  obtain ⟨news, rfl, hlog, hok, hnews⟩ := pushDefined_ends hdef hlen h
  refine ⟨hlog, fun hr => ?_, fun i b hb => ?_⟩
  · rw [hok hr, Nat.zero_add]
  · obtain ⟨p, plan, hplan, hp, halloc⟩ := hnews i b hb
    rw [List.length_nil, Nat.zero_add] at hp halloc
    obtain rfl : p = k + i := by omega
    exact ⟨plan, hplan, halloc⟩

/-- How an allocation ends: with what it allocated given back, or with all of it. -/
inductive Outcome (m : TranslatedModule) (tables : List Table) (memories : List InstanceMemory) :
    List AllocatorCall → Except Error (ℕ × List Table × List InstanceMemory) → Prop
  | failed (e : Error) : Outcome m tables memories
      (callsFrom .allocateTable 0 tables ++ callsFrom .allocateMemory 0 memories
        ++ (callsFrom .deallocateMemory 0 memories ++ callsFrom .deallocateTable 0 tables)) (.error e)
  | returned (vmctx : ℕ) (htables : tables.length = m.tables.length - m.numImportedTables)
      (hmemories : memories.length = m.memories.length - m.numImportedMemories) :
      Outcome m tables memories
        (callsFrom .allocateTable 0 tables ++ callsFrom .allocateMemory 0 memories
          ++ [.allocateVmctx vmctx]) (.ok (vmctx, tables, memories))

theorem deallocate_both {e : Error} {r : Except Error (ℕ × List Table × List InstanceMemory)}
    (h : Ends (do
      deallocateMemories memories
      deallocateTables tables
      pure (.error e)) log r) :
    log = callsFrom .deallocateMemory 0 memories ++ callsFrom .deallocateTable 0 tables
      ∧ r = .error e := by
  obtain ⟨log₁, log₂, _, hmemories, h₁, rfl⟩ := Logged.bind_ends h
  obtain ⟨log₃, log₄, _, htables, h₂, rfl⟩ := Logged.bind_ends h₁
  obtain ⟨rfl, hr⟩ := Logged.mk.inj h₂
  have hmemories' : log₁ = callsFrom .deallocateMemory 0 memories := deallocate_ends hmemories
  have htables' : log₃ = callsFrom .deallocateTable 0 tables := deallocate_ends htables
  rw [hmemories', htables', List.append_nil]
  exact ⟨rfl, (Except.ok.inj hr).symm⟩

theorem allocateModule_outcome {module : Module}
    {r : Except Error (ℕ × List Table × List InstanceMemory)}
    (h : Ends (allocateModule debug alloc module) log r) :
    ∃ tables memories, Outcome module.translated tables memories log r
      ∧ AllocatedFor (alloc.allocateTable module.translated) module.translated.tables
        module.translated.numImportedTables tables
      ∧ AllocatedFor (alloc.allocateMemory module.translated) module.translated.memories
        module.translated.numImportedMemories memories := by
  have hnone : AllocatedFor (alloc.allocateMemory module.translated) module.translated.memories
      module.translated.numImportedMemories [] := by
    rintro i b ⟨⟩
  obtain ⟨_, _, _, hnum₁, h₁, rfl⟩ := Logged.bind_ends h
  obtain ⟨-, rfl⟩ := Logged.lift_ends hnum₁
  obtain ⟨_, _, _, hnum₂, h₂, rfl⟩ := Logged.bind_ends h₁
  obtain ⟨-, rfl⟩ := Logged.lift_ends hnum₂
  obtain ⟨log₁, log₂, ⟨tables, res₁⟩, htables, h₃, rfl⟩ := Logged.bind_ends h₂
  obtain ⟨rfl, hlength, hfor⟩ := pushDefined_zipIdx (TranslatedModule.definedTableIndex_eq _) htables
  cases res₁ with
  | error e =>
    obtain ⟨_, _, _, hpure, h₄, rfl⟩ := Logged.bind_ends h₃
    obtain ⟨rfl, hres⟩ := Logged.mk.inj hpure
    obtain rfl := Except.ok.inj hres
    obtain ⟨_, _, _, hpure', h₅, rfl⟩ := Logged.bind_ends h₄
    obtain ⟨rfl, hres'⟩ := Logged.mk.inj hpure'
    obtain rfl := Except.ok.inj hres'
    obtain ⟨rfl, rfl⟩ := deallocate_both h₅
    have hfailed : Outcome module.translated tables [] _ _ := .failed e
    exact ⟨tables, [], by simpa using hfailed, hfor, hnone⟩
  | ok _ =>
    obtain ⟨log₃, log₄, ⟨memories, res₂⟩, hmemories, h₄, rfl⟩ := Logged.bind_ends h₃
    obtain ⟨rfl, hlength', hfor'⟩ := pushDefined_zipIdx (TranslatedModule.definedMemoryIndex_eq _) hmemories
    refine ⟨tables, memories, ?_, hfor, hfor'⟩
    cases res₂ with
    | error e =>
      obtain ⟨_, _, _, hpure, h₅, rfl⟩ := Logged.bind_ends h₄
      obtain ⟨rfl, hres⟩ := Logged.mk.inj hpure
      obtain rfl := Except.ok.inj hres
      obtain ⟨rfl, rfl⟩ := deallocate_both h₅
      simpa using Outcome.failed e
    | ok _ =>
      obtain ⟨log₅, log₆, res₃, hvmctx, h₅, rfl⟩ := Logged.bind_ends h₄
      rcases answer_ends hvmctx with ⟨e, rfl, rfl⟩ | ⟨vmctx, rfl, rfl, -⟩
      · obtain ⟨rfl, rfl⟩ := deallocate_both h₅
        simpa using Outcome.failed e
      · obtain ⟨rfl, hr⟩ := Logged.mk.inj h₅
        obtain rfl := Except.ok.inj hr
        simpa using Outcome.returned vmctx (hlength rfl) (hlength' rfl)

section Reads

open AllocatorCall (allocatedTable? allocatedMemory? deallocatedTable? deallocatedMemory?)

@[simp] theorem reads_tables (tables : List Table) :
    (callsFrom .allocateTable 0 tables).filterMap allocatedTable? = numbered tables
      ∧ (callsFrom .allocateTable 0 tables).filterMap allocatedMemory? = []
      ∧ (callsFrom .allocateTable 0 tables).filterMap deallocatedTable? = []
      ∧ (callsFrom .allocateTable 0 tables).filterMap deallocatedMemory? = [] :=
  ⟨filterMap_callsFrom_some _ _ (fun _ _ => rfl) tables,
    filterMap_callsFrom_none _ _ (fun _ _ => rfl) tables,
    filterMap_callsFrom_none _ _ (fun _ _ => rfl) tables,
    filterMap_callsFrom_none _ _ (fun _ _ => rfl) tables⟩

@[simp] theorem reads_memories (memories : List InstanceMemory) :
    (callsFrom .allocateMemory 0 memories).filterMap allocatedTable? = []
      ∧ (callsFrom .allocateMemory 0 memories).filterMap allocatedMemory? = numbered memories
      ∧ (callsFrom .allocateMemory 0 memories).filterMap deallocatedTable? = []
      ∧ (callsFrom .allocateMemory 0 memories).filterMap deallocatedMemory? = [] :=
  ⟨filterMap_callsFrom_none _ _ (fun _ _ => rfl) memories,
    filterMap_callsFrom_some _ _ (fun _ _ => rfl) memories,
    filterMap_callsFrom_none _ _ (fun _ _ => rfl) memories,
    filterMap_callsFrom_none _ _ (fun _ _ => rfl) memories⟩

@[simp] theorem reads_freedTables (tables : List Table) :
    (callsFrom .deallocateTable 0 tables).filterMap allocatedTable? = []
      ∧ (callsFrom .deallocateTable 0 tables).filterMap allocatedMemory? = []
      ∧ (callsFrom .deallocateTable 0 tables).filterMap deallocatedTable? = numbered tables
      ∧ (callsFrom .deallocateTable 0 tables).filterMap deallocatedMemory? = [] :=
  ⟨filterMap_callsFrom_none _ _ (fun _ _ => rfl) tables,
    filterMap_callsFrom_none _ _ (fun _ _ => rfl) tables,
    filterMap_callsFrom_some _ _ (fun _ _ => rfl) tables,
    filterMap_callsFrom_none _ _ (fun _ _ => rfl) tables⟩

@[simp] theorem reads_freedMemories (memories : List InstanceMemory) :
    (callsFrom .deallocateMemory 0 memories).filterMap allocatedTable? = []
      ∧ (callsFrom .deallocateMemory 0 memories).filterMap allocatedMemory? = []
      ∧ (callsFrom .deallocateMemory 0 memories).filterMap deallocatedTable? = []
      ∧ (callsFrom .deallocateMemory 0 memories).filterMap deallocatedMemory?
        = numbered memories :=
  ⟨filterMap_callsFrom_none _ _ (fun _ _ => rfl) memories,
    filterMap_callsFrom_none _ _ (fun _ _ => rfl) memories,
    filterMap_callsFrom_none _ _ (fun _ _ => rfl) memories,
    filterMap_callsFrom_some _ _ (fun _ _ => rfl) memories⟩

theorem Outcome.allocated {r : Except Error (ℕ × List Table × List InstanceMemory)}
    (h : Outcome m tables memories log r) :
    log.filterMap allocatedTable? = numbered tables
      ∧ log.filterMap allocatedMemory? = numbered memories := by
  cases h <;> simp [allocatedTable?, allocatedMemory?]

theorem Outcome.deallocated {e : Error} (h : Outcome m tables memories log (.error e)) :
    log.filterMap deallocatedTable? = numbered tables
      ∧ log.filterMap deallocatedMemory? = numbered memories := by
  cases h
  simp

end Reads

theorem Outcome.released {e : Error} (h : Outcome m tables memories log (.error e)) :
    Released log := by
  obtain ⟨htables, hmemories⟩ := h.allocated
  obtain ⟨hdtables, hdmemories⟩ := h.deallocated
  refine ⟨hdtables.trans htables.symm, hdmemories.trans hmemories.symm, ?_, ?_, ?_⟩
  · rw [hdtables]
    exact numbered_nodup tables
  · rw [hdmemories]
    exact numbered_nodup memories
  · intro vmctx hmem
    cases h
    simp only [List.mem_append] at hmem
    rcases hmem with (hmem | hmem) | hmem | hmem <;>
      obtain ⟨_, _, hcall⟩ := mem_callsFrom hmem <;> cases hcall

theorem Outcome.kept {vmctx : ℕ} {tables' : List Table} {memories' : List InstanceMemory}
    (h : Outcome m tables memories log (.ok (vmctx, tables', memories'))) :
    Kept m log tables' memories' := by
  obtain ⟨htables, hmemories⟩ := h.allocated
  cases h with
  | returned _ hlength hlength' =>
    refine ⟨fun c hc => ?_, hlength, hlength', htables, hmemories⟩
    simp only [List.mem_append, List.mem_singleton] at hc
    rcases hc with (hc | hc) | rfl
    · obtain ⟨_, _, rfl⟩ := mem_callsFrom hc
      exact id
    · obtain ⟨_, _, rfl⟩ := mem_callsFrom hc
      exact id
    · exact id

theorem mem_numbered {β : Type} {items : List β} {i : ℕ} {b : β} (h : (i, b) ∈ numbered items) :
    items[i]? = some b := by
  obtain ⟨⟨b', i'⟩, hmem, hswap⟩ := List.mem_map.1 h
  obtain ⟨rfl, rfl⟩ := Prod.mk.inj hswap
  exact List.mk_mem_zipIdx_iff_getElem?.1 hmem

/-- Whichever of its allocations fail, an allocation of a module that returns an error has given back
what was allocated, and one that returns has kept a resource for each entity that the module
defines. -/
theorem allocateModule_released_or_kept {module : Module}
    {r : Except Error (ℕ × List Table × List InstanceMemory)}
    (h : Ends (allocateModule debug alloc module) log r) :
    (∀ e, r = .error e → Released log)
      ∧ (∀ vmctx tables memories, r = .ok (vmctx, tables, memories) →
        Kept module.translated log tables memories)
      ∧ FromAllocator alloc module.translated log := by
  obtain ⟨tables, memories, houtcome, hfor, hfor'⟩ := allocateModule_outcome h
  obtain ⟨htables, hmemories⟩ := houtcome.allocated
  refine ⟨?_, ?_, ?_, ?_⟩
  · rintro e rfl
    exact houtcome.released
  · rintro vmctx tables' memories' rfl
    exact houtcome.kept
  · intro i table hmem
    exact hfor i table (mem_numbered (htables ▸ hmem))
  · intro i memory hmem
    exact hfor' i memory (mem_numbered (hmemories ▸ hmem))

/-- A module that imports one of its two tables, and declares a memory. -/
def twoTables : TranslatedModule :=
  { tables := [⟨⟨true, ⟨false, .func⟩⟩, false, 1, none, false⟩,
      ⟨⟨true, ⟨false, .func⟩⟩, false, 2, none, false⟩]
    memories := [⟨1, none, 0, 16, false, false⟩]
    numImportedTables := 1 }

/-- An allocator that has run out of memories. -/
def noMemories : InstanceAllocator where
  allocateVmctx _ _ := pure 0x1000
  allocateMemory _ _ _ := throw .mmapFailed
  allocateTable _ plan _ := pure ⟨0x2000, List.replicate plan.minimum none, plan.maximum⟩

theorem allocateModule_released_or_kept_twoTables :
    ∃ off, VMOffsets.forModule 8 twoTables = .ok off
      ∧ Ends (allocateModule true noMemories ⟨twoTables, off, ⟨0x8000, 0, [], []⟩, ⟨[], []⟩, 0x9000, []⟩)
        [.allocateTable 0 ⟨0x2000, [none, none], none⟩,
          .deallocateTable 0 ⟨0x2000, [none, none], none⟩] (.error .mmapFailed)
      ∧ Released [.allocateTable 0 ⟨0x2000, [none, none], none⟩,
        .deallocateTable 0 ⟨0x2000, [none, none], none⟩] := by
  obtain ⟨off, hoff, hends⟩ : ∃ off, VMOffsets.forModule 8 twoTables = .ok off
      ∧ Ends (allocateModule true noMemories ⟨twoTables, off, ⟨0x8000, 0, [], []⟩, ⟨[], []⟩, 0x9000, []⟩)
        [.allocateTable 0 ⟨0x2000, [none, none], none⟩,
          .deallocateTable 0 ⟨0x2000, [none, none], none⟩] (.error .mmapFailed) := ⟨_, rfl, rfl⟩
  exact ⟨off, hoff, hends, (allocateModule_released_or_kept hends).1 _ rfl⟩

/-! ## Without the record -/

section Results

variable {δ β : Type} {debug : Bool} {definedIndex : ℕ → Option ℕ}
  {allocate : δ → ℕ → Fallible Error β} {allocated : ℕ → β → AllocatorCall}

theorem answer_result (x : Fallible Error β) (succeeded : β → AllocatorCall) :
    (answer x succeeded).result = x.run := by
  unfold answer
  rcases x.run with fault | e | b <;> rfl

/-- What a loop over a map returns where it is not recorded: the map, or the error. -/
def mapOf (p : List β × Except Error Unit) : Except Error (List β) := p.2.map fun _ => p.1

/-- One round of the loop that is not recorded. -/
def round (debug : Bool) (definedIndex : ℕ → Option ℕ) (allocate : δ → ℕ → Fallible Error β)
    (done : List β) (p : δ × ℕ) : Fallible Error (List β) :=
  match definedIndex p.2 with
  | none => pure done
  | some defIndex => do
    let new ← allocate p.1 defIndex
    debugAssert debug (defIndex = done.length) "assertion `left == right` failed"
    pure (done ++ [new])

theorem pushDefined_result (plans : List (δ × ℕ)) (done : List β) :
    mapOf <$> (pushDefined debug definedIndex allocate allocated done plans).result
      = (plans.foldlM (round debug definedIndex allocate) done).run := by
  induction plans generalizing done with
  | nil => rfl
  | cons p plans ih =>
    obtain ⟨plan, index⟩ := p
    rw [List.foldlM_cons]
    unfold pushDefined
    rcases hdef : definedIndex index with _ | defIndex
    · have hround : round debug definedIndex allocate done (plan, index) = pure done := by
        simp only [round, hdef]
      rw [hround]
      exact ih done
    · have hround : round debug definedIndex allocate done (plan, index) = (do
          let new ← allocate plan defIndex
          debugAssert debug (defIndex = done.length) "assertion `left == right` failed"
          pure (done ++ [new])) := by
        simp only [round, hdef]
      rw [hround]
      dsimp only
      rw [Logged.bind_result, answer_result]
      rcases halloc : allocate plan defIndex with fault | e | new
      · rfl
      · rfl
      · rcases hassert : debugAssert debug (defIndex = done.length)
            "assertion `left == right` failed" with fault | u
        · rfl
        · exact ih (done ++ [new])

theorem pushDefined_result_zipIdx (plans : List δ) :
    mapOf <$> (pushDefined debug definedIndex allocate allocated [] plans.zipIdx).result
      = (allocateDefined debug definedIndex allocate plans).run :=
  pushDefined_result plans.zipIdx []

theorem deallocate_result {items : List β} {call : β × ℕ → AllocatorCall} :
    (Logged.recordAll (fun p => (pure (call p) : Except Fault AllocatorCall)) items.zipIdx).result
      = .ok () := by
  obtain ⟨log, hends⟩ := Logged.recordAll_returns (l := items.zipIdx) fun p _ =>
    (⟨call p, rfl⟩ : ∃ w, (pure (call p) : Except Fault AllocatorCall) = .ok w)
  exact (Logged.mk.inj hends).2

end Results

theorem deallocate_both_result (tables : List Table) (memories : List InstanceMemory) (e : Error) :
    (do
      deallocateMemories memories
      deallocateTables tables
      pure (.error e) : Allocating (Except Error (ℕ × List Table × List InstanceMemory))).result
      = .ok (.error e) := by
  have hmemories : (deallocateMemories memories).result = .ok () := deallocate_result
  have htables : (deallocateTables tables).result = .ok () := deallocate_result
  rw [Logged.bind_result, hmemories]
  show (deallocateTables tables >>= _ : Allocating _).result = _
  rw [Logged.bind_result, htables]
  rfl

/-- What the recorded allocation of a module returns is what the allocation returns that is not
recorded. -/
theorem allocateModule_result (debug : Bool) (alloc : InstanceAllocator) (module : Module) :
    (Recorded.allocateModule debug alloc module).result = (alloc.allocateModule debug module).run := by
  have htables : mapOf <$> (allocateTables debug alloc module.translated).result
      = (alloc.allocateTables debug module.translated).run := pushDefined_result_zipIdx _
  have hmemories : mapOf <$> (allocateMemories debug alloc module.translated).result
      = (alloc.allocateMemories debug module.translated).run := pushDefined_result_zipIdx _
  unfold allocateModule InstanceAllocator.allocateModule allocateVmctx answer
  rcases module.translated.numDefinedTables with fault | n
  · rfl
  rcases module.translated.numDefinedMemories with fault | n'
  · rfl
  generalize alloc.allocateTables debug module.translated = x at htables ⊢
  obtain rfl : _ = x := htables
  rcases allocateTables debug alloc module.translated with ⟨log, fault | ⟨tables, e | u⟩⟩
  · rfl
  · exact deallocate_both_result tables [] e
  generalize alloc.allocateMemories debug module.translated = x at hmemories ⊢
  obtain rfl : _ = x := hmemories
  rcases allocateMemories debug alloc module.translated with ⟨log', fault | ⟨memories, e | u⟩⟩
  · rfl
  · exact deallocate_both_result tables memories e
  rcases alloc.allocateVmctx module.translated module.offsets with fault | e | vmctx
  · rfl
  · exact deallocate_both_result tables memories e
  · rfl

end K23VM.InstanceAllocator.Recorded
