import K23VM.Cranelift.CallIndirect
import K23VM.Proofs.HashConsing
import K23VM.Proofs.InternedTypes

/-!
# The type id an indirect call expects

The emitted check takes the declared index of a type for its place in the array of type ids, which
is ordered by interned index.  The two agree exactly where no rec group that is declared before
repeats an earlier one, `callIndirect_right_iff`; elsewhere the check compares with the id of another
type or reads past the array.
-/

namespace K23VM

open Wasmparser Cranelift

/-- Plain function references, which may be null. -/
def funcrefType : WasmRefType := ⟨true, ⟨false, .func⟩⟩

/-- The id that the check of the type `t` loads is in the array, and is that of `module.types[t]`. -/
def TypeIdRight (off : StaticVMOffsets) (c : RuntimeTypeCollection) (types : List ℕ) (t : ℕ) :
    Prop :=
  ∃ offset u id, typeIdOffset off t = .ok offset
    ∧ offset + off.sizeOfVmsharedTypeIndex ≤ c.types.length * off.sizeOfVmsharedTypeIndex
    ∧ types[t]? = some u ∧ c.types[u]? = some id
    ∧ ∀ mem vmctx typeIds, VMContextInitialized off mem vmctx typeIds c →
      mem (typeIds + offset) off.sizeOfVmsharedTypeIndex = some id

/-- The check of the type `t` of the module `A` passes for a function reference of a live instance
exactly where the function's type and `t` are the same type. -/
def CheckRight (off : StaticVMOffsets) (s : EngineState) (A : ModuleTypes)
    (c : RuntimeTypeCollection) (types : List ℕ) (t : ℕ) : Prop :=
  ∀ B cB, (B, cB) ∈ s.collections → ∀ typesB sig u w actual, types[t]? = some u →
    typesB[sig]? = some w → vmFuncRefTypeIndex typesB cB sig = .ok actual →
    ∀ mem vmctx typeIds ρ funcref next, VMContextInitialized off mem vmctx typeIds c →
    mem (ρ funcref + off.vmFuncRefTypeIndex) off.sizeOfVmsharedTypeIndex = some actual →
    funcref < next →
    ∃ code, checkIndirectCallTypeSignature off funcrefType types t funcref next
        = .ok (code, .runtime)
      ∧ ((∃ ρ', runCheck mem vmctx ρ code = .ok ρ') ↔ IsoEq A B u w)

section Check

variable {off : StaticVMOffsets} {mem : WordMemory} {vmctx typeIds : ℕ} {c : RuntimeTypeCollection}

theorem typeIdOffset_ok {t : ℕ} (ht : t < 2 ^ 29) : typeIdOffset off t = .ok (t * 4) := by
  unfold typeIdOffset StaticVMOffsets.sizeOfVmsharedTypeIndex
  split_ifs with h32
  · rw [unwrap_some]
    simp only [bind, Except.bind]
    split_ifs with h31
    · rfl
    · omega
  · omega

theorem check_funcref {types : List ℕ} {t funcref next : ℕ} (ht : t < 2 ^ 29) :
    checkIndirectCallTypeSignature off funcrefType types t funcref next
      = .ok ([.vmctx next, .load off.ptrSize next off.vmctxTypeIds none (next + 1),
          .load 4 (next + 1) (t * 4) none (next + 2),
          .load 4 funcref off.vmFuncRefTypeIndex (some .indirectCallToNull) (next + 3),
          .icmpEqual (next + 2) (next + 3) (next + 4), .trapz (next + 4) .badSignature],
        .runtime) := by
  simp only [checkIndirectCallTypeSignature, funcrefType, typeIdOffset_ok ht]
  rfl

/-- The check compares the ids it loads. -/
theorem runCheck_funcref {t funcref next expected actual : ℕ} {ρ : ℕ → ℕ}
    (hm : VMContextInitialized off mem vmctx typeIds c)
    (he : mem (typeIds + t * 4) 4 = some expected)
    (ha : mem (ρ funcref + off.vmFuncRefTypeIndex) 4 = some actual) (hf : funcref < next) :
    (∃ ρ', runCheck mem vmctx ρ
        [.vmctx next, .load off.ptrSize next off.vmctxTypeIds none (next + 1),
          .load 4 (next + 1) (t * 4) none (next + 2),
          .load 4 funcref off.vmFuncRefTypeIndex (some .indirectCallToNull) (next + 3),
          .icmpEqual (next + 2) (next + 3) (next + 4), .trapz (next + 4) .badSignature] = .ok ρ')
      ↔ expected = actual := by
  have hptr := hm.ptr
  have h1 : funcref ≠ next := by omega
  have h2 : funcref ≠ next + 1 := by omega
  have h3 : funcref ≠ next + 2 := by omega
  simp only [runCheck, List.foldlM_cons, List.foldlM_nil, CheckInst.run, bind, Except.bind,
    Function.update_self, Function.update_of_ne, ne_eq, h1, h2, h3, not_false_eq_true, hptr, he, ha]
  by_cases h : expected = actual
  · simp [h, pure, Except.pure]
  · simp [h]

/-- A memory with nothing but the array of type ids and the pointer to it. -/
def typeIdsMemory (off : StaticVMOffsets) (c : RuntimeTypeCollection) : WordMemory := fun a _ =>
  if a = off.vmctxTypeIds then some (off.vmctxTypeIds + 1)
  else c.types[(a - (off.vmctxTypeIds + 1)) / 4]?

theorem typeIdsMemory_initialized (off : StaticVMOffsets) (c : RuntimeTypeCollection) :
    VMContextInitialized off (typeIdsMemory off c) 0 (off.vmctxTypeIds + 1) c := by
  refine ⟨?_, fun i id hi => ?_⟩
  · rw [typeIdsMemory, Nat.zero_add, if_pos rfl]
  · have hsub : off.vmctxTypeIds + 1 + i * 4 - (off.vmctxTypeIds + 1) = i * 4 := by omega
    rw [typeIdsMemory, StaticVMOffsets.sizeOfVmsharedTypeIndex, if_neg (by omega), hsub,
      Nat.mul_div_cancel i (by omega), hi]

theorem typeIdRight_iff {types : List ℕ} {t u : ℕ} (ht : t < 2 ^ 29) (hu : types[t]? = some u) :
    TypeIdRight off c types t ↔ ∃ id, c.types[t]? = some id ∧ c.types[u]? = some id := by
  constructor
  · rintro ⟨offset, u', id, hoff, hin, hu', hid, hmem⟩
    obtain rfl := Option.some_inj.1 (hu.symm.trans hu')
    rw [typeIdOffset_ok ht] at hoff
    obtain rfl := Except.ok.inj hoff
    rw [StaticVMOffsets.sizeOfVmsharedTypeIndex] at hin
    have hlt : t < c.types.length := by omega
    have hget := List.getElem?_eq_getElem hlt
    have hinit := typeIdsMemory_initialized off c
    exact ⟨id, hget.trans ((hinit.ids t _ hget).symm.trans (hmem _ _ _ hinit)), hid⟩
  · rintro ⟨id, hid, hid'⟩
    have hlt := (List.getElem?_eq_some_iff.1 hid).1
    refine ⟨t * 4, u, id, typeIdOffset_ok ht, ?_, hu, hid', fun mem vmctx typeIds hm =>
      hm.ids t id hid⟩
    rw [StaticVMOffsets.sizeOfVmsharedTypeIndex]
    omega

end Check

/-- The check of a declared type loads the right id, and passes for the functions of that type,
exactly where no rec group that is declared up to the type's own repeats an earlier one. -/
theorem callIndirect_right_iff {debug : Bool} {π : SlabPolicy} {s : EngineState}
    {v : ValidatorTypes} {before after : List ℕ} {g q : ℕ} {b : ModuleTypesBuilder}
    {types : List ℕ} {c : RuntimeTypeCollection} (off : StaticVMOffsets)
    (hv : v.Canonical (before ++ g :: after)) (hq : q < (v.recGroupElements g).length)
    (hlimit : (internedIds v before).length + q < 1000000)
    (htr : translateTypeSection debug v (before ++ g :: after).length = .ok (b, types))
    (hs : EngineState.Reachable debug π s) (hc : (b.types, c) ∈ s.collections) :
    (TypeIdRight off c types ((internedIds v before).length + q)
      ∧ CheckRight off s b.types c types ((internedIds v before).length + q))
    ↔ (before ++ [g]).Nodup := by
  have hinv := reachable_inv hs
  obtain ⟨hne, hok, rfl⟩ := translateTypeSection_ok hv.coreTypes hv.idOf hv.nodup htr
  have hlive := hinv.liveCollection hc
  have hu := getElem?_types before after (firsts (before ++ g :: after)) hq
  have hgs : ∀ h ∈ firsts (before ++ g :: after), h ∈ before ++ g :: after := fun h hh =>
    mem_firsts.1 hh
  have hlt : (internedIds v before).length + q < 2 ^ 29 := by omega
  rw [typeIdRight_iff hlt hu, ← startOf_firsts_eq_iff hne]
  constructor
  · rintro ⟨⟨id, hid, hid'⟩, -⟩
    have hiso := isoEq_of_index_eq hinv.inv hlive hlive _ hid hid'
    have := hok.isoEq_self hv hgs (nodup_firsts _) hiso
    omega
  · intro hstart
    rw [hstart] at hu
    have hin : (internedIds v before).length + q < c.types.length := by
      have hmem : g ∈ firsts (before ++ g :: after) := mem_firsts.2 (by simp)
      have hget := getElem?_internedIds hmem hq
      rw [hlive.length, hok.length, ← hstart]
      exact (List.getElem?_eq_some_iff.1 (hget.trans (List.getElem?_eq_getElem hq))).1
    have hid := List.getElem?_eq_getElem hin
    refine ⟨⟨_, hid, by rw [hstart, hid]⟩, ?_⟩
    intro B cB hB typesB sig u w actual hu' hw hact mem vmctx typeIds ρ funcref next hm ha hf
    obtain rfl := Option.some_inj.1 (hu.symm.trans hu')
    refine ⟨_, check_funcref hlt, (runCheck_funcref hm (hm.ids _ _ hid) ha hf).trans ?_⟩
    have hlook : cB.types[w]? = some actual := by
      obtain ⟨w', hw', hact⟩ := bind_eq_ok.1 hact
      obtain rfl := Option.some_inj.1 (hw.symm.trans (unwrap_eq_ok.1 hw'))
      exact unwrap_eq_ok.1 hact
    have hliveB := hinv.liveCollection hB
    constructor
    · intro heq
      exact isoEq_of_index_eq hinv.inv hlive hliveB _ hid (heq ▸ hlook)
    · exact fun hiso => index_eq_of_isoEq hinv.inv hlive hliveB hiso hid hlook

/-- A type section of function types, each in a group of its own: the type `x` takes `x` integers. -/
def funcTypes (groups : List ℕ) : ValidatorTypes where
  id := 0
  coreTypes := groups
  recGroupIdOf := id
  recGroupElements g := [g]
  subType x := ⟨true, none, ⟨.func ⟨List.replicate x .i32, []⟩, false⟩⟩

theorem funcTypes_canonical (groups : List ℕ) : (funcTypes groups).Canonical groups where
  refs g _ x _ r hr := by
    simp [funcTypes, SubType.indices, CompositeType.indices, CompositeInnerType.indices,
      FuncType.indices, ValType.indices] at hr
  coreTypes := by simp [funcTypes]
  idOf g _ x hx := List.mem_singleton.1 hx
  nodup g _ := List.nodup_singleton g
  canonical g _ h _ heq := by
    simpa [funcTypes, ValidatorTypes.relativeGroup, SubType.mapIndex, CompositeType.mapIndex,
      CompositeInnerType.mapIndex, FuncType.mapIndex, ValType.mapIndex] using heq

theorem funcTypes_wf {debug : Bool} {groups : List ℕ} {b : ModuleTypesBuilder} {types : List ℕ}
    (h : translateTypeSection debug (funcTypes groups) groups.length = .ok (b, types)) :
    (RegistryOp.registerModuleTypes b.types).WF := by
  have hv := funcTypes_canonical groups
  obtain ⟨-, hok, -⟩ := translateTypeSection_ok hv.coreTypes hv.idOf hv.nodup h
  exact hok.wf hv.refs fun g hg => mem_firsts.1 hg

/-- Two different function types. -/
theorem callIndirect_right_distinct : ∃ b types s c,
    translateTypeSection false (funcTypes [0, 1]) 2 = .ok (b, types)
      ∧ EngineState.new.step false .lowest (.registerModuleTypes b.types) = .ok s
      ∧ (b.types, c) ∈ s.collections ∧ TypeIdRight ⟨8⟩ c types 1
      ∧ CheckRight ⟨8⟩ s b.types c types 1 := by
  obtain ⟨b, types, htr⟩ : ∃ b types,
      translateTypeSection false (funcTypes [0, 1]) 2 = .ok (b, types) := ⟨_, _, rfl⟩
  have hwf := funcTypes_wf htr
  have htypes : b.types = ⟨[(0, 1), (1, 2)], [⟨true, none, ⟨.func ⟨[], []⟩, false⟩⟩,
      ⟨true, none, ⟨.func ⟨[.i32], []⟩, false⟩⟩]⟩ := by
    obtain ⟨rfl, -⟩ := Prod.mk.inj (Except.ok.inj htr)
    rfl
  obtain ⟨s, c, hstep, hc⟩ : ∃ s c, EngineState.new.step false .lowest
      (.registerModuleTypes b.types) = .ok s ∧ (b.types, c) ∈ s.collections := by
    rw [htypes]
    exact ⟨_, ⟨[0, 1], [0, 1]⟩, rfl, List.mem_cons_self⟩
  have hright := callIndirect_right_iff (g := 1) (q := 0) ⟨8⟩ (funcTypes_canonical ([0] ++ [1]))
    (by decide) (by decide) htr (.step .new hwf hstep) hc
  exact ⟨b, types, s, c, htr, hstep, hc, hright.2 (by decide)⟩

/-- The same function type twice and another after it: the check of the second type loads the id of
the third, and the third has no id in the array at all. -/
theorem callIndirect_wrong_repeated : ∃ b types s c,
    translateTypeSection false (funcTypes [0, 0, 1]) 3 = .ok (b, types)
      ∧ EngineState.Reachable false .lowest s ∧ (b.types, c) ∈ s.collections
      ∧ types = [0, 0, 1] ∧ c.types = [0, 1]
      ∧ ¬ TypeIdRight ⟨8⟩ c types 1 ∧ ¬ TypeIdRight ⟨8⟩ c types 2 := by
  obtain ⟨b, types, htr⟩ : ∃ b types,
      translateTypeSection false (funcTypes [0, 0, 1]) 3 = .ok (b, types) := ⟨_, _, rfl⟩
  have hwf := funcTypes_wf htr
  have htypes : b.types = ⟨[(0, 1), (1, 2)], [⟨true, none, ⟨.func ⟨[], []⟩, false⟩⟩,
      ⟨true, none, ⟨.func ⟨[.i32], []⟩, false⟩⟩]⟩ ∧ types = [0, 0, 1] := by
    obtain ⟨rfl, rfl⟩ := Prod.mk.inj (Except.ok.inj htr)
    exact ⟨rfl, rfl⟩
  obtain ⟨s, hstep, hc⟩ : ∃ s, EngineState.new.step false .lowest
      (.registerModuleTypes b.types) = .ok s ∧ (b.types, ⟨[0, 1], [0, 1]⟩) ∈ s.collections := by
    rw [htypes.1]
    exact ⟨_, rfl, List.mem_cons_self⟩
  obtain ⟨-, rfl⟩ := htypes
  refine ⟨b, _, s, _, htr, .step .new hwf hstep, hc, rfl, rfl, ?_, ?_⟩
  · rw [typeIdRight_iff (by norm_num) rfl]
    rintro ⟨id, h, h'⟩
    exact absurd (h.trans h'.symm) (by decide)
  · rw [typeIdRight_iff (by norm_num) rfl]
    rintro ⟨id, h, -⟩
    cases h

end K23VM
