import Mathlib.Logic.Relation
import K23VM.Proofs.ExportSlots
import K23VM.Session

/-!
# Exports over a whole session

However instances are made, defined under names and asked for their exports, an export is found by the
same handle each time.  Where it is imported, its origin is found by going from the import to the slot
whose handle the linker had, as often as it takes: each of these is of an instance that was made before.
-/

namespace K23VM

open Relation (ReflTransGen)
open Slots (Keeps)
open Wasmparser (declaredExports)

/-! ## New instances -/

theorem Instance.newUnchecked_spec {debug : Bool} {builtinFunctions : ℕ} {alloc : InstanceAllocator}
    {ev ev' : ConstExprEvaluator} {module : Module} {imports : Imports} {data : Instance}
    (h : Instance.newUnchecked debug builtinFunctions alloc ev module imports
      = (.ok (.ok (data, ev')) : Except Fault (Except Error _))) :
    data.module = module ∧ data.FilledIn imports
      ∧ data.exports = module.translated.exports.map (fun _ => none)
      ∧ alloc.allocateVmctx module.translated module.offsets
        = (.ok (.ok data.vmctx.address) : Except Fault (Except Error _)) := by
  unfold newUnchecked at h
  obtain ⟨⟨vmctx, tables, memories⟩, halloc, h⟩ := fallible_bind_eq_ok.1 h
  obtain ⟨ev₁, hwriting, h⟩ := fallible_bind_eq_ok.1 h
  obtain ⟨_, -, h⟩ := fallible_bind_eq_ok.1 h
  obtain ⟨_, -, h⟩ := fallible_bind_eq_ok.1 h
  obtain ⟨rfl, -⟩ := Prod.mk.inj (Except.ok.inj (Except.ok.inj h))
  refine ⟨rfl, ⟨debug, builtinFunctions, ev, ev₁, tables, memories, ?_⟩, rfl, ?_⟩
  · unfold Logged.Ends
    rw [← fallible_lift_eq_ok hwriting]
  · unfold InstanceAllocator.allocateModule at halloc
    obtain ⟨_, -, halloc⟩ := fallible_bind_eq_ok.1 halloc
    obtain ⟨_, -, halloc⟩ := fallible_bind_eq_ok.1 halloc
    obtain ⟨_, -, halloc⟩ := fallible_bind_eq_ok.1 halloc
    obtain ⟨_, -, halloc⟩ := fallible_bind_eq_ok.1 halloc
    obtain ⟨vmctx', hvmctx, halloc⟩ := fallible_bind_eq_ok.1 halloc
    obtain ⟨rfl, -⟩ := Prod.mk.inj (Except.ok.inj (Except.ok.inj halloc))
    exact hvmctx

/-- No vmctx is allocated where one is in use. -/
def InstanceAllocator.Fresh (alloc : InstanceAllocator) (store : Store) : Prop :=
  ∀ m off address, alloc.allocateVmctx m off = (.ok (.ok address) : Except Fault (Except Error _)) →
    address ∉ store.addresses

namespace Store

variable {store store' : Store} {linkedWith : List Linker} {linker : Linker} {data : Instance}
  {item : Extern}

theorem slot_pushInstance (hnone : ∀ item, some item ∉ data.exports) :
    (store.pushInstance data).2.slot = store.slot := by
  funext ⟨i, k⟩
  refine Option.ext fun item => ?_
  rw [slot_eq_some, slot_eq_some]
  constructor
  · rintro ⟨data', hdata', hk⟩
    have hi := (List.getElem?_eq_some_iff.1 hdata').1
    rw [pushInstance, List.length_append, List.length_singleton] at hi
    by_cases heq : i = store.instances.length
    · subst heq
      obtain rfl := Option.some_inj.1 ((List.getElem?_concat_length ..).symm.trans hdata')
      exact absurd (List.mem_of_getElem? hk) (hnone item)
    · exact ⟨data', (getElem?_push_of_ne heq).symm.trans hdata', hk⟩
  · rintro ⟨data', hdata', hk⟩
    exact ⟨data', (getElem?_push (List.getElem?_eq_some_iff.1 hdata').1).trans hdata', hk⟩

theorem exported_pushInstance : (store.pushInstance data).2.exported = store.exported := by
  funext item
  cases item <;> rfl

theorem extends_pushInstance (store : Store) (data : Instance) :
    store.Extends (store.pushInstance data).2 := by
  refine ⟨fun i data' hdata' => ⟨data', ?_, .refl data'⟩, fun item e he => ?_⟩
  · exact (getElem?_push (List.getElem?_eq_some_iff.1 hdata').1).trans hdata'
  · rw [exported_pushInstance, he]

/-- A new instance, which knows none of its exports yet. -/
theorem Inv.pushInstance (h : store.Inv linkedWith)
    (hinst : (store.pushInstance data).2.InstanceInv store.instances.length data linker)
    (hexports : data.exports = data.module.translated.exports.map fun _ => none)
    (hfresh : data.vmctx.address ∉ store.addresses) :
    (store.pushInstance data).2.Inv (linkedWith ++ [linker]) := by
  have hext := extends_pushInstance store data
  have hnone : ∀ item, some item ∉ data.exports := by
    rw [hexports]
    simp
  have hslot : (store.pushInstance data).2.slot = store.slot := slot_pushInstance hnone
  have hcases : ∀ (i : ℕ) data', (store.pushInstance data).2.instances[i]? = some data' →
      store.instances[i]? = some data' ∨ i = store.instances.length ∧ data' = data := by
    intro i data' hdata'
    by_cases heq : i = store.instances.length
    · subst heq
      exact .inr ⟨rfl, Option.some_inj.1 (hdata'.symm.trans (List.getElem?_concat_length ..))⟩
    · exact .inl ((getElem?_push_of_ne heq).symm.trans hdata')
  have haddresses : (store.pushInstance data).2.addresses = store.addresses ++ [data.vmctx.address] :=
    List.map_append
  refine ⟨?_, fun i data' linker' hdata' hlinker => ?_, fun i data' hdata' => ?_, ?_,
    fun i k data' item hdata' hk => ?_, ?_, ?_⟩
  · rw [Store.pushInstance, List.length_append, List.length_append, h.linked]
    rfl
  · rcases hcases i data' hdata' with hold | ⟨rfl, rfl⟩
    · rw [List.getElem?_append_left (h.linked ▸ (List.getElem?_eq_some_iff.1 hold).1)] at hlinker
      exact (h.instances i data' linker' hold hlinker).mono hext (.refl data')
    · rw [← h.linked, List.getElem?_concat_length] at hlinker
      obtain rfl := Option.some_inj.1 hlinker
      exact hinst
  · rcases hcases i data' hdata' with hold | ⟨rfl, rfl⟩
    · exact h.length i data' hold
    · rw [hexports, List.length_map]
  · have hmade : (store.pushInstance data).2.Made = store.Made := by
      unfold Made
      rw [exported_pushInstance]
    rw [hslot, hmade]
    exact h.slots
  · rcases hcases i data' hdata' with hold | ⟨rfl, rfl⟩
    · rw [exported_pushInstance]
      exact h.resolves i k data' item hold hk
    · exact absurd (List.mem_of_getElem? hk) (hnone item)
  · have hlength : store.addresses.length = store.instances.length := List.length_map ..
    rw [haddresses, List.zipIdx_append, List.reverse_append, ← h.vmctxs, hlength, Nat.zero_add]
    rfl
  · rw [haddresses, List.nodup_append]
    refine ⟨h.distinct, List.nodup_singleton _, fun a ha b hb => ?_⟩
    obtain rfl := List.mem_singleton.1 hb
    rintro rfl
    exact hfresh ha

/-- What a linker defines are handles that are kept with instances. -/
structure LinkerInv (store : Store) (linker : Linker) : Prop where
  inv : linker.Inv
  kept : ∀ k item, linker.defs k = some item → ∃ p, store.slot p = some item

theorem LinkerInv.mono (h : store.LinkerInv linker) (hext : store.Extends store') :
    store'.LinkerInv linker := by
  refine ⟨h.inv, fun k item hk => ?_⟩
  obtain ⟨p, hp⟩ := h.kept k item hk
  exact ⟨p, hext.keeps p item hp⟩

/-- Making an instance keeps a store in order. -/
theorem Inv.instantiate (h : store.Inv linkedWith) (hlinker : store.LinkerInv linker) {debug : Bool}
    {builtinFunctions : ℕ} {alloc : InstanceAllocator} {ev ev' : ConstExprEvaluator} {module : Module}
    {ps : List Wasmparser.Payload} (hloaded : module.LoadedFrom ps) (hfresh : alloc.Fresh store)
    {handle : ℕ} (hrun : linker.instantiate debug builtinFunctions store alloc ev module
      = (.ok (.ok ((handle, store'), ev')) : Except Fault (Except Error _))) :
    store'.Inv (linkedWith ++ [linker]) ∧ store.Extends store' := by
  unfold Linker.instantiate at hrun
  obtain ⟨imports, himports, hrun⟩ := fallible_bind_eq_ok.1 hrun
  obtain ⟨⟨data, ev₁⟩, hnew, hrun⟩ := fallible_bind_eq_ok.1 hrun
  obtain ⟨hpush, -⟩ := Prod.mk.inj (Except.ok.inj (Except.ok.inj hrun))
  obtain ⟨rfl, hfilled, hexports, halloc⟩ := Instance.newUnchecked_spec hnew
  obtain rfl : (store.pushInstance data).2 = store' := congrArg Prod.snd hpush
  have hext := extends_pushInstance store data
  refine ⟨h.pushInstance ⟨⟨ps, hloaded⟩, fun entity hhas hnone => ?_,
    fun entity import_ hhas himport => ?_⟩ hexports (hfresh _ _ _ halloc), hext⟩
  · obtain ⟨t, ht, hm⟩ := hloaded.translated
    have hland := resolveImports_land ht hm himports
    exact hloaded.getExportByIndex_defined (hm ▸ hland.complete) hfilled hhas hnone
  · obtain ⟨e, item, he, hitem, hr⟩ :=
      hloaded.getExportByIndex_imported himports hfilled hhas himport
    obtain ⟨⟨i, k⟩, hp⟩ := hlinker.kept (import_.module, import_.name) item hitem
    obtain ⟨other, hother, -⟩ := slot_eq_some.1 hp
    exact ⟨e, item, (i, k), he, hitem, hext.referent hr, hext.keeps _ item hp,
      (List.getElem?_eq_some_iff.1 hother).1⟩

/-! ## Calls on a store -/

theorem Inv.getExport_next (h : store.Inv linkedWith) {i : ℕ} {name : String}
    {found : Option Extern} (hrun : store.getExport i name = .ok (found, store')) :
    store'.Inv linkedWith ∧ store.Extends store' := by
  obtain ⟨data, hdata, hrest⟩ := bind_eq_ok.1 hrun
  replace hdata := unwrap_eq_ok.1 hdata
  rcases hfull : getFull data.module.translated.exports name with _ | ⟨k, entity⟩
  · rw [hfull] at hrest
    obtain ⟨-, rfl⟩ := Prod.mk.inj (Except.ok.inj hrest)
    exact ⟨h, .refl store⟩
  · obtain ⟨item, store₁, hget, hknown, -⟩ := h.getExport hdata (getElem?_of_getFull hfull)
    obtain ⟨-, rfl⟩ := Prod.mk.inj (Except.ok.inj (hget.symm.trans hrun))
    exact ⟨hknown.inv, hknown.ext⟩

theorem Inv.getExportAs_next (h : store.Inv linkedWith) {into : Extern → Option ℕ} {i : ℕ}
    {name : String} {found : Option ℕ} (hrun : store.getExportAs into i name = .ok (found, store')) :
    store'.Inv linkedWith ∧ store.Extends store' := by
  obtain ⟨⟨item, store₁⟩, hget, hrest⟩ := bind_eq_ok.1 hrun
  obtain ⟨-, rfl⟩ := Prod.mk.inj (Except.ok.inj hrest)
  exact h.getExport_next hget

theorem Inv.exports_next (h : store.Inv linkedWith) {i : ℕ} {items : List (String × Extern)}
    (hrun : store.exports i = .ok (items, store')) :
    ∃ data, store.instances[i]? = some data ∧ store'.Inv linkedWith ∧ store.Extends store'
      ∧ store'.Listed i data items := by
  obtain ⟨data, hdata, -⟩ := bind_eq_ok.1 hrun
  replace hdata := unwrap_eq_ok.1 hdata
  obtain ⟨items', store₁, hexports, hinv, hext, hlisted⟩ := h.exports hdata
  obtain ⟨rfl, rfl⟩ := Prod.mk.inj (Except.ok.inj (hexports.symm.trans hrun))
  exact ⟨data, hdata, hinv, hext, hlisted⟩

end Store

/-! ## Calls on a linker -/

/-- A definition after a call is one from before, or one that the call brings. -/
theorem LinkerOp.Step.only {defs defs' : Definitions} {op : LinkerOp} {out : LinkerOutput}
    (h : op.Step defs out defs') {k : String × String} {v : Extern} (hk : defs' k = some v) :
    defs k = some v ∨ ∃ module news, op.News defs module news ∧ news k.2 = some v := by
  cases h with
  | defined hnews hfresh =>
    unfold Definitions.add at hk
    rcases Option.or_eq_some_iff.1 hk with hold | ⟨-, hnew⟩
    · exact .inl hold
    · split_ifs at hnew
      exact .inr ⟨_, _, hnews, hnew⟩
  | refused hnews hgrows hclash =>
    exact (hgrows.only k v hk).imp_right fun hnew => ⟨_, _, hnews, hnew.2⟩
  | get => exact .inl hk

namespace Store

variable {store store' : Store} {linkedWith : List Linker} {linker linker' : Linker}

theorem linkerInv_new (store : Store) : store.LinkerInv Linker.new := by
  refine ⟨Linker.inv_new, fun k item hk => ?_⟩
  cases hk

/-- What a listed export is defined as is kept with the instance. -/
theorem Listed.slot_of_lookup {i : ℕ} {data : Instance} {items : List (String × Extern)}
    (h : store.Listed i data items) {name : String} {item : Extern}
    (hlookup : items.lookup name = some item) : ∃ p, store.slot p = some item := by
  obtain ⟨k, hk⟩ := List.mem_iff_getElem?.1 (WriteOnce.mem_of_lookup hlookup)
  exact ⟨(i, k), h.slots k name item hk⟩

theorem LinkerInv.aliasModule (h : store.LinkerInv linker) {order : HashOrder}
    {module asModule : String} {result : Except Error Unit}
    (hrun : linker.aliasModule order module asModule = .ok (result, linker')) :
    store.LinkerInv linker' := by
  have hstep : linker.step (.aliasModule order module asModule) = .ok (.defined result, linker') :=
    bind_eq_ok.2 ⟨_, hrun, rfl⟩
  rcases Linker.step_refines h.inv (.aliasModule order module asModule) with
    hpanics | ⟨out, linker₁, hstep', hinv, hspec⟩
  · exact hpanics.elim
  · obtain ⟨-, rfl⟩ := Prod.mk.inj (Except.ok.inj (hstep.symm.trans hstep'))
    refine ⟨hinv, fun k item hk => ?_⟩
    rcases hspec.only hk with hold | ⟨_, news, hnews, hnew⟩
    · exact h.kept k item hold
    · cases hnews
      exact h.kept _ item hnew

/-- The exports of an instance are defined in a linker. -/
theorem Inv.defineInstance (h : store.Inv linkedWith) (hlinker : store.LinkerInv linker)
    {moduleName : String} {i : ℕ} {result : Except Error Unit}
    (hrun : linker.defineInstance store moduleName i = .ok ((result, linker'), store')) :
    store'.Inv linkedWith ∧ store.Extends store' ∧ store'.LinkerInv linker' := by
  obtain ⟨⟨items, store₁⟩, hexports, hrest⟩ := bind_eq_ok.1 hrun
  obtain ⟨⟨result', linker₁⟩, -, hrest⟩ := bind_eq_ok.1 hrest
  obtain ⟨-, rfl⟩ := Prod.mk.inj (Except.ok.inj hrest)
  obtain ⟨data, hdata, hinv, hext, hlisted⟩ := h.exports_next hexports
  refine ⟨hinv, hext, ?_⟩
  have hstep : linker.step (.defineInstance store moduleName i) = .ok (.defined result, linker') :=
    bind_eq_ok.2 ⟨_, hrun, rfl⟩
  rcases Linker.step_refines hlinker.inv (.defineInstance store moduleName i) with
    ⟨f, hpanics⟩ | ⟨out, linker₁, hstep', hlinv, hspec⟩
  · rw [hexports] at hpanics
    cases hpanics
  · obtain ⟨-, rfl⟩ := Prod.mk.inj (Except.ok.inj (hstep.symm.trans hstep'))
    refine ⟨hlinv, fun k item hk => ?_⟩
    rcases hspec.only hk with hold | ⟨_, news, hnews, hnew⟩
    · obtain ⟨p, hp⟩ := hlinker.kept k item hold
      exact ⟨p, hext.keeps p item hp⟩
    · cases hnews with
      | defineInstance hexports' =>
        obtain ⟨rfl, rfl⟩ := Prod.mk.inj (Except.ok.inj (hexports.symm.trans hexports'))
        exact hlisted.slot_of_lookup hnew

/-- Where the definitions are accepted, each name is defined as what is listed for it. -/
theorem LinkerInv.get_of_defineInstance (hlinker : store.LinkerInv linker) {moduleName : String}
    {i : ℕ} (hrun : linker.defineInstance store moduleName i = .ok ((.ok (), linker'), store')) :
    ∃ items, store.exports i = .ok (items, store')
      ∧ ∀ name item, items.lookup name = some item → linker'.get moduleName name = some item := by
  obtain ⟨⟨items, store₁⟩, hexports, hrest⟩ := bind_eq_ok.1 hrun
  obtain ⟨⟨result', linker₁⟩, -, hrest⟩ := bind_eq_ok.1 hrest
  obtain ⟨-, rfl⟩ := Prod.mk.inj (Except.ok.inj hrest)
  refine ⟨items, hexports, fun name item hlookup => ?_⟩
  have hstep : linker.step (.defineInstance store moduleName i)
      = .ok (.defined (.ok ()), linker') := bind_eq_ok.2 ⟨_, hrun, rfl⟩
  rcases Linker.step_refines hlinker.inv (.defineInstance store moduleName i) with
    ⟨f, hpanics⟩ | ⟨out, linker₁, hstep', -, hspec⟩
  · rw [hexports] at hpanics
    cases hpanics
  · obtain ⟨rfl, rfl⟩ := Prod.mk.inj (Except.ok.inj (hstep.symm.trans hstep'))
    show linker'.defs (moduleName, name) = some item
    generalize linker'.defs = defs' at hspec
    cases hspec with
    | defined hnews hfresh =>
      cases hnews with
      | defineInstance hexports' =>
        obtain ⟨rfl, -⟩ := Prod.mk.inj (Except.ok.inj (hexports.symm.trans hexports'))
        have hnone := hfresh name (by simp [hlookup])
        simp [Definitions.add, hnone, hlookup]

end Store

/-! ## Runs -/

/-- What a host keeps to: modules are made from valid binaries, and allocators hand out no vmctx twice. -/
def SessionOp.Allowed (store : Store) : SessionOp → Prop
  | .instantiate _ _ _ alloc _ module => (∃ ps, module.LoadedFrom ps) ∧ alloc.Fresh store
  | _ => True

namespace Session

/-- Calls that are made one after the other, and all return. -/
inductive Run : Session → List SessionOp → Session → Prop
  | nil (s : Session) : Run s [] s
  | cons {s s₁ s' : Session} {op : SessionOp} {ops : List SessionOp} (allowed : op.Allowed s.store)
      (head : s.step op = .ok s₁) (tail : Run s₁ ops s') : Run s (op :: ops) s'

structure Inv (s : Session) : Prop where
  store : s.store.Inv s.linkedWith
  linkers : ∀ linker ∈ s.linkers, s.store.LinkerInv linker

/-- What has become of a session after some calls. -/
structure Next (s s' : Session) : Prop where
  inv : s'.Inv
  ext : s.store.Extends s'.store

variable {s s' s'' : Session}

theorem inv_empty : ({} : Session).Inv := ⟨Store.inv_empty, by simp⟩

theorem Inv.next (h : s.Inv) : s.Next s := ⟨h, .refl _⟩

theorem Next.trans (h : s.Next s') (h' : s'.Next s'') : s.Next s'' := ⟨h'.inv, h.ext.trans h'.ext⟩

/-- The store is replaced by what a call has made of it. -/
theorem Inv.setStore (h : s.Inv) {store' : Store} (hinv : store'.Inv s.linkedWith)
    (hext : s.store.Extends store') : s.Next { s with store := store' } :=
  ⟨⟨hinv, fun linker hmem => (h.linkers linker hmem).mono hext⟩, hext⟩

theorem onStore_next {α : Type} {call : Store → Except Fault (α × Store)} (h : s.Inv)
    (hcall : ∀ a store', call s.store = .ok (a, store') →
      store'.Inv s.linkedWith ∧ s.store.Extends store')
    (hrun : s.onStore call = .ok s') : s.Next s' := by
  obtain ⟨⟨a, store'⟩, hstore, hrun⟩ := bind_eq_ok.1 hrun
  obtain rfl := Except.ok.inj hrun
  obtain ⟨hinv, hext⟩ := hcall a store' hstore
  exact h.setStore hinv hext

/-- A linker is replaced by what a call has made of it. -/
theorem Inv.setLinker (h : s.Inv) {store' : Store} (hinv : store'.Inv s.linkedWith)
    (hext : s.store.Extends store') {linker' : Linker} (hlinker : store'.LinkerInv linker') (i : ℕ) :
    s.Next { s with store := store', linkers := s.linkers.set i linker' } := by
  have hnext := h.setStore hinv hext
  refine ⟨⟨hinv, fun linker hmem => ?_⟩, hext⟩
  rcases List.mem_or_eq_of_mem_set hmem with hmem | rfl
  · exact hnext.inv.linkers linker hmem
  · exact hlinker

theorem step_next (h : s.Inv) {op : SessionOp} (hop : op.Allowed s.store)
    (hstep : s.step op = .ok s') : s.Next s' := by
  cases op with
  | newLinker =>
    obtain rfl := Except.ok.inj hstep
    refine ⟨⟨h.store, fun linker hmem => ?_⟩, .refl _⟩
    rcases List.mem_append.1 hmem with hmem | hmem
    · exact h.linkers linker hmem
    · obtain rfl := List.mem_singleton.1 hmem
      exact s.store.linkerInv_new
  | aliasModule i order module asModule =>
    obtain ⟨linker, hlinker, hstep⟩ := bind_eq_ok.1 hstep
    obtain ⟨⟨result, linker'⟩, halias, hstep⟩ := bind_eq_ok.1 hstep
    obtain rfl := Except.ok.inj hstep
    have hmem := List.mem_of_getElem? (unwrap_eq_ok.1 hlinker)
    exact h.setLinker h.store (.refl _) ((h.linkers linker hmem).aliasModule halias) i
  | defineInstance i moduleName instance_ =>
    obtain ⟨linker, hlinker, hstep⟩ := bind_eq_ok.1 hstep
    obtain ⟨⟨⟨result, linker'⟩, store'⟩, hdefine, hstep⟩ := bind_eq_ok.1 hstep
    obtain rfl := Except.ok.inj hstep
    have hmem := List.mem_of_getElem? (unwrap_eq_ok.1 hlinker)
    obtain ⟨hinv, hext, hlinker'⟩ := h.store.defineInstance (h.linkers linker hmem) hdefine
    exact h.setLinker hinv hext hlinker' i
  | instantiate i debug builtinFunctions alloc ev module =>
    obtain ⟨⟨ps, hloaded⟩, hfresh⟩ := hop
    obtain ⟨linker, hlinker, hstep⟩ := bind_eq_ok.1 hstep
    obtain ⟨result, hinst, hstep⟩ := bind_eq_ok.1 hstep
    have hmem := List.mem_of_getElem? (unwrap_eq_ok.1 hlinker)
    rcases result with e | ⟨⟨handle, store'⟩, ev'⟩
    · obtain rfl := Except.ok.inj hstep
      exact h.next
    · obtain rfl := Except.ok.inj hstep
      obtain ⟨hinv, hext⟩ := h.store.instantiate (h.linkers linker hmem) hloaded hfresh hinst
      exact ⟨⟨hinv, fun linker hmem => (h.linkers linker hmem).mono hext⟩, hext⟩
  | exports i =>
    rw [step] at hstep
    refine onStore_next h (fun items store' hrun => ?_) hstep
    obtain ⟨data, -, hinv, hext, -⟩ := h.store.exports_next hrun
    exact ⟨hinv, hext⟩
  | getExport i name =>
    rw [step] at hstep
    exact onStore_next h (fun _ _ hrun => h.store.getExport_next hrun) hstep
  | getFunc i name | getTable i name | getMemory i name | getGlobal i name =>
    rw [step] at hstep
    exact onStore_next h (fun _ _ hrun => h.store.getExportAs_next hrun) hstep

theorem Run.next {ops : List SessionOp} (hrun : Run s ops s') (h : s.Inv) : s.Next s' := by
  induction hrun with
  | nil s => exact h.next
  | cons allowed head _ ih =>
    have hnext := step_next h allowed head
    exact hnext.trans (ih hnext.inv)

/-! ## Origins -/

/-- The entity is imported, and the other is what the linker had for the import: the handle that is kept
for the export of the one is the definition of the other. -/
def Link (s : Session) (a b : ℕ × EntityIndex) : Prop :=
  ∃ data import_ linker item k other name, s.store.instances[a.1]? = some data
    ∧ data.module.translated.importOf a.2 = some import_
    ∧ s.linkedWith[a.1]? = some linker ∧ linker.get import_.module import_.name = some item
    ∧ s.store.slot (b.1, k) = some item ∧ s.store.instances[b.1]? = some other
    ∧ other.module.translated.exports[k]? = some (name, b.2)

/-- What an entity of an instance refers to is an entity that an instance defines, passed on from there
by one instance after the other. -/
structure RefersTo (s : Session) (a : ℕ × EntityIndex) (r : Referent) (origin : ℕ × EntityIndex) :
    Prop where
  path : ReflTransGen s.Link a origin
  owner : ∃ data, s.store.instances[origin.1]? = some data
    ∧ data.module.translated.importOf origin.2 = none ∧ data.Owns origin.2 r

theorem Inv.link_rightUnique (h : s.Inv) : Relator.RightUnique s.Link := by
  rintro a ⟨i, entity⟩ ⟨i', entity'⟩
    ⟨data, import_, linker, item, k, other, name, hdata, himport, hlinker, hitem, hslot, hother, hentry⟩
    ⟨data', import', linker', item', k', other', name', hdata', himport', hlinker', hitem', hslot',
      hother', hentry'⟩
  obtain rfl := Option.some_inj.1 (hdata.symm.trans hdata')
  obtain rfl := Option.some_inj.1 (himport.symm.trans himport')
  obtain rfl := Option.some_inj.1 (hlinker.symm.trans hlinker')
  obtain rfl := Option.some_inj.1 (hitem.symm.trans hitem')
  obtain ⟨rfl, rfl⟩ := Prod.mk.inj (h.store.slots.inj _ _ _ hslot hslot')
  obtain rfl := Option.some_inj.1 (hother.symm.trans hother')
  obtain ⟨-, rfl⟩ := Prod.mk.inj (Option.some_inj.1 (hentry.symm.trans hentry'))
  rfl

theorem RefersTo.not_link {a origin : ℕ × EntityIndex} {r : Referent} (h : s.RefersTo a r origin)
    (b : ℕ × EntityIndex) : ¬ s.Link origin b := by
  rintro ⟨data, import_, _, _, _, _, _, hdata, himport, -⟩
  obtain ⟨data', hdata', hnone, -⟩ := h.owner
  obtain rfl := Option.some_inj.1 (hdata.symm.trans hdata')
  rw [hnone] at himport
  cases himport

theorem RefersTo.unique (hs : s.Inv) {a b b' : ℕ × EntityIndex} {r r' : Referent}
    (h : s.RefersTo a r b) (h' : s.RefersTo a r' b') : b = b' := by
  rcases ReflTransGen.total_of_right_unique hs.link_rightUnique h.path h'.path with hpath | hpath
  · rcases hpath.cases_head with heq | ⟨c, hlink, -⟩
    · exact heq
    · exact absurd hlink (h.not_link c)
  · rcases hpath.cases_head with heq | ⟨c, hlink, -⟩
    · exact heq.symm
    · exact absurd hlink (h'.not_link c)

/-- What a slot holds, and the entity that it is for. -/
theorem Inv.slot_export (h : s.Inv) {i k : ℕ} {item : Extern}
    (hslot : s.store.slot (i, k) = some item) :
    ∃ data name entity export_, s.store.instances[i]? = some data
      ∧ data.module.translated.exports[k]? = some (name, entity)
      ∧ data.module.translated.HasEntity entity ∧ data.getExportByIndex entity = .ok export_
      ∧ s.store.exported item = some export_ := by
  obtain ⟨data, hdata, hk⟩ := Store.slot_eq_some.1 hslot
  obtain ⟨name, entity, e, hentry, he, hitem⟩ := h.store.resolves i k data item hdata hk
  obtain ⟨linker, -, hinst⟩ := h.store.instance_ hdata
  obtain ⟨ps, hloaded⟩ := hinst.loaded
  exact ⟨data, name, entity, e, hdata, hentry,
    hloaded.exports_eq.2 _ (List.mem_of_getElem? hentry), he, hitem⟩

/-- The path to the origin of an entity: each import leads to an instance that was made before. -/
theorem Inv.exists_refersTo (h : s.Inv) (i : ℕ) {data : Instance} {entity : EntityIndex}
    {export_ : Export} (hdata : s.store.instances[i]? = some data)
    (hhas : data.module.translated.HasEntity entity)
    (hexport : data.getExportByIndex entity = .ok export_) :
    ∃ origin, s.RefersTo (i, entity) export_.referent origin := by
  induction i using Nat.strong_induction_on generalizing data entity export_ with
  | _ i ih =>
    obtain ⟨linker, hlinker, hinst⟩ := h.store.instance_ hdata
    rcases himport : data.module.translated.importOf entity with _ | import_
    · obtain ⟨e, he, howns⟩ := hinst.defined entity hhas himport
      obtain rfl := Except.ok.inj (he.symm.trans hexport)
      exact ⟨(i, entity), .refl, data, hdata, himport, howns⟩
    · obtain ⟨e, item, ⟨j, k⟩, he, hitem, hr, hslot, hlt⟩ := hinst.imported entity import_ hhas himport
      obtain rfl := Except.ok.inj (he.symm.trans hexport)
      obtain ⟨other, name, entity', e', hother, hentry, hhas', he', hitem'⟩ := h.slot_export hslot
      obtain ⟨origin, hpath, howner⟩ := ih j hlt hother hhas' he'
      have href : e'.referent = e.referent := by
        rw [Store.referent, hitem'] at hr
        exact Option.some_inj.1 hr
      refine ⟨origin, .head ?_ hpath, href ▸ howner⟩
      exact ⟨data, import_, linker, item, k, other, name, hdata, himport, hlinker, hitem, hslot, hother,
        hentry⟩

theorem Inv.getInstanceFromVmctx (h : s.Inv) {a origin : ℕ × EntityIndex} {r : Referent}
    (hr : s.RefersTo a r origin) : s.store.getInstanceFromVmctx r.vmctx = .ok origin.1 := by
  obtain ⟨data, hdata, -, howns⟩ := hr.owner
  rw [howns.vmctx_eq]
  exact h.store.getInstanceFromVmctx hdata

/-! ## Look-ups -/

/-- What a look-up of an export returns, and the session after it. -/
structure LooksUp (s : Session) (i : ℕ) (name : String) (entity : EntityIndex) (item : Extern)
    (s' : Session) : Prop where
  getExport : s.store.getExport i name = .ok (some item, s'.store)
  getExportAs : ∀ into, s.store.getExportAs into i name = .ok (into item, s'.store)
  /-- Whatever is called from here on, the export is found by the same handle. -/
  stable : ∀ ops s'', Run s' ops s'' → s''.store.getExport i name = .ok (some item, s''.store)
  resolves : ∃ r origin, s'.store.referent item = some r ∧ s'.RefersTo (i, entity) r origin
    ∧ s'.store.getInstanceFromVmctx r.vmctx = .ok origin.1

/-- An export that is known is found by its handle. -/
theorem Inv.getExport_of_slot (h : s.Inv) {i k : ℕ} {data : Instance} {name : String}
    {entity : EntityIndex} {item : Extern} (hdata : s.store.instances[i]? = some data)
    (hentry : data.module.translated.exports[k]? = some (name, entity))
    (hslot : s.store.slot (i, k) = some item) :
    s.store.getExport i name = .ok (some item, s.store) := by
  obtain ⟨item', store', hrun, -, hkept⟩ := h.store.getExport hdata hentry
  obtain ⟨rfl, rfl⟩ := hkept item hslot
  exact hrun

theorem Inv.getExport_stable (h : s.Inv) {i k : ℕ} {data : Instance} {name : String}
    {entity : EntityIndex} {item : Extern} (hdata : s.store.instances[i]? = some data)
    (hentry : data.module.translated.exports[k]? = some (name, entity))
    (hslot : s.store.slot (i, k) = some item) {ops : List SessionOp} (hrun : Run s ops s') :
    s'.store.getExport i name = .ok (some item, s'.store) := by
  have hnext := hrun.next h
  obtain ⟨data', hdata', hfills⟩ := hnext.ext.instances i data hdata
  exact hnext.inv.getExport_of_slot hdata' (hfills.module ▸ hentry) (hnext.ext.keeps _ item hslot)

theorem Inv.looksUp (h : s.Inv) {i : ℕ} {data : Instance} {name : String} {entity : EntityIndex}
    (hdata : s.store.instances[i]? = some data)
    (hmem : (name, entity) ∈ data.module.translated.exports) :
    ∃ item store', s.LooksUp i name entity item { s with store := store' } := by
  obtain ⟨k, hentry⟩ := List.mem_iff_getElem?.1 hmem
  obtain ⟨item, store', hrun, hknown, -⟩ := h.store.getExport hdata hentry
  have hinv : Inv { s with store := store' } := (h.setStore hknown.inv hknown.ext).inv
  obtain ⟨data', hdata', hfills⟩ := hknown.ext.instances i data hdata
  refine ⟨item, store', hrun, fun into => bind_eq_ok.2 ⟨_, hrun, rfl⟩, fun ops s'' hrun' => ?_, ?_⟩
  · exact hinv.getExport_stable hdata' (hfills.module ▸ hentry) hknown.slot hrun'
  · obtain ⟨other, name', entity', e, hother, hentry', hhas, he, hitem⟩ := hinv.slot_export hknown.slot
    obtain rfl := Option.some_inj.1 (hdata'.symm.trans hother)
    rw [hfills.module] at hentry'
    obtain ⟨-, rfl⟩ := Prod.mk.inj (Option.some_inj.1 (hentry.symm.trans hentry'))
    obtain ⟨origin, hrefers⟩ := hinv.exists_refersTo i hdata' hhas he
    refine ⟨e.referent, origin, ?_, hrefers, hinv.getInstanceFromVmctx hrefers⟩
    exact Option.map_eq_some_iff.2 ⟨e, hitem, rfl⟩

/-- The exports are listed in the order in which the binary declares them, each as what it is found by. -/
structure Lists (s : Session) (i : ℕ) (data : Instance) (items : List (String × Extern))
    (store' : Store) : Prop where
  exports : s.store.exports i = .ok (items, store')
  names : items.map Prod.fst = data.module.translated.exports.map Prod.fst
  declared : ∀ ps, data.module.LoadedFrom ps →
    items.map Prod.fst = (declaredExports ps).map Wasmparser.Export.name
  nodup : (items.map Prod.fst).Nodup
  found : ∀ e ∈ items, store'.getExport i e.1 = .ok (some e.2, store')

theorem Inv.lists (h : s.Inv) {i : ℕ} {data : Instance}
    (hdata : s.store.instances[i]? = some data) : ∃ items store', s.Lists i data items store' := by
  obtain ⟨items, store', hexports, hinv, hext, hlisted⟩ := h.store.exports hdata
  obtain ⟨data', hdata', hfills⟩ := hext.instances i data hdata
  refine ⟨items, store', hexports, hlisted.names, fun ps hloaded => ?_, ?_, fun e he => ?_⟩
  · rw [hlisted.names, hloaded.exports_eq.1, List.map_map]
    rfl
  · rw [hlisted.names]
    exact h.store.exports_nodup hdata
  · obtain ⟨k, hk⟩ := List.mem_iff_getElem?.1 he
    have hname : (data.module.translated.exports.map Prod.fst)[k]? = some e.1 := by
      rw [← hlisted.names, List.getElem?_map, hk]
      rfl
    rw [List.getElem?_map] at hname
    obtain ⟨⟨name, entity⟩, hentry, rfl⟩ := Option.map_eq_some_iff.1 hname
    exact (h.setStore hinv hext).inv.getExport_of_slot hdata' (hfills.module ▸ hentry)
      (hlisted.slots k e.1 e.2 hk)

theorem Lists.lookup {i : ℕ} {data : Instance} {items : List (String × Extern)} {store' : Store}
    (h : s.Lists i data items store') {name : String} {entity : EntityIndex}
    (hmem : (name, entity) ∈ data.module.translated.exports) :
    ∃ item, items.lookup name = some item ∧ store'.getExport i name = .ok (some item, store') := by
  have hname : name ∈ items.map Prod.fst := h.names ▸ List.mem_map_of_mem (f := Prod.fst) hmem
  obtain ⟨e, he, rfl⟩ := List.mem_map.1 hname
  exact ⟨e.2, (WriteOnce.lookup_eq_some_iff_mem h.nodup).2 he, h.found e he⟩

/-- The handles of exports are stable and refer to the right entities. -/
structure ExportsCorrect (s : Session) : Prop where
  found : ∀ (i : ℕ) data name entity, s.store.instances[i]? = some data →
    (name, entity) ∈ data.module.translated.exports →
    ∃ item store', s.LooksUp i name entity item { s with store := store' }
  missing : ∀ (i : ℕ) data name, s.store.instances[i]? = some data →
    (∀ entity, (name, entity) ∉ data.module.translated.exports) →
    s.store.getExport i name = .ok (none, s.store)
  listed : ∀ (i : ℕ) data, s.store.instances[i]? = some data →
    ∃ items store', s.Lists i data items store'
  /-- Defining an instance defines its exports as what they are found by. -/
  defines : ∀ linker ∈ s.linkers, ∀ (i : ℕ) data moduleName linker' store',
    s.store.instances[i]? = some data →
    linker.defineInstance s.store moduleName i = .ok ((.ok (), linker'), store') →
    ∀ name entity, (name, entity) ∈ data.module.translated.exports →
    ∃ item, linker'.get moduleName name = some item
      ∧ store'.getExport i name = .ok (some item, store')
  /-- An object of the store was made for one slot, and the slot is filled in for good. -/
  oneSlot : ∀ item, s.store.Made item → ∃! p, s.store.slot p = some item
  kept : ∀ p item, s.store.slot p = some item → s.store.Made item
    ∧ ∀ ops s', Run s ops s' → s'.store.slot p = some item
      ∧ s'.store.exported item = s.store.exported item
  oneOrigin : ∀ a r r' origin origin', s.RefersTo a r origin → s.RefersTo a r' origin' →
    origin = origin'

theorem Inv.exportsCorrect (h : s.Inv) : s.ExportsCorrect where
  found _ _ _ _ hdata hmem := h.looksUp hdata hmem
  missing _ _ _ hdata hnot := Store.getExport_eq_none hdata hnot
  listed _ _ hdata := h.lists hdata
  defines linker hlinker i data moduleName linker' store' hdata hrun name entity hmem := by
    obtain ⟨items, store₁, hlists⟩ := h.lists hdata
    obtain ⟨items', hexports, hget⟩ := (h.linkers linker hlinker).get_of_defineInstance hrun
    obtain ⟨rfl, rfl⟩ := Prod.mk.inj (Except.ok.inj (hlists.exports.symm.trans hexports))
    obtain ⟨item, hlookup, hfound⟩ := hlists.lookup hmem
    exact ⟨item, hget name item hlookup, hfound⟩
  oneSlot _ hmade := h.store.slots.existsUnique hmade
  kept p item hslot := by
    have hmade := (h.store.slots.made_iff item).2 ⟨p, hslot⟩
    refine ⟨hmade, fun ops s' hrun => ?_⟩
    have hext := (hrun.next h).ext
    obtain ⟨e, he⟩ := hmade
    exact ⟨hext.keeps p item hslot, (hext.exported item e he).trans he.symm⟩
  oneOrigin _ _ _ _ _ hr hr' := hr.unique h hr'

end Session

/-- In every session, an export of an instance is found by one handle, whichever call asks for it first,
and the handle refers to the entity that the module exports: its own one, or the one that an import leads
to.  A store has one object for each export that is known, all exports are listed in order, and the vmctx
of what is exported is looked up as the instance that defines it. -/
theorem exports_stable_and_correct {ops : List SessionOp} {s : Session} (h : Session.Run {} ops s) :
    s.ExportsCorrect :=
  (h.next Session.inv_empty).inv.exportsCorrect

section Example

open ModuleTranslator (permissiveValidator)
open Wasmparser (Payload ValidModule ValidExports)

/-- A binary with a function and a global, both of which it exports. -/
def definingBinary : List Payload :=
  [.version, .typeSection 1, .functionSection [.ok 0],
    .globalSection [.ok ⟨⟨.i32, false, false⟩, [.ok (.i32Const 7, 0), .ok (.end_, 2)]⟩],
    .exportSection [.ok ⟨"f", .func, 0⟩, .ok ⟨"g", .global, 0⟩], .codeSectionStart 1,
    .codeSectionEntry ⟨[0x00, 0x0b], []⟩, .end_]

theorem definingBinary_valid : ValidModule definingBinary where
  ordered := by
    show [1, 3, 7, 8, 12].Pairwise (· < ·)
    decide
  functions_le := by
    show 1 ≤ 1000000
    decide
  imports_le := Nat.zero_le _
  tables_le := Nat.zero_le _
  memories_le := Nat.zero_le _
  globals_le := by
    show 1 ≤ 1000000
    decide
  bodies := rfl
  offsets p hp := by
    simp only [definingBinary, List.mem_cons, List.not_mem_nil, or_false] at hp
    obtain rfl | rfl | rfl | rfl | rfl | rfl | rfl | rfl := hp <;> rfl
  declaredFuncs := by
    intro body hb f hf
    obtain rfl := List.mem_singleton.1 hb
    cases hf

theorem definingBinary_exports : ValidExports definingBinary where
  nodup := by
    show ["f", "g"].Nodup
    decide
  tables := by decide
  memories := by decide
  globals := by decide
  tags e he htag := by
    have hnone : ∀ e ∈ declaredExports definingBinary, e.kind ≠ .tag := by decide
    exact absurd htag (hnone e he)

theorem importingBinary_exports : ValidExports importingBinary where
  nodup := List.nodup_singleton _
  tables := by decide
  memories := by decide
  globals := by decide
  tags e he htag := by
    have hnone : ∀ e ∈ declaredExports importingBinary, e.kind ≠ .tag := by decide
    exact absurd htag (hnone e he)

/-- The module, with code for a function and its trampoline. -/
def codeModule (m : TranslatedModule) (off : VMOffsets) : Module :=
  { moduleOf m off with
    code := ⟨0x8000, 3, [], []⟩
    functionInfo := [⟨⟨0, 1⟩, some ⟨1, 2⟩, 0⟩] }

/-- An allocator that has one vmctx to give out. -/
def allocatorAt (address : ℕ) : InstanceAllocator :=
  { vmctxAllocator with allocateVmctx := fun _ _ => pure address }

theorem allocatorAt_fresh {address : ℕ} {store : Store} (h : address ∉ store.addresses) :
    (allocatorAt address).Fresh store := by
  intro m off address' halloc
  obtain rfl := Except.ok.inj (Except.ok.inj halloc)
  exact h

/-- An instance whose exports are defined as `env`, and another one that imports them. -/
def reexportOps (module module' : Module) : List SessionOp :=
  [.newLinker, .instantiate 0 true 0x7000 (allocatorAt 0x3000) ⟨[]⟩ module,
    .defineInstance 0 "env" 0, .instantiate 0 true 0x7000 (allocatorAt 0x6000) ⟨[]⟩ module',
    .getFunc 1 "f"]

/-- A function that an instance imports and exports again is the one that the other defines. -/
theorem exports_stable_and_correct_reexport :
    ∃ ops s r, Session.Run {} ops s ∧ s.ExportsCorrect
      ∧ s.store.exports 0 = .ok ([("f", .func 0), ("g", .global 0)], s.store)
      ∧ s.store.getExport 1 "f" = .ok (some (.func 1), s.store)
      ∧ s.store.referent (.func 0) = some r ∧ s.store.referent (.func 1) = some r
      ∧ r.vmctx = 0x3000 := by
  obtain ⟨t, types, off, t', types', off', s₁, s₂, s₃, s₄, s₅, r, htranslate, hoff, htranslate', hoff',
      h₁, h₂, h₃, h₄, h₅, hfresh, hfresh', hexports, hget, hr, hr', hvmctx⟩ :
      ∃ t types off t' types' off' s₁ s₂ s₃ s₄ s₅ r,
        ModuleTranslator.translate permissiveValidator true () (definingBinary.map .ok)
          = .ok (.ok (t, types), ())
        ∧ VMOffsets.forModule 8 t.module = .ok off
        ∧ ModuleTranslator.translate permissiveValidator true () (importingBinary.map .ok)
          = .ok (.ok (t', types'), ())
        ∧ VMOffsets.forModule 8 t'.module = .ok off'
        ∧ Session.step {} .newLinker = .ok s₁
        ∧ s₁.step (.instantiate 0 true 0x7000 (allocatorAt 0x3000) ⟨[]⟩ (codeModule t.module off))
          = .ok s₂
        ∧ s₂.step (.defineInstance 0 "env" 0) = .ok s₃
        ∧ s₃.step (.instantiate 0 true 0x7000 (allocatorAt 0x6000) ⟨[]⟩ (codeModule t'.module off'))
          = .ok s₄
        ∧ s₄.step (.getFunc 1 "f") = .ok s₅
        ∧ s₁.store.addresses = [] ∧ s₃.store.addresses = [0x3000]
        ∧ s₅.store.exports 0 = .ok ([("f", .func 0), ("g", .global 0)], s₅.store)
        ∧ s₅.store.getExport 1 "f" = .ok (some (.func 1), s₅.store)
        ∧ s₅.store.referent (.func 0) = some r ∧ s₅.store.referent (.func 1) = some r
        ∧ r.vmctx = 0x3000 :=
    ⟨_, _, _, _, _, _, _, _, _, _, _, _, rfl, rfl, rfl, rfl, rfl, rfl, rfl, rfl, rfl, rfl, rfl, rfl, rfl,
      rfl, rfl, rfl⟩
  have hloaded : (codeModule t.module off).LoadedFrom definingBinary :=
    ⟨definingBinary_valid, definingBinary_exports, ⟨Unit, permissiveValidator, true, (), (), t, types,
      htranslate, rfl⟩, hoff⟩
  have hloaded' : (codeModule t'.module off').LoadedFrom importingBinary :=
    ⟨importingBinary_valid, importingBinary_exports, ⟨Unit, permissiveValidator, true, (), (), t', types',
      htranslate', rfl⟩, hoff'⟩
  have hrun : Session.Run {} (reexportOps (codeModule t.module off) (codeModule t'.module off')) s₅ :=
    .cons trivial h₁ (.cons ⟨⟨_, hloaded⟩, allocatorAt_fresh (by rw [hfresh]; decide)⟩ h₂
      (.cons trivial h₃ (.cons ⟨⟨_, hloaded'⟩, allocatorAt_fresh (by rw [hfresh']; decide)⟩ h₄
        (.cons trivial h₅ (.nil s₅)))))
  exact ⟨_, s₅, r, hrun, exports_stable_and_correct hrun, hexports, hget, hr, hr', hvmctx⟩

end Example

end K23VM
