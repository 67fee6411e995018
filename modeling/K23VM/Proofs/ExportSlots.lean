import K23VM.Lib.Slots
import K23VM.Proofs.Exports
import K23VM.Proofs.Handles

/-!
# The slots that exports are kept in

An instance has a slot for each of its exports, at the position of its name.  Whichever call asks for an
export first fills in the slot, with a new handle, and all others return what it holds.
-/

namespace K23VM

open Slots (Keeps OneEach)

namespace Store

variable {store store' store'' : Store} {item : Extern} {export_ : Export} {i k : ℕ} {data : Instance}

/-- What is kept of an export of an instance, by the instance and the position of the export. -/
def slot (store : Store) (p : ℕ × ℕ) : Option Extern :=
  store.instances[p.1]?.bind fun data => data.exports[p.2]?.join

theorem slot_eq_some : store.slot (i, k) = some item
    ↔ ∃ data, store.instances[i]? = some data ∧ data.exports[k]? = some (some item) := by
  simp [slot, Option.bind_eq_some_iff, Option.join_eq_some_iff]

/-- A handle to something in the store. -/
def Made (store : Store) (item : Extern) : Prop := ∃ export_, store.exported item = some export_

/-! ## New handles -/

theorem fromExport_instances (export_ : Export) (store : Store) :
    (Extern.fromExport export_ store).2.instances = store.instances := by
  cases export_ <;> rfl

theorem fromExport_vmctx2instance (export_ : Export) (store : Store) :
    (Extern.fromExport export_ store).2.vmctx2instance = store.vmctx2instance := by
  cases export_ <;> rfl

theorem not_made_fromExport (export_ : Export) (store : Store) :
    ¬ store.Made (Extern.fromExport export_ store).1 := by
  rintro ⟨e, he⟩
  cases export_ <;>
    simp [exported, Extern.fromExport, pushFunction, pushTable, pushMemory, pushGlobal, getFunction,
      getTable, getMemory, getGlobal, getIn] at he

theorem exported_fromExport_self (export_ : Export) (store : Store) :
    (Extern.fromExport export_ store).2.exported (Extern.fromExport export_ store).1
      = some export_ := by
  cases export_ <;>
    simp [exported, Extern.fromExport, pushFunction, pushTable, pushMemory, pushGlobal, getFunction,
      getTable, getMemory, getGlobal, getIn]

theorem getElem?_push_of_ne {α : Type} {l : List α} {x : α} (h : i ≠ l.length) :
    (l ++ [x])[i]? = l[i]? := by
  rcases lt_or_gt_of_ne h with hlt | hgt
  · exact List.getElem?_append_left hlt
  · rw [List.getElem?_eq_none (by simp; omega), List.getElem?_eq_none hgt.le]

/-- The other handles are looked up as before. -/
theorem exported_fromExport_of_ne (h : item ≠ (Extern.fromExport export_ store).1) :
    (Extern.fromExport export_ store).2.exported item = store.exported item := by
  cases export_ <;> cases item <;> first
    | rfl
    | exact congrArg (Option.map _) (getElem?_push_of_ne fun heq => h (congrArg _ heq))

theorem made_fromExport : (Extern.fromExport export_ store).2.Made item
    ↔ store.Made item ∨ item = (Extern.fromExport export_ store).1 := by
  unfold Made
  by_cases h : item = (Extern.fromExport export_ store).1
  · subst h
    simp [exported_fromExport_self]
  · rw [exported_fromExport_of_ne h]
    simp [h]

/-! ## Growth -/

/-- What has become of a store: more exports are known, and what there was is still there. -/
structure Extends (store store' : Store) : Prop where
  instances : ∀ (i : ℕ) data, store.instances[i]? = some data →
    ∃ data', store'.instances[i]? = some data' ∧ data.Fills data'
  exported : ∀ item export_, store.exported item = some export_ → store'.exported item = some export_

theorem Extends.refl (store : Store) : store.Extends store :=
  ⟨fun _ data h => ⟨data, h, .refl data⟩, fun _ _ h => h⟩

theorem Extends.trans (h : store.Extends store') (h' : store'.Extends store'') :
    store.Extends store'' := by
  refine ⟨fun i data hdata => ?_, fun item e he => h'.exported item e (h.exported item e he)⟩
  obtain ⟨data', hdata', hfills⟩ := h.instances i data hdata
  obtain ⟨data'', hdata'', hfills'⟩ := h'.instances i data' hdata'
  exact ⟨data'', hdata'', hfills.trans hfills'⟩

theorem Extends.keeps (h : store.Extends store') : Keeps store.slot store'.slot := by
  rintro ⟨i, k⟩ item hp
  obtain ⟨data, hdata, hk⟩ := slot_eq_some.1 hp
  obtain ⟨data', hdata', hfills⟩ := h.instances i data hdata
  exact slot_eq_some.2 ⟨data', hdata', hfills.keeps k item hk⟩

theorem Extends.referent (h : store.Extends store') {r : Referent} (hr : store.referent item = some r) :
    store'.referent item = some r := by
  obtain ⟨e, he, rfl⟩ := Option.map_eq_some_iff.1 hr
  exact Option.map_eq_some_iff.2 ⟨e, h.exported item e he, rfl⟩

end Store

theorem Instance.Fills.module {data data' : Instance} (h : data.Fills data') :
    data'.module = data.module := by
  rw [h.same]

theorem Instance.Fills.vmctx {data data' : Instance} (h : data.Fills data') :
    data'.vmctx = data.vmctx := by
  rw [h.same]

/-- What is exported does not depend on the exports that are known. -/
theorem Instance.Fills.getExportByIndex {data data' : Instance} (h : data.Fills data')
    (entity : EntityIndex) : data'.getExportByIndex entity = data.getExportByIndex entity := by
  rw [h.same]
  cases entity <;> rfl

theorem Instance.Fills.owns {data data' : Instance} (h : data.Fills data') {entity : EntityIndex}
    {r : Referent} (ho : data.Owns entity r) : data'.Owns entity r := by
  rw [h.same]
  cases entity <;> cases r <;> exact ho

namespace Store

variable {store store' : Store} {linkedWith : List Linker} {item : Extern} {export_ : Export}
  {i k : ℕ} {data : Instance} {linker : Linker}

/-! ## The invariant -/

/-- What is known of an instance that was made with a linker. -/
structure InstanceInv (store : Store) (i : ℕ) (data : Instance) (linker : Linker) : Prop where
  loaded : ∃ ps, data.module.LoadedFrom ps
  defined : ∀ entity, data.module.translated.HasEntity entity →
    data.module.translated.importOf entity = none →
    ∃ export_, data.getExportByIndex entity = .ok export_ ∧ data.Owns entity export_.referent
  /-- An imported entity is what an export of an instance that was made before is. -/
  imported : ∀ entity import_, data.module.translated.HasEntity entity →
    data.module.translated.importOf entity = some import_ →
    ∃ export_ item p, data.getExportByIndex entity = .ok export_
      ∧ linker.get import_.module import_.name = some item
      ∧ store.referent item = some export_.referent ∧ store.slot p = some item ∧ p.1 < i

theorem InstanceInv.mono (h : store.InstanceInv i data linker) (hext : store.Extends store')
    {data' : Instance} (hfills : data.Fills data') : store'.InstanceInv i data' linker := by
  refine ⟨?_, fun entity hhas hnone => ?_, fun entity import_ hhas himport => ?_⟩
  · rw [hfills.module]
    exact h.loaded
  · rw [hfills.module] at hhas hnone
    obtain ⟨e, he, howns⟩ := h.defined entity hhas hnone
    exact ⟨e, (hfills.getExportByIndex entity).trans he, hfills.owns howns⟩
  · rw [hfills.module] at hhas himport
    obtain ⟨e, item, p, he, hitem, hr, hp, hlt⟩ := h.imported entity import_ hhas himport
    exact ⟨e, item, p, (hfills.getExportByIndex entity).trans he, hitem, hext.referent hr,
      hext.keeps p item hp, hlt⟩

theorem InstanceInv.getExportByIndex_ok (h : store.InstanceInv i data linker) {entity : EntityIndex}
    (hhas : data.module.translated.HasEntity entity) :
    ∃ export_, data.getExportByIndex entity = .ok export_ := by
  rcases himport : data.module.translated.importOf entity with _ | import_
  · obtain ⟨e, he, -⟩ := h.defined entity hhas himport
    exact ⟨e, he⟩
  · obtain ⟨e, _, _, he, -⟩ := h.imported entity import_ hhas himport
    exact ⟨e, he⟩

/-- The addresses of the instances' vmctxs. -/
def addresses (store : Store) : List ℕ := store.instances.map fun data => data.vmctx.address

structure Inv (linkedWith : List Linker) (store : Store) : Prop where
  linked : linkedWith.length = store.instances.length
  instances : ∀ (i : ℕ) data linker, store.instances[i]? = some data → linkedWith[i]? = some linker →
    store.InstanceInv i data linker
  length : ∀ (i : ℕ) data, store.instances[i]? = some data →
    data.exports.length = data.module.translated.exports.length
  slots : OneEach store.slot store.Made
  /-- What a slot holds is a handle to the export at its position. -/
  resolves : ∀ (i k : ℕ) data item, store.instances[i]? = some data →
    data.exports[k]? = some (some item) → ∃ name entity export_,
      data.module.translated.exports[k]? = some (name, entity)
        ∧ data.getExportByIndex entity = .ok export_ ∧ store.exported item = some export_
  vmctxs : store.vmctx2instance = store.addresses.zipIdx.reverse
  distinct : store.addresses.Nodup

theorem inv_empty : ({} : Store).Inv [] where
  linked := rfl
  instances := by simp
  length := by simp
  slots := ⟨fun item => by
    cases item <;> simp [Made, exported, slot, getFunction, getTable, getMemory, getGlobal, getIn],
    by simp [slot]⟩
  resolves := by simp
  vmctxs := rfl
  distinct := List.nodup_nil

theorem Inv.instance_ (h : store.Inv linkedWith) (hdata : store.instances[i]? = some data) :
    ∃ linker, linkedWith[i]? = some linker ∧ store.InstanceInv i data linker := by
  have hlt : i < linkedWith.length := h.linked ▸ (List.getElem?_eq_some_iff.1 hdata).1
  exact ⟨_, List.getElem?_eq_getElem hlt,
    h.instances i data _ hdata (List.getElem?_eq_getElem hlt)⟩

/-- A vmctx is looked up as the instance that has it. -/
theorem Inv.getInstanceFromVmctx (h : store.Inv linkedWith)
    (hdata : store.instances[i]? = some data) :
    store.getInstanceFromVmctx data.vmctx.address = .ok i := by
  have haddress : store.addresses[i]? = some data.vmctx.address := by
    rw [addresses, List.getElem?_map, hdata]
    rfl
  have hnodup : (store.addresses.zipIdx.reverse.map Prod.fst).Nodup := by
    rw [List.map_reverse, List.zipIdx_map_fst]
    exact List.nodup_reverse.2 h.distinct
  unfold Store.getInstanceFromVmctx
  rw [h.vmctxs, unwrap_eq_ok, WriteOnce.lookup_eq_some_iff_mem hnodup, List.mem_reverse]
  exact List.mem_zipIdx_iff_getElem?.2 haddress

/-! ## Filling in a slot -/

theorem fills_keep (hdata : store.instances[i]? = some data) (hnone : data.exports[k]? = some none) :
    Slots.Fills store.slot (i, k) item (store.keep i data k item).slot := by
  have hi := (List.getElem?_eq_some_iff.1 hdata).1
  have hk := (List.getElem?_eq_some_iff.1 hnone).1
  refine ⟨by simp [slot, hdata, hnone], ?_, ?_⟩
  · simp [slot, keep, List.getElem?_set_self hi, List.getElem?_set_self hk]
  · rintro ⟨i', k'⟩ hne
    by_cases hi' : i = i'
    · subst hi'
      have hk' : k ≠ k' := fun hk' => hne (by rw [hk'])
      simp [slot, keep, List.getElem?_set_self hi, List.getElem?_set_ne hk', hdata]
    · simp [slot, keep, List.getElem?_set_ne hi']

theorem exported_keep : (store.keep i data k item).exported = store.exported := by
  funext item'
  cases item' <;> rfl

theorem addresses_keep (hdata : store.instances[i]? = some data) :
    (store.keep i data k item).addresses = store.addresses := by
  unfold addresses keep
  obtain ⟨hi, rfl⟩ := List.getElem?_eq_some_iff.1 hdata
  have hmap : i < (store.instances.map fun data => data.vmctx.address).length := by simpa using hi
  rw [List.map_set]
  exact (congrArg _ (List.getElem_map _).symm).trans (List.set_getElem_self hmap)

/-- The store once an export is known: it is new, and kept with its instance. -/
def exportTo (store : Store) (i : ℕ) (data : Instance) (k : ℕ) (export_ : Export) : Store :=
  (Extern.fromExport export_ store).2.keep i data k (Extern.fromExport export_ store).1

theorem fills_exportTo (hdata : store.instances[i]? = some data)
    (hnone : data.exports[k]? = some none) :
    Slots.Fills store.slot (i, k) (Extern.fromExport export_ store).1
      (store.exportTo i data k export_).slot := by
  have hinstances := fromExport_instances export_ store
  have hslot : store.slot = (Extern.fromExport export_ store).2.slot := by
    unfold slot
    rw [hinstances]
  rw [hslot]
  exact fills_keep (hinstances ▸ hdata) hnone

theorem getElem?_exportTo (hdata : store.instances[i]? = some data) (j : ℕ) :
    (store.exportTo i data k export_).instances[j]? = if j = i
      then some { data with
        exports := data.exports.set k (some (Extern.fromExport export_ store).1) }
      else store.instances[j]? := by
  unfold exportTo keep
  rw [fromExport_instances]
  by_cases hj : j = i
  · subst hj
    rw [List.getElem?_set_self (List.getElem?_eq_some_iff.1 hdata).1, if_pos rfl]
  · rw [List.getElem?_set_ne (Ne.symm hj), if_neg hj]

theorem extends_exportTo (hdata : store.instances[i]? = some data)
    (hnone : data.exports[k]? = some none) : store.Extends (store.exportTo i data k export_) := by
  refine ⟨fun j data' hdata' => ?_, fun item e he => ?_⟩
  · rw [getElem?_exportTo hdata]
    by_cases hj : j = i
    · subst hj
      obtain rfl := Option.some_inj.1 (hdata.symm.trans hdata')
      refine ⟨_, if_pos rfl, rfl, fun k' item' hk' => ?_⟩
      have hne : k ≠ k' := by
        rintro rfl
        rw [hnone] at hk'
        cases hk'
      rw [List.getElem?_set_ne hne, hk']
    · exact ⟨data', (if_neg hj).trans hdata', .refl data'⟩
  · rw [exportTo, exported_keep, exported_fromExport_of_ne, he]
    rintro rfl
    exact not_made_fromExport export_ store ⟨e, he⟩

theorem made_exportTo : (store.exportTo i data k export_).Made item
    ↔ store.Made item ∨ item = (Extern.fromExport export_ store).1 := by
  rw [← made_fromExport, Made, exportTo, exported_keep]
  rfl

/-- An export that is not known yet is made, and kept. -/
theorem Inv.exportTo (h : store.Inv linkedWith) (hdata : store.instances[i]? = some data)
    (hnone : data.exports[k]? = some none) {name : String} {entity : EntityIndex}
    (hentry : data.module.translated.exports[k]? = some (name, entity))
    (hexport : data.getExportByIndex entity = .ok export_) :
    (store.exportTo i data k export_).Inv linkedWith := by
  have hext : store.Extends (store.exportTo i data k export_) := extends_exportTo hdata hnone
  have hfills : Slots.Fills store.slot (i, k) (Extern.fromExport export_ store).1
      (store.exportTo i data k export_).slot := fills_exportTo hdata hnone
  -- Each instance is one from before, with more exports known.
  have hbefore : ∀ (j : ℕ) data',
      (store.exportTo i data k export_).instances[j]? = some data' → ∃ data₀,
        store.instances[j]? = some data₀ ∧ data₀.Fills data'
          ∧ data'.exports.length = data₀.exports.length := by
    intro j data' hdata'
    rw [getElem?_exportTo hdata] at hdata'
    by_cases hj : j = i
    · subst hj
      obtain ⟨data₁, hdata₁, hfills₁⟩ := hext.instances j data hdata
      rw [getElem?_exportTo hdata, if_pos rfl] at hdata₁
      rw [if_pos rfl] at hdata'
      obtain rfl := Option.some_inj.1 (hdata₁.symm.trans hdata')
      obtain rfl := Option.some_inj.1 hdata'
      exact ⟨data, hdata, hfills₁, List.length_set⟩
    · rw [if_neg hj] at hdata'
      exact ⟨data', hdata', .refl data', rfl⟩
  refine ⟨?_, fun j data' linker hdata' hlinker => ?_, fun j data' hdata' => ?_, ?_,
    fun j k' data' item hdata' hk' => ?_, ?_, ?_⟩
  · rw [h.linked, Store.exportTo, keep, List.length_set, fromExport_instances]
  · obtain ⟨data₀, hdata₀, hfills₀, -⟩ := hbefore j data' hdata'
    exact (h.instances j data₀ linker hdata₀ hlinker).mono hext hfills₀
  · obtain ⟨data₀, hdata₀, hfills₀, hlength⟩ := hbefore j data' hdata'
    rw [hlength, hfills₀.module]
    exact h.length j data₀ hdata₀
  · exact h.slots.fill hfills (not_made_fromExport export_ store) fun item => made_exportTo
  · obtain ⟨data₀, hdata₀, hfills₀, -⟩ := hbefore j data' hdata'
    have hslot : (store.exportTo i data k export_).slot (j, k') = some item :=
      slot_eq_some.2 ⟨data', hdata', hk'⟩
    rw [hfills₀.module]
    by_cases hjk : (j, k') = (i, k)
    · -- The slot that was filled in.
      obtain ⟨rfl, rfl⟩ := Prod.mk.inj hjk
      obtain rfl := Option.some_inj.1 (hdata.symm.trans hdata₀)
      obtain rfl := Option.some_inj.1 (hfills.new.symm.trans hslot)
      refine ⟨name, entity, export_, hentry, (hfills₀.getExportByIndex entity).trans hexport, ?_⟩
      rw [Store.exportTo, exported_keep, exported_fromExport_self]
    · rw [hfills.rest _ hjk] at hslot
      obtain ⟨data₁, hdata₁, hk₁⟩ := slot_eq_some.1 hslot
      obtain rfl := Option.some_inj.1 (hdata₀.symm.trans hdata₁)
      obtain ⟨name', entity', e, hentry', he, hitem⟩ := h.resolves j k' data₀ item hdata₀ hk₁
      exact ⟨name', entity', e, hentry', (hfills₀.getExportByIndex entity').trans he,
        hext.exported item e hitem⟩
  · have hdata' : (Extern.fromExport export_ store).2.instances[i]? = some data :=
      fromExport_instances export_ store ▸ hdata
    rw [Store.exportTo, addresses_keep hdata', addresses, fromExport_instances]
    exact (fromExport_vmctx2instance export_ store).trans h.vmctxs
  · have hdata' : (Extern.fromExport export_ store).2.instances[i]? = some data :=
      fromExport_instances export_ store ▸ hdata
    rw [Store.exportTo, addresses_keep hdata', addresses, fromExport_instances]
    exact h.distinct

/-! ## Looking up exports -/

/-- The export at a position of an instance is known, as `item`, and the store is in order. -/
structure Known (linkedWith : List Linker) (store : Store) (i k : ℕ) (item : Extern) (store' : Store) :
    Prop where
  inv : store'.Inv linkedWith
  ext : store.Extends store'
  slot : store'.slot (i, k) = some item

/-- Asking for an export returns what its slot holds, and fills it in if it is empty. -/
theorem Inv.getExportInner (h : store.Inv linkedWith) (hdata : store.instances[i]? = some data)
    {name : String} {entity : EntityIndex}
    (hentry : data.module.translated.exports[k]? = some (name, entity)) :
    ∃ item store', store.getExportInner i entity k = .ok (item, store')
      ∧ Known linkedWith store i k item store'
      ∧ ∀ item', store.slot (i, k) = some item' → item' = item ∧ store' = store := by
  obtain ⟨linker, -, hinst⟩ := h.instance_ hdata
  have hk : k < data.exports.length := by
    rw [h.length i data hdata]
    exact (List.getElem?_eq_some_iff.1 hentry).1
  rcases hknown : data.exports[k] with _ | item
  · have hnone : data.exports[k]? = some none := hknown ▸ List.getElem?_eq_getElem hk
    obtain ⟨ps, hloaded⟩ := hinst.loaded
    have hhas := hloaded.exports_eq.2 _ (List.mem_of_getElem? hentry)
    obtain ⟨e, he⟩ := hinst.getExportByIndex_ok hhas
    have hfills : Slots.Fills store.slot (i, k) (Extern.fromExport e store).1
        (store.exportTo i data k e).slot := fills_exportTo hdata hnone
    refine ⟨(Extern.fromExport e store).1, store.exportTo i data k e, ?_,
      ⟨h.exportTo hdata hnone hentry he, extends_exportTo hdata hnone, hfills.new⟩,
      fun item' hitem' => ?_⟩
    · have hdata' : (Extern.fromExport e store).2.instances[i]? = some data :=
        fromExport_instances e store ▸ hdata
      refine bind_eq_ok.2 ⟨data, unwrap_eq_ok.2 hdata, bind_eq_ok.2 ⟨none, unwrap_eq_ok.2 hnone, ?_⟩⟩
      exact bind_eq_ok.2 ⟨e, he, bind_eq_ok.2 ⟨data, unwrap_eq_ok.2 hdata', rfl⟩⟩
    · rw [hfills.empty] at hitem'
      cases hitem'
  · have hsome : data.exports[k]? = some (some item) := hknown ▸ List.getElem?_eq_getElem hk
    have hslot : store.slot (i, k) = some item := slot_eq_some.2 ⟨data, hdata, hsome⟩
    refine ⟨item, store, ?_, ⟨h, .refl store, hslot⟩, fun item' hitem' =>
      ⟨Option.some_inj.1 (hitem'.symm.trans hslot), rfl⟩⟩
    exact bind_eq_ok.2 ⟨data, unwrap_eq_ok.2 hdata, bind_eq_ok.2 ⟨_, unwrap_eq_ok.2 hsome, rfl⟩⟩

theorem getElem?_of_getFull {exports : List (String × EntityIndex)} {name : String}
    {entity : EntityIndex} (h : getFull exports name = some (k, entity)) :
    exports[k]? = some (name, entity) := by
  obtain ⟨⟨⟨name', entity'⟩, k'⟩, hfind, heq⟩ := Option.map_eq_some_iff.1 h
  obtain ⟨rfl, rfl⟩ := Prod.mk.inj heq
  have hname : name' = name := by simpa using List.find?_some hfind
  rw [← hname]
  exact List.mem_zipIdx_iff_getElem?.1 (List.mem_of_find?_eq_some hfind)

theorem getFull_eq_none {exports : List (String × EntityIndex)} {name : String}
    (h : ∀ entity, (name, entity) ∉ exports) : getFull exports name = none := by
  rcases hfull : getFull exports name with _ | ⟨k, entity⟩
  · rfl
  · exact absurd (List.mem_of_getElem? (getElem?_of_getFull hfull)) (h entity)

/-- A name is found at its position. -/
theorem getFull_of_getElem? {exports : List (String × EntityIndex)} {name : String}
    {entity : EntityIndex} (hnodup : (exports.map Prod.fst).Nodup)
    (h : exports[k]? = some (name, entity)) : getFull exports name = some (k, entity) := by
  rcases hfull : getFull exports name with _ | ⟨k', entity'⟩
  · have hnot := List.find?_eq_none.1 (Option.map_eq_none_iff.1 hfull) ((name, entity), k)
      (List.mem_zipIdx_iff_getElem?.2 h)
    simp at hnot
  · have h' := getElem?_of_getFull hfull
    have hlt : k' < (exports.map Prod.fst).length := by
      rw [List.length_map]
      exact (List.getElem?_eq_some_iff.1 h').1
    obtain rfl : k' = k := (List.getElem?_inj hlt hnodup).1 (by simp [h, h'])
    obtain rfl := (Prod.mk.inj (Option.some_inj.1 (h.symm.trans h'))).2
    rfl

theorem Inv.exports_nodup (h : store.Inv linkedWith) (hdata : store.instances[i]? = some data) :
    (data.module.translated.exports.map Prod.fst).Nodup := by
  obtain ⟨linker, -, hinst⟩ := h.instance_ hdata
  obtain ⟨ps, hloaded⟩ := hinst.loaded
  exact hloaded.exports_nodup

/-- Looking up a name that a module exports. -/
theorem Inv.getExport (h : store.Inv linkedWith) (hdata : store.instances[i]? = some data)
    {name : String} {entity : EntityIndex}
    (hentry : data.module.translated.exports[k]? = some (name, entity)) :
    ∃ item store', store.getExport i name = .ok (some item, store')
      ∧ Known linkedWith store i k item store'
      ∧ ∀ item', store.slot (i, k) = some item' → item' = item ∧ store' = store := by
  obtain ⟨item, store', hrun, hknown⟩ := h.getExportInner hdata hentry
  refine ⟨item, store', bind_eq_ok.2 ⟨data, unwrap_eq_ok.2 hdata, ?_⟩, hknown⟩
  rw [getFull_of_getElem? (h.exports_nodup hdata) hentry]
  exact bind_eq_ok.2 ⟨_, hrun, rfl⟩

theorem getExport_eq_none (hdata : store.instances[i]? = some data) {name : String}
    (hnot : ∀ entity, (name, entity) ∉ data.module.translated.exports) :
    store.getExport i name = .ok (none, store) := by
  refine bind_eq_ok.2 ⟨data, unwrap_eq_ok.2 hdata, ?_⟩
  rw [getFull_eq_none hnot]
  rfl

/-! ## All exports -/

/-- The exports under some names are known. -/
structure AllKnown (linkedWith : List Linker) (store : Store) (i : ℕ)
    (exports : List (String × EntityIndex)) (names : List String) (store' : Store) : Prop where
  inv : store'.Inv linkedWith
  ext : store.Extends store'
  slots : ∀ (k : ℕ) name entity, name ∈ names → exports[k]? = some (name, entity) →
    ∃ item, store'.slot (i, k) = some item

theorem Inv.fillNames {exports : List (String × EntityIndex)} :
    ∀ {names : List String} {store : Store} {data : Instance}, store.Inv linkedWith →
    store.instances[i]? = some data → data.module.translated.exports = exports →
    names ⊆ exports.map Prod.fst →
    ∃ store', names.foldlM (fillExports i exports) store = .ok store'
      ∧ AllKnown linkedWith store i exports names store'
  | [], store, data, h, _, _, _ => ⟨store, rfl, h, .refl store, by simp⟩
  | name :: names, store, data, h, hdata, hexports, hsub => by
    subst hexports
    obtain ⟨hname, hsub'⟩ := List.cons_subset.1 hsub
    obtain ⟨⟨_, entity⟩, hmem, rfl⟩ := List.mem_map.1 hname
    obtain ⟨k, hentry⟩ := List.mem_iff_getElem?.1 hmem
    have hfull := getFull_of_getElem? (h.exports_nodup hdata) hentry
    obtain ⟨item, store₁, hinner, hknown, -⟩ := h.getExportInner hdata hentry
    obtain ⟨data₁, hdata₁, hfills⟩ := hknown.ext.instances i data hdata
    obtain ⟨store', hrest, hall⟩ :=
      fillNames hknown.inv hdata₁ (by rw [hfills.module]) hsub'
    refine ⟨store', ?_, hall.inv, hknown.ext.trans hall.ext, fun k' name' entity' hmem' hentry' => ?_⟩
    · rw [List.foldlM_cons]
      refine bind_eq_ok.2 ⟨store₁, ?_, hrest⟩
      unfold fillExports
      rw [hfull]
      exact bind_eq_ok.2 ⟨_, hinner, rfl⟩
    · rcases List.mem_cons.1 hmem' with rfl | hmem'
      · have hfull' := getFull_of_getElem? (h.exports_nodup hdata) hentry'
        obtain rfl := (Prod.mk.inj (Option.some_inj.1 (hfull.symm.trans hfull'))).1
        exact ⟨item, hall.ext.keeps _ item hknown.slot⟩
      · exact hall.slots k' name' entity' hmem' hentry'

/-- The exports of an instance in the order of the module, each with what its slot holds. -/
structure Listed (store : Store) (i : ℕ) (data : Instance) (items : List (String × Extern)) :
    Prop where
  names : items.map Prod.fst = data.module.translated.exports.map Prod.fst
  slots : ∀ (k : ℕ) name item, items[k]? = some (name, item) → store.slot (i, k) = some item

/-- Where all exports are known, they are listed. -/
theorem Inv.knownExports (h : store.Inv linkedWith) (hdata : store.instances[i]? = some data)
    (hall : ∀ k < data.exports.length, ∃ item, store.slot (i, k) = some item) :
    ∃ items, store.knownExports i = .ok items ∧ store.Listed i data items := by
  have hslot : ∀ (k : ℕ) export_, data.exports[k]? = some export_ → store.slot (i, k) = export_ := by
    intro k e he
    simp [slot, hdata, he]
  have hvalue : ∀ p ∈ data.module.translated.exports.zip data.exports, ∃ y,
      (do
        let value ← unwrap "called `Option::unwrap()` on a `None` value" p.2
        pure (p.1.1, value) : Except Fault (String × Extern)) = .ok y := by
    rintro ⟨⟨name, entity⟩, e⟩ hp
    obtain ⟨k, hk⟩ := List.mem_iff_getElem?.1 (List.of_mem_zip hp).2
    obtain ⟨item, hitem⟩ := hall k (List.getElem?_eq_some_iff.1 hk).1
    rw [hslot k e hk] at hitem
    exact ⟨(name, item), bind_eq_ok.2 ⟨item, unwrap_eq_ok.2 hitem, rfl⟩⟩
  obtain ⟨items, hitems⟩ := exists_mapM_ok hvalue
  refine ⟨items, bind_eq_ok.2 ⟨data, unwrap_eq_ok.2 hdata, hitems⟩, ?_, fun k name item hk => ?_⟩
  · have hnames : List.Forall₂ (fun p y => p.1.1 = y.1)
        (data.module.translated.exports.zip data.exports) items := by
      refine (mapM_eq_ok_iff.1 hitems).imp fun p y hy => ?_
      obtain ⟨value, -, hy⟩ := bind_eq_ok.1 hy
      obtain rfl := Except.ok.inj hy
      rfl
    have hmap : (data.module.translated.exports.zip data.exports).map (fun p => p.1.1)
        = items.map Prod.fst := by
      rw [← List.forall₂_eq_eq_eq]
      exact List.forall₂_map_left_iff.2 (List.forall₂_map_right_iff.2 hnames)
    have hfst := congrArg (List.map Prod.fst) (List.map_fst_zip (h.length i data hdata).ge)
    rw [List.map_map] at hfst
    exact hmap.symm.trans hfst
  · obtain ⟨p, hp, hy⟩ := forall₂_getElem? (mapM_eq_ok_iff.1 hitems).flip hk
    obtain ⟨value, hvalue, hy⟩ := bind_eq_ok.1 hy
    obtain ⟨-, rfl⟩ := Prod.mk.inj (Except.ok.inj hy)
    rw [hslot k p.2 (List.getElem?_zip_eq_some.1 hp).2]
    exact unwrap_eq_ok.1 hvalue

theorem exports_of_filled (hdata : store.instances[i]? = some data)
    (hfill : (if data.exports.any Option.isNone then
        (data.module.translated.exports.map Prod.fst).foldlM
          (fillExports i data.module.translated.exports) store
      else pure store) = .ok store') {items : List (String × Extern)}
    (hknown : store'.knownExports i = .ok items) : store.exports i = .ok (items, store') := by
  obtain ⟨data', hdata', hitems⟩ := bind_eq_ok.1 hknown
  refine bind_eq_ok.2 ⟨data, unwrap_eq_ok.2 hdata, ?_⟩
  dsimp only
  split_ifs at hfill ⊢
  all_goals
    exact bind_eq_ok.2 ⟨store', hfill, bind_eq_ok.2 ⟨data', hdata', bind_eq_ok.2 ⟨items, hitems, rfl⟩⟩⟩

/-- Asking for all exports fills in the slots that are empty. -/
theorem Inv.exports (h : store.Inv linkedWith) (hdata : store.instances[i]? = some data) :
    ∃ items store', store.exports i = .ok (items, store') ∧ store'.Inv linkedWith
      ∧ store.Extends store' ∧ store'.Listed i data items := by
  by_cases hany : data.exports.any Option.isNone
  · obtain ⟨store', hfill, hinv, hext, hslots⟩ := h.fillNames hdata rfl (List.Subset.refl _)
    obtain ⟨data', hdata', hfills⟩ := hext.instances i data hdata
    obtain ⟨items, hitems, hlisted⟩ := hinv.knownExports hdata' fun k hk => by
      rw [hinv.length i data' hdata', hfills.module] at hk
      exact hslots k _ _ (List.mem_map_of_mem (List.getElem_mem hk)) (List.getElem?_eq_getElem hk)
    exact ⟨items, store', exports_of_filled hdata ((if_pos hany).trans hfill) hitems, hinv, hext,
      hfills.module ▸ hlisted.names, hlisted.slots⟩
  · obtain ⟨items, hitems, hlisted⟩ := h.knownExports hdata fun k hk => by
      rcases hk' : data.exports[k] with _ | item
      · exact absurd (List.any_eq_true.2 ⟨none, hk' ▸ List.getElem_mem hk, rfl⟩) hany
      · exact ⟨item, slot_eq_some.2 ⟨data, hdata, hk' ▸ List.getElem?_eq_getElem hk⟩⟩
    exact ⟨items, store, exports_of_filled hdata (if_neg hany) hitems, h, .refl store, hlisted⟩

end Store

end K23VM
