import K23VM.Handles
import K23VM.Proofs.LinkChecks
import K23VM.Proofs.Linker

/-!
# Who honours a handle

A store has a handle of a type exactly where it issued one with that position, and looks it up as what it
was issued for from then on.  Another store has it, too, once it has issued more handles of the type than
came before it, `handle_rejected_iff`.
-/

namespace K23VM

/-! ## What is looked up -/

/-- The instance, where more of its exports are known. -/
structure Instance.Fills (instance_ instance' : Instance) : Prop where
  same : instance' = { instance_ with exports := instance'.exports }
  keeps : ∀ (k : ℕ) (item : Extern), instance_.exports[k]? = some (some item) →
    instance'.exports[k]? = some (some item)

theorem Instance.Fills.refl (instance_ : Instance) : instance_.Fills instance_ :=
  ⟨rfl, fun _ _ h => h⟩

theorem Instance.Fills.trans {i i' i'' : Instance} (h : i.Fills i') (h' : i'.Fills i'') :
    i.Fills i'' := by
  refine ⟨?_, fun k item hk => h'.keeps k item (h.keeps k item hk)⟩
  rw [h'.same, h.same]

/-- An object that was pushed, as it is later. -/
inductive StoredObject.Later : StoredObject → StoredObject → Prop
  | instance_ {i i' : Instance} (h : i.Fills i') : Later (.instance_ i) (.instance_ i')
  | function {e : ExportedFunction} : Later (.function e) (.function e)
  | table {e : ExportedTable} : Later (.table e) (.table e)
  | memory {e : ExportedMemory} : Later (.memory e) (.memory e)
  | global {e : ExportedGlobal} : Later (.global e) (.global e)

theorem StoredObject.Later.refl : ∀ o : StoredObject, o.Later o
  | .instance_ i => .instance_ (.refl i)
  | .function _ => .function
  | .table _ => .table
  | .memory _ => .memory
  | .global _ => .global

namespace Store

/-- How many handles of the type there are. -/
def count (store : Store) : StoredType → ℕ
  | .instance_ => store.instances.length
  | .function => store.exportedFuncs.length
  | .table => store.exportedTables.length
  | .memory => store.exportedMemories.length
  | .global => store.exportedGlobals.length

variable {store store' : Store} {handle : Stored} {object : StoredObject}

theorem has_iff_lt_count : store.has handle ↔ handle.index < store.count handle.type := by
  obtain ⟨type, i⟩ := handle
  cases type <;>
    simp [has, count, hasInstance, hasFunction, hasTable, hasMemory, hasGlobal, hasIn, getIn]

theorem has_iff_get : store.has handle ↔ ∃ o, store.get handle = some o := by
  rw [← Option.isSome_iff_exists]
  obtain ⟨type, i⟩ := handle
  cases type <;>
    simp [has, get, hasInstance, hasFunction, hasTable, hasMemory, hasGlobal, getInstance,
      getFunction, getTable, getMemory, getGlobal, hasIn, getIn]

theorem comesFromSameStore_eq (store : Store) (handle : Stored) :
    store.comesFromSameStore handle = none
    ∨ store.comesFromSameStore handle = some (store.has handle) := by
  obtain ⟨type, i⟩ := handle
  cases type
  · exact .inr rfl
  · exact .inl rfl
  · exact .inr rfl
  · exact .inr rfl
  · exact .inr rfl

/-- The effect of a push. -/
structure Pushes (store : Store) (handle : Stored) (object : StoredObject) (store' : Store) :
    Prop where
  has : ∀ h, store'.has h ↔ store.has h ∨ h = handle
  get : ∀ h, store.has h → store'.get h = store.get h
  new : store'.get handle = some object
  index : handle.index = store.count handle.type
  count : ∀ t, store'.count t = if t = handle.type then store.count t + 1 else store.count t

theorem pushes_of_count (hhandle : handle.index = store.count handle.type)
    (hcount : ∀ t, store'.count t = if t = handle.type then store.count t + 1 else store.count t)
    (hget : ∀ h, store.has h → store'.get h = store.get h)
    (hnew : store'.get handle = some object) : store.Pushes handle object store' := by
  refine ⟨fun h => ?_, hget, hnew, hhandle, hcount⟩
  obtain ⟨type, i⟩ := h
  obtain ⟨type', j⟩ := handle
  rw [has_iff_lt_count, has_iff_lt_count, hcount, Stored.mk.injEq]
  by_cases ht : type = type'
  · subst ht
    simp only [if_true, true_and]
    simp only at hhandle
    omega
  · simp [ht]

theorem getElem?_push {α : Type} {l : List α} {x : α} {i : ℕ} (h : i < l.length) :
    (l ++ [x])[i]? = l[i]? :=
  List.getElem?_append_left h

theorem pushes_pushInstance (store : Store) (i : Instance) :
    store.Pushes ⟨.instance_, (store.pushInstance i).1⟩ (.instance_ i) (store.pushInstance i).2 := by
  refine pushes_of_count rfl (fun t => ?_) (fun h hh => ?_) ?_
  · cases t <;> simp [count, pushInstance]
  · rw [has_iff_lt_count] at hh
    obtain ⟨type, k⟩ := h
    cases type <;> try rfl
    exact congrArg (Option.map _) (getElem?_push hh)
  · simp [get, getInstance, getIn, pushInstance]

theorem pushes_fromExport (store : Store) (export_ : Export) :
    store.Pushes (Extern.fromExport export_ store).1.stored export_.object
      (Extern.fromExport export_ store).2 := by
  cases export_
  all_goals
    refine pushes_of_count rfl (fun t => ?_) (fun h hh => ?_) ?_
    · cases t <;> simp [count, Extern.fromExport, Extern.stored, pushFunction, pushTable, pushMemory,
        pushGlobal]
    · rw [has_iff_lt_count] at hh
      obtain ⟨type, k⟩ := h
      cases type <;> try rfl
      exact congrArg (Option.map _) (getElem?_push hh)
    · simp [get, getFunction, getTable, getMemory, getGlobal, getIn, Extern.fromExport, Extern.stored,
        Export.object, pushFunction, pushTable, pushMemory, pushGlobal]

end Store

/-- The store where an export is kept with its instance. -/
def Store.keep (store : Store) (i : ℕ) (data : Instance) (k : ℕ) (item : Extern) : Store :=
  { store with
    instances := store.instances.set i { data with exports := data.exports.set k (some item) } }

/-! ## The ledger -/

namespace Ledger

/-- How many of the handles that were issued are of the type. -/
def countOf (type : StoredType) (issued : List (Stored × StoredObject)) : ℕ :=
  issued.countP fun e => type = e.1.type

/-- The position of a handle says how many of its type were issued before it. -/
def Positioned : List (Stored × StoredObject) → Prop
  | [] => True
  | (handle, _) :: before => handle.index = countOf handle.type before ∧ Positioned before

theorem Positioned.index_eq {handle : Stored} {object : StoredObject}
    {before : List (Stored × StoredObject)} : ∀ {since : List (Stored × StoredObject)},
    Positioned (since ++ (handle, object) :: before) → handle.index = countOf handle.type before
  | [], h => h.1
  | (_, _) :: _, h => index_eq h.2

structure Inv (ledger : Ledger) : Prop where
  has_iff : ∀ h, ledger.store.has h ↔ ∃ o, (h, o) ∈ ledger.issued
  resolves : ∀ h o, (h, o) ∈ ledger.issued → ∃ o', ledger.store.get h = some o' ∧ o.Later o'
  /-- The handles that are kept with an instance have been issued. -/
  cached : ∀ (i : ℕ) (instance_ : Instance), ledger.store.instances[i]? = some instance_ →
    ∀ item, some item ∈ instance_.exports → ledger.store.has item.stored
  count : ∀ type, ledger.store.count type = countOf type ledger.issued
  positioned : Positioned ledger.issued

variable {ledger ledger' ledger'' : Ledger}

/-- What has become of a ledger after some calls. -/
structure Next (ledger ledger' : Ledger) : Prop where
  inv : ledger'.Inv
  issued : ledger.issued <:+ ledger'.issued

theorem Next.trans (h : ledger.Next ledger') (h' : ledger'.Next ledger'') : ledger.Next ledger'' :=
  ⟨h'.inv, h.issued.trans h'.issued⟩

theorem Inv.next (h : ledger.Inv) : ledger.Next ledger := ⟨h, List.suffix_rfl⟩

theorem Next.has (h : ledger.Next ledger') (hinv : ledger.Inv) {handle : Stored}
    (hh : ledger.store.has handle) : ledger'.store.has handle := by
  obtain ⟨o, ho⟩ := (hinv.has_iff handle).1 hh
  exact (h.inv.has_iff handle).2 ⟨o, h.issued.mem ho⟩

theorem inv_empty : ({} : Ledger).Inv where
  has_iff h := by
    rw [Store.has_iff_lt_count]
    obtain ⟨type, i⟩ := h
    cases type <;> simp [Store.count]
  resolves := by rintro h o ⟨⟩
  cached := by simp
  count type := by cases type <;> rfl
  positioned := trivial

theorem Inv.push {store' : Store} {handle : Stored} {object : StoredObject} (h : ledger.Inv)
    (hpush : ledger.store.Pushes handle object store')
    (hcached : ∀ (i : ℕ) (instance_ : Instance), store'.instances[i]? = some instance_ →
      ∀ item, some item ∈ instance_.exports → ledger.store.has item.stored) :
    ledger.Next ⟨store', (handle, object) :: ledger.issued⟩ := by
  refine ⟨⟨fun h' => ?_, fun h' o ho => ?_, fun i instance_ hi item hitem => ?_, fun type => ?_,
    hpush.index.trans (h.count _), h.positioned⟩, List.suffix_cons _ _⟩
  · rw [hpush.has, h.has_iff]
    simp only [List.mem_cons, Prod.mk.injEq]
    constructor
    · rintro (⟨o, ho⟩ | rfl)
      · exact ⟨o, .inr ho⟩
      · exact ⟨object, .inl ⟨rfl, rfl⟩⟩
    · rintro ⟨o, ⟨rfl, -⟩ | ho⟩
      · exact .inr rfl
      · exact .inl ⟨o, ho⟩
  · rcases List.mem_cons.1 ho with heq | ho
    · obtain ⟨rfl, rfl⟩ := Prod.mk.inj heq
      exact ⟨o, hpush.new, .refl o⟩
    · rw [hpush.get h' ((h.has_iff h').2 ⟨o, ho⟩)]
      exact h.resolves h' o ho
  · exact (hpush.has _).2 (.inl (hcached i instance_ hi item hitem))
  · rw [hpush.count, h.count, countOf, countOf, List.countP_cons]
    simp only [decide_eq_true_eq]
    split_ifs <;> rfl

theorem pushInstance_next (h : ledger.Inv) {instance_ : Instance}
    (hnone : ∀ item, some item ∉ instance_.exports) :
    ledger.Next (ledger.pushInstance instance_).2
      ∧ (ledger.pushInstance instance_).2.store.has ⟨.instance_, (ledger.pushInstance instance_).1⟩ := by
  have hpush := ledger.store.pushes_pushInstance instance_
  refine ⟨h.push hpush fun i i' hi item hitem => ?_, (hpush.has _).2 (.inr rfl)⟩
  rcases List.mem_append.1 (List.mem_of_getElem? hi) with hmem | hmem
  · obtain ⟨j, hj⟩ := List.mem_iff_getElem?.1 hmem
    exact h.cached j i' hj item hitem
  · obtain rfl := List.mem_singleton.1 hmem
    exact absurd hitem (hnone item)

theorem fromExport_next (h : ledger.Inv) (export_ : Export) :
    ledger.Next (ledger.fromExport export_).2
      ∧ (ledger.fromExport export_).2.store.has (ledger.fromExport export_).1.stored
      ∧ (ledger.fromExport export_).2.store.instances = ledger.store.instances := by
  have hpush := ledger.store.pushes_fromExport export_
  have hinstances : (Extern.fromExport export_ ledger.store).2.instances = ledger.store.instances := by
    cases export_ <;> rfl
  refine ⟨h.push hpush fun i i' hi => ?_, (hpush.has _).2 (.inr rfl), hinstances⟩
  have hi : (Extern.fromExport export_ ledger.store).2.instances[i]? = some i' := hi
  rw [hinstances] at hi
  exact h.cached i i' hi

/-- An export that was not known is kept with its instance. -/
theorem Inv.keep (h : ledger.Inv) {i k : ℕ} {data : Instance} {item : Extern}
    (hdata : ledger.store.instances[i]? = some data) (hnone : data.exports[k]? = some none)
    (hitem : ledger.store.has item.stored) :
    ledger.Next ⟨ledger.store.keep i data k item, ledger.issued⟩ := by
  have hcount : ∀ type, (ledger.store.keep i data k item).count type = ledger.store.count type := by
    intro type
    cases type <;> simp [Store.count, Store.keep]
  have hhas : ∀ h', (ledger.store.keep i data k item).has h' ↔ ledger.store.has h' := by
    intro h'
    rw [Store.has_iff_lt_count, Store.has_iff_lt_count, hcount]
  have hfills : data.Fills { data with exports := data.exports.set k (some item) } := by
    refine ⟨rfl, fun j item' hj => ?_⟩
    rw [List.getElem?_set_ne, hj]
    rintro rfl
    rw [hnone] at hj
    cases hj
  refine ⟨⟨fun h' => (hhas h').trans (h.has_iff h'), fun h' o ho => ?_, ?_,
    fun type => (hcount type).trans (h.count type), h.positioned⟩, List.suffix_rfl⟩
  · obtain ⟨o', ho', hlater⟩ := h.resolves h' o ho
    obtain ⟨type, j⟩ := h'
    cases type with
    | instance_ =>
      obtain ⟨i', hi', rfl⟩ := Option.map_eq_some_iff.1 ho'
      have hi' : ledger.store.instances[j]? = some i' := hi'
      obtain ⟨hlater⟩ := hlater
      by_cases hij : i = j
      · subst hij
        obtain rfl := Option.some_inj.1 (hdata.symm.trans hi')
        have hlt := (List.getElem?_eq_some_iff.1 hdata).1
        exact ⟨_, congrArg (Option.map _) (List.getElem?_set_self hlt),
          .instance_ (hlater.trans hfills)⟩
      · exact ⟨_, congrArg (Option.map _) ((List.getElem?_set_ne hij).trans hi'), .instance_ hlater⟩
    | _ => exact ⟨o', ho', hlater⟩
  · intro j i' hj item' hitem'
    rw [hhas]
    have hj : (ledger.store.instances.set i _)[j]? = some i' := hj
    by_cases hij : i = j
    · subst hij
      rw [List.getElem?_set_self (List.getElem?_eq_some_iff.1 hdata).1] at hj
      obtain rfl := Option.some_inj.1 hj
      rcases List.mem_or_eq_of_mem_set hitem' with hmem | heq
      · exact h.cached i data hdata item' hmem
      · obtain rfl := Option.some_inj.1 heq
        exact hitem
    · rw [List.getElem?_set_ne hij] at hj
      exact h.cached j i' hj item' hitem'

theorem getExportInner_next (h : ledger.Inv) {i k : ℕ} {entity : EntityIndex} {item : Extern}
    (hrun : ledger.getExportInner i entity k = .ok (item, ledger')) :
    ledger.Next ledger' ∧ ledger'.store.has item.stored := by
  unfold getExportInner at hrun
  obtain ⟨data, hdata, hrun⟩ := bind_eq_ok.1 hrun
  obtain ⟨known, hknown, hrun⟩ := bind_eq_ok.1 hrun
  have hdata := unwrap_eq_ok.1 hdata
  have hknown := unwrap_eq_ok.1 hknown
  cases known with
  | some item' =>
    obtain ⟨rfl, rfl⟩ := Prod.mk.inj (Except.ok.inj hrun)
    exact ⟨h.next, h.cached i data hdata item' (List.mem_of_getElem? hknown)⟩
  | none =>
    obtain ⟨export_, -, hrun⟩ := bind_eq_ok.1 hrun
    obtain ⟨hnext, hhas, hinstances⟩ := fromExport_next h export_
    obtain ⟨data', hdata', hrun⟩ := bind_eq_ok.1 hrun
    have hdata' := unwrap_eq_ok.1 hdata'
    obtain ⟨rfl, rfl⟩ := Prod.mk.inj (Except.ok.inj hrun)
    obtain rfl : data = data' := Option.some_inj.1 (hdata.symm.trans (hinstances ▸ hdata'))
    have hkeep := hnext.inv.keep hdata' hknown hhas
    exact ⟨hnext.trans hkeep, hkeep.has hnext.inv hhas⟩

theorem fillExports_next (h : ledger.Inv) {i : ℕ} {exports : List (String × EntityIndex)}
    {name : String} (hrun : ledger.fillExports i exports name = .ok ledger') :
    ledger.Next ledger' := by
  unfold fillExports at hrun
  split at hrun
  · obtain ⟨⟨item, ledger₁⟩, hinner, hrun⟩ := bind_eq_ok.1 hrun
    obtain rfl := Except.ok.inj hrun
    exact (getExportInner_next h hinner).1
  · obtain rfl := Except.ok.inj hrun
    exact h.next

theorem fillNames_next {i : ℕ} {exports : List (String × EntityIndex)} : ∀ {names : List String}
    {ledger : Ledger}, ledger.Inv → names.foldlM (fillExports i exports) ledger = .ok ledger' →
    ledger.Next ledger'
  | [], ledger, h, hrun => by
    obtain rfl := Except.ok.inj hrun
    exact h.next
  | name :: names, ledger, h, hrun => by
    obtain ⟨ledger₁, hfill, hrun⟩ := bind_eq_ok.1 hrun
    have hnext := fillExports_next h hfill
    exact hnext.trans (fillNames_next hnext.inv hrun)

theorem fillAll_next (h : ledger.Inv) {i : ℕ} {data : Instance}
    (hrun : ledger.fillAll i data = .ok ledger') : ledger.Next ledger' := by
  unfold fillAll at hrun
  split at hrun
  · exact fillNames_next h hrun
  · obtain rfl := Except.ok.inj hrun
    exact h.next

theorem exports_next (h : ledger.Inv) {i : ℕ} {exports : List (String × Extern)}
    (hrun : ledger.exports i = .ok (exports, ledger')) :
    ledger.Next ledger' ∧ ∀ e ∈ exports, ledger'.store.has e.2.stored := by
  unfold Ledger.exports at hrun
  obtain ⟨data, -, hrun⟩ := bind_eq_ok.1 hrun
  obtain ⟨ledger₁, hfill, hrun⟩ := bind_eq_ok.1 hrun
  obtain ⟨values, hknown, hrun⟩ := bind_eq_ok.1 hrun
  obtain ⟨rfl, rfl⟩ := Prod.mk.inj (Except.ok.inj hrun)
  obtain ⟨data', hdata, hvalues⟩ := bind_eq_ok.1 hknown
  have hnext := fillAll_next h hfill
  refine ⟨hnext, fun e he => ?_⟩
  obtain ⟨p, hp, hvalue⟩ := exists_of_mem_mapM hvalues he
  obtain ⟨item, hitem, hvalue⟩ := bind_eq_ok.1 hvalue
  obtain rfl := Except.ok.inj hvalue
  refine hnext.inv.cached i data' (unwrap_eq_ok.1 hdata) item ?_
  rw [← unwrap_eq_ok.1 hitem]
  exact (List.of_mem_zip hp).2

theorem getExport_next (h : ledger.Inv) {i : ℕ} {name : String} {found : Option Extern}
    (hrun : ledger.getExport i name = .ok (found, ledger')) :
    ledger.Next ledger' ∧ ∀ item ∈ found, ledger'.store.has item.stored := by
  unfold getExport at hrun
  obtain ⟨data, -, hrun⟩ := bind_eq_ok.1 hrun
  split at hrun
  · obtain ⟨rfl, rfl⟩ := Prod.mk.inj (Except.ok.inj hrun)
    exact ⟨h.next, by simp⟩
  · obtain ⟨⟨item, ledger₁⟩, hinner, hrun⟩ := bind_eq_ok.1 hrun
    obtain ⟨rfl, rfl⟩ := Prod.mk.inj (Except.ok.inj hrun)
    obtain ⟨hnext, hhas⟩ := getExportInner_next h hinner
    exact ⟨hnext, fun item' hitem' => Option.mem_some_iff.1 hitem' ▸ hhas⟩

theorem instantiate_next (h : ledger.Inv) {debug : Bool} {builtinFunctions : ℕ} {linker : Linker}
    {alloc : InstanceAllocator} {ev ev' : ConstExprEvaluator} {module : Module} {handle : ℕ}
    (hrun : ledger.instantiate debug builtinFunctions linker alloc ev module
      = .ok (.ok ((handle, ledger'), ev'))) :
    ledger.Next ledger' ∧ ledger'.store.has ⟨.instance_, handle⟩ := by
  obtain ⟨imports, -, hrun⟩ := fallible_bind_eq_ok.1 hrun
  obtain ⟨⟨instance_, ev₁⟩, hnew, hrun⟩ := fallible_bind_eq_ok.1 hrun
  obtain ⟨hpush, -⟩ := Prod.mk.inj (Except.ok.inj (Except.ok.inj hrun))
  have hnone : ∀ item, some item ∉ instance_.exports := by
    obtain ⟨_, -, hnew⟩ := fallible_bind_eq_ok.1 hnew
    obtain ⟨_, -, hnew⟩ := fallible_bind_eq_ok.1 hnew
    obtain ⟨_, -, hnew⟩ := fallible_bind_eq_ok.1 hnew
    obtain ⟨_, -, hnew⟩ := fallible_bind_eq_ok.1 hnew
    obtain ⟨rfl, -⟩ := Prod.mk.inj (Except.ok.inj (Except.ok.inj hnew))
    simp
  have hnext := pushInstance_next h hnone
  rw [hpush] at hnext
  exact hnext

/-- A call keeps the record in order, and the handles it returns have been issued. -/
theorem step_next (h : ledger.Inv) {op : StoreOp} {returned : List Stored}
    (hrun : ledger.step op = .ok (returned, ledger')) :
    ledger.Next ledger' ∧ ∀ handle ∈ returned, ledger'.store.has handle := by
  cases op with
  | instantiate debug builtinFunctions linker alloc ev module =>
    obtain ⟨result, hinst, hrun⟩ := bind_eq_ok.1 hrun
    rcases result with e | ⟨⟨handle, ledger₁⟩, ev'⟩
    · obtain ⟨rfl, rfl⟩ := Prod.mk.inj (Except.ok.inj hrun)
      exact ⟨h.next, by simp⟩
    · obtain ⟨rfl, rfl⟩ := Prod.mk.inj (Except.ok.inj hrun)
      obtain ⟨hnext, hhas⟩ := instantiate_next h hinst
      exact ⟨hnext, fun handle' hmem => List.mem_singleton.1 hmem ▸ hhas⟩
  | exports i =>
    obtain ⟨⟨exports, ledger₁⟩, hexports, hrun⟩ := bind_eq_ok.1 hrun
    obtain ⟨rfl, rfl⟩ := Prod.mk.inj (Except.ok.inj hrun)
    obtain ⟨hnext, hhas⟩ := exports_next h hexports
    exact ⟨hnext, List.forall_mem_map.2 hhas⟩
  | getExport i name =>
    obtain ⟨⟨found, ledger₁⟩, hget, hrun⟩ := bind_eq_ok.1 hrun
    obtain ⟨rfl, rfl⟩ := Prod.mk.inj (Except.ok.inj hrun)
    obtain ⟨hnext, hhas⟩ := getExport_next h hget
    exact ⟨hnext, List.forall_mem_map.2 fun item hitem => hhas item (Option.mem_toList.1 hitem)⟩

theorem run_next : ∀ {ops : List StoreOp} {ledger : Ledger}, ledger.Inv →
    ledger.run ops = .ok ledger' → ledger.Next ledger'
  | [], ledger, h, hrun => by
    obtain rfl := Except.ok.inj hrun
    exact h.next
  | op :: ops, ledger, h, hrun => by
    obtain ⟨⟨returned, ledger₁⟩, hstep, hrun⟩ := bind_eq_ok.1 hrun
    have hnext := (step_next h hstep).1
    exact hnext.trans (run_next hnext.inv hrun)

/-! The record changes nothing -/

theorem getExportInner_store (ledger : Ledger) (i : ℕ) (entity : EntityIndex) (k : ℕ) :
    (fun r => (r.1, r.2.store)) <$> ledger.getExportInner i entity k
      = ledger.store.getExportInner i entity k := by
  unfold getExportInner Store.getExportInner
  rcases Store.index ledger.store.instances i with f | data
  · rfl
  rcases hknown : unwrap "index out of bounds" data.exports[k]? with f | known
  · simp [hknown, bind, Except.bind, Functor.map, Except.map]
  cases known with
  | some item => simp [hknown, bind, Except.bind, Functor.map, Except.map, pure, Except.pure]
  | none =>
    rcases hexport : data.getExportByIndex entity with f | export_
    · simp [hknown, hexport, bind, Except.bind, Functor.map, Except.map]
    · rcases hdata : Store.index (Extern.fromExport export_ ledger.store).2.instances i with f | data'
      · simp [hknown, hexport, fromExport, hdata, bind, Except.bind, Functor.map, Except.map]
      · simp [hknown, hexport, fromExport, hdata, bind, Except.bind, Functor.map, Except.map, pure,
          Except.pure]

theorem fillExports_store (i : ℕ) (exports : List (String × EntityIndex)) (ledger : Ledger)
    (name : String) :
    store <$> ledger.fillExports i exports name = ledger.store.fillExports i exports name := by
  unfold fillExports Store.fillExports
  rcases Store.getFull exports name with _ | ⟨k, entity⟩
  · rfl
  · simp only []
    rw [← getExportInner_store]
    cases ledger.getExportInner i entity k <;> rfl

theorem fillNames_store (i : ℕ) (exports : List (String × EntityIndex)) :
    ∀ (names : List String) (ledger : Ledger), store <$> names.foldlM (fillExports i exports) ledger
      = names.foldlM (Store.fillExports i exports) ledger.store
  | [], _ => rfl
  | name :: names, ledger => by
    rw [List.foldlM_cons, List.foldlM_cons, ← fillExports_store]
    rcases ledger.fillExports i exports name with f | ledger₁
    · rfl
    · exact fillNames_store i exports names ledger₁

theorem exports_store (ledger : Ledger) (i : ℕ) :
    (fun r => (r.1, r.2.store)) <$> ledger.exports i = ledger.store.exports i := by
  have hrest : ∀ ledger₁ : Ledger, (fun r : List (String × Extern) × Ledger => (r.1, r.2.store)) <$>
        (do pure (← ledger₁.store.knownExports i, ledger₁))
      = (do
        let data ← Store.index ledger₁.store.instances i
        let exports ← (data.module.translated.exports.zip data.exports).mapM
          (fun p : (String × EntityIndex) × Option Extern => do
            let value ← unwrap "called `Option::unwrap()` on a `None` value" p.2
            pure (p.1.1, value))
        pure (exports, ledger₁.store)) := by
    intro ledger₁
    rw [map_bind, Store.knownExports, bind_assoc]
    rfl
  unfold Ledger.exports Store.exports fillAll
  rcases Store.index ledger.store.instances i with f | data
  · rfl
  have hfill := fillNames_store i data.module.translated.exports
    (data.module.translated.exports.map Prod.fst) ledger
  by_cases hany : data.exports.any Option.isNone
  · simp only [bind, Except.bind, if_pos hany]
    rw [← hfill]
    rcases (data.module.translated.exports.map Prod.fst).foldlM
        (fillExports i data.module.translated.exports) ledger with f | ledger₁
    · rfl
    · exact hrest ledger₁
  · simp only [bind, Except.bind, if_neg hany]
    exact hrest ledger

theorem getExport_store (ledger : Ledger) (i : ℕ) (name : String) :
    (fun r => (r.1, r.2.store)) <$> ledger.getExport i name = ledger.store.getExport i name := by
  unfold getExport Store.getExport
  rcases Store.index ledger.store.instances i with f | data
  · rfl
  rcases hfull : Store.getFull data.module.translated.exports name with _ | ⟨k, entity⟩
  · simp [hfull, bind, Except.bind, Functor.map, Except.map, pure, Except.pure]
  · simp only [hfull, bind, Except.bind]
    rw [← getExportInner_store]
    cases ledger.getExportInner i entity k <;> rfl

theorem instantiate_store (ledger : Ledger) (debug : Bool) (builtinFunctions : ℕ) (linker : Linker)
    (alloc : InstanceAllocator) (ev : ConstExprEvaluator) (module : Module) :
    (fun r => ((r.1.1, r.1.2.store), r.2))
        <$> ledger.instantiate debug builtinFunctions linker alloc ev module
      = linker.instantiate debug builtinFunctions ledger.store alloc ev module := by
  unfold instantiate Linker.instantiate
  rw [map_bind]
  refine bind_congr fun imports => ?_
  rw [map_bind]
  rfl

/-- A call does to the store what it does to a store whose handles are not recorded. -/
theorem step_store (ledger : Ledger) (op : StoreOp) :
    (fun r => r.2.store) <$> ledger.step op = ledger.store.step op := by
  cases op with
  | instantiate debug builtinFunctions linker alloc ev module =>
    rw [Store.step, ← instantiate_store, step]
    rcases hinst : ledger.instantiate debug builtinFunctions linker alloc ev module with f | e | r <;>
      rfl
  | exports i =>
    rw [Store.step, ← exports_store, step]
    rcases ledger.exports i with f | r <;> rfl
  | getExport i name =>
    rw [Store.step, ← getExport_store, step]
    rcases ledger.getExport i name with f | r <;> rfl

theorem Reachable.inv (h : ledger.Reachable) : ledger.Inv := by
  obtain ⟨ops, hrun⟩ := h
  exact (run_next inv_empty hrun).inv

end Ledger

/-! ## Handles of another store -/

/-- Whatever is called from here on, the store has the handle, and looks up the object. -/
def Ledger.Honours (ledger : Ledger) (handle : Stored) (object : StoredObject) : Prop :=
  ∀ ops ledger', ledger.run ops = .ok ledger' →
    ledger'.store.has handle ∧ ledger'.store.comesFromSameStore handle ≠ some false
      ∧ ∃ object', ledger'.store.get handle = some object' ∧ object.Later object'

/-- The store takes the handle for one of its own. -/
def Store.Accepts (store : Store) (handle : Stored) : Prop :=
  store.has handle ∨ store.comesFromSameStore handle = some true ∨ store.get handle ≠ none

/-- No handle of the type has been issued. -/
def Ledger.NoneIssued (ledger : Ledger) (type : StoredType) : Prop :=
  ∀ i o, (⟨type, i⟩, o) ∉ ledger.issued

theorem Store.accepts_iff {store : Store} {handle : Stored} :
    store.Accepts handle ↔ store.has handle := by
  refine ⟨fun h => ?_, .inl⟩
  rcases h with h | h | h
  · exact h
  · rcases store.comesFromSameStore_eq handle with hnone | hsome
    · rw [hnone] at h
      cases h
    · rw [hsome] at h
      exact Option.some_inj.1 h
  · exact has_iff_get.2 (Option.ne_none_iff_exists'.1 h)

namespace Ledger

variable {a b : Ledger} {handle : Stored} {object : StoredObject}

/-- What a handle was issued for is what it is looked up as from then on. -/
theorem Inv.honours (h : a.Inv) (hissued : (handle, object) ∈ a.issued) : a.Honours handle object := by
  intro ops a' hrun
  have hnext := run_next h hrun
  have hhas := (hnext.inv.has_iff handle).2 ⟨object, hnext.issued.mem hissued⟩
  refine ⟨hhas, ?_, hnext.inv.resolves handle object (hnext.issued.mem hissued)⟩
  rcases a'.store.comesFromSameStore_eq handle with heq | heq
  · simp [heq]
  · simp [heq, hhas]

/-- Another store rejects the handle exactly where it has issued no more handles of the type than came
before it. -/
theorem not_accepts_iff : ¬ b.store.Accepts handle ↔ b.store.count handle.type ≤ handle.index := by
  rw [Store.accepts_iff, Store.has_iff_lt_count, not_lt]

theorem Inv.noneIssued_iff (h : b.Inv) {type : StoredType} :
    b.NoneIssued type ↔ b.store.count type = 0 := by
  constructor
  · intro hnone
    by_contra hne
    have hhas : b.store.has ⟨type, 0⟩ := Store.has_iff_lt_count.2 (Nat.pos_of_ne_zero hne)
    obtain ⟨o, ho⟩ := (h.has_iff _).1 hhas
    exact hnone 0 o ho
  · intro hzero i o ho
    have hlt := Store.has_iff_lt_count.1 ((h.has_iff _).2 ⟨o, ho⟩)
    rw [hzero] at hlt
    exact absurd hlt (Nat.not_lt_zero i)

theorem rejects_all_iff (ha : a.Inv) (hb : b.Inv) :
    (∀ handle object, (handle, object) ∈ a.issued → ¬ b.store.Accepts handle)
      ↔ ∀ type, a.NoneIssued type ∨ b.NoneIssued type := by
  constructor
  · intro hrejects type
    by_cases hnone : a.NoneIssued type
    · exact .inl hnone
    · -- The first handle of the type is one that `b` must not have.
      rw [ha.noneIssued_iff] at hnone
      have hhas : a.store.has ⟨type, 0⟩ := Store.has_iff_lt_count.2 (Nat.pos_of_ne_zero hnone)
      obtain ⟨object, hissued⟩ := (ha.has_iff _).1 hhas
      exact .inr (hb.noneIssued_iff.2 (Nat.le_zero.1 (not_accepts_iff.1 (hrejects _ object hissued))))
  · rintro hnone ⟨type, i⟩ object hissued
    rcases hnone type with h | h
    · exact absurd hissued (h i object)
    · rw [not_accepts_iff, hb.noneIssued_iff.1 h]
      exact Nat.zero_le i

end Ledger

/-- A store rejects a handle that another one has issued exactly where it has issued no more handles of the
type than the other one before that. -/
theorem handle_rejected_iff {a b : Ledger} (ha : a.Reachable) (hb : b.Reachable) {handle : Stored}
    {object : StoredObject} {since before : List (Stored × StoredObject)}
    (hissued : a.issued = since ++ (handle, object) :: before) :
    ¬ b.store.Accepts handle ↔ Ledger.countOf handle.type b.issued ≤ Ledger.countOf handle.type before := by
  have hpositioned := ha.inv.positioned
  rw [hissued] at hpositioned
  rw [Ledger.not_accepts_iff, hb.inv.count, hpositioned.index_eq]

/-- A store honours the handles that it issues for the rest of its life.  It takes none that another one
issued for its own, and the other one none of its own, exactly where for each type of handles one of the
two has issued none. -/
theorem handles_honoured_by_issuer_iff {a b : Ledger} (ha : a.Reachable) (hb : b.Reachable) :
    ((∀ handle object, (handle, object) ∈ a.issued →
        a.Honours handle object ∧ ¬ b.store.Accepts handle)
      ∧ ∀ handle object, (handle, object) ∈ b.issued →
        b.Honours handle object ∧ ¬ a.store.Accepts handle)
      ↔ ∀ type, a.NoneIssued type ∨ b.NoneIssued type := by
  have hab := Ledger.rejects_all_iff ha.inv hb.inv
  have hba := Ledger.rejects_all_iff hb.inv ha.inv
  constructor
  · rintro ⟨h, -⟩
    exact hab.1 fun handle object hissued => (h handle object hissued).2
  · intro hnone
    refine ⟨fun handle object hissued => ⟨ha.inv.honours hissued, ?_⟩,
      fun handle object hissued => ⟨hb.inv.honours hissued, ?_⟩⟩
    · exact hab.2 hnone handle object hissued
    · exact hba.2 (fun type => (hnone type).symm) handle object hissued

section Example

/-- A store after an instantiation of a module whose function has the given name, and the look-up of its
exports. -/
def exportOps (address : ℕ) (name : String) : List StoreOp :=
  let module : Module :=
    { moduleOf (exportingModule [name]) calleeOffsets with
      code := ⟨0x8000, 3, [], []⟩
      functionInfo := [⟨⟨0, 1⟩, some ⟨1, 2⟩, 0⟩] }
  let alloc := { vmctxAllocator with allocateVmctx := fun _ _ => pure address }
  [.instantiate true 0x7000 Linker.new alloc ⟨[]⟩ module, .exports 0]

/-- The handle of the one store's function is that of the other's. -/
theorem not_handles_honoured_by_issuer :
    ∃ a b : Ledger, a.Reachable ∧ b.Reachable ∧ ∃ func func',
      (⟨.function, 0⟩, .function func) ∈ a.issued ∧ b.store.has ⟨.function, 0⟩
      ∧ b.store.get ⟨.function, 0⟩ = some (.function func') ∧ func' ≠ func
      ∧ (∃ instance_, (⟨.instance_, 0⟩, .instance_ instance_) ∈ a.issued)
      ∧ b.store.comesFromSameStore ⟨.instance_, 0⟩ = some true := by
  refine ⟨_, _, ⟨exportOps 0x3000 "f", rfl⟩, ⟨exportOps 0x6000 "g", rfl⟩,
    ⟨⟨0x8001, 0x8000, 0x3000, 5⟩⟩, ⟨⟨0x8001, 0x8000, 0x6000, 5⟩⟩, ?_, rfl, rfl, by decide, ?_, rfl⟩
  · exact List.mem_cons_self
  · exact ⟨_, List.mem_cons_of_mem _ List.mem_cons_self⟩

/-- A store that has issued nothing yet rejects the handles of the other. -/
theorem handles_honoured_by_issuer_fresh :
    ∃ a : Ledger, a.Reachable ∧ a.issued.length = 2
      ∧ ∀ handle object, (handle, object) ∈ a.issued →
        a.Honours handle object ∧ ¬ ({} : Store).Accepts handle := by
  obtain ⟨a, hrun, hlength⟩ : ∃ a, ({} : Ledger).run (exportOps 0x3000 "f") = .ok a
      ∧ a.issued.length = 2 := ⟨_, rfl, rfl⟩
  refine ⟨a, ⟨_, hrun⟩, hlength, ?_⟩
  exact ((handles_honoured_by_issuer_iff ⟨_, hrun⟩ ⟨[], rfl⟩).2
    fun _ => .inr fun _ _ h => by cases h).1

end Example

end K23VM
