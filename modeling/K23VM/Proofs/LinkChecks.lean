import K23VM.Proofs.Imports
import K23VM.Proofs.References

/-!
# What the linker checks

The linker looks at the kinds of the definitions it finds and not at their types, and stops where a
kind does not match.  So it makes sure that the imports are compatible exactly where they are anyway,
or where an import without any definition comes first, `importsChecked_iff`, `typeChecked_iff`.
-/

namespace K23VM

/-! ## Compatible definitions -/

section Canonical

variable {α : Type} [TypeReferences α]

/-- The canonical index of a type of a module. -/
def canonicalIndex (types : RuntimeTypeCollection) : CanonicalizedTypeIndex → Option ℕ
  | .shared index => some index
  | .module index => types.types[index]?
  | .recGroup _ => none

/-- `c` is the type `a` of a module with the canonical indices of the types it refers to. -/
def Canonicalized (types : RuntimeTypeCollection) (a c : α) : Prop :=
  Replaced (fun r r' => ∃ index, canonicalIndex types r = some index ∧ r' = .shared index) a c

/-- The types of two modules are the same. -/
def SameType (types types' : RuntimeTypeCollection) (a b : α) : Prop :=
  ∃ c, Canonicalized types a c ∧ Canonicalized types' b c

end Canonical

/-- Limits are at least the declared minimum, and within the declared maximum where there is one. -/
def LimitsWithin (minimum : ℕ) (maximum : Option ℕ) (declaredMinimum : ℕ)
    (declaredMaximum : Option ℕ) : Prop :=
  declaredMinimum ≤ minimum
    ∧ ∀ declared ∈ declaredMaximum, ∃ actual ∈ maximum, actual ≤ declared

/-- The types of the module whose instance has the given vmctx. -/
def Store.typesOf (store : Store) (vmctx : ℕ) : RuntimeTypeCollection :=
  match (store.vmctx2instance.lookup vmctx).bind (store.instances[·]?) with
  | some instance_ => instance_.module.typeCollection
  | none => ⟨[], []⟩

namespace Linker

variable (linker : Linker) (store : Store)

/-- There is a definition for the import, of its kind and of a type compatible with the declared one. -/
def Compatible (module : Module) (i : Import) : Prop :=
  match linker.get i.module i.name, i.ty with
  | some (.func handle), .function ty => ∃ e, store.exportedFuncs[handle]? = some e
      ∧ canonicalIndex module.typeCollection ty = some e.funcRef.typeIndex
  | some (.table handle), .table desc => ∃ e, store.exportedTables[handle]? = some e
      ∧ SameType (store.typesOf e.vmctx) module.typeCollection e.table.elementType desc.elementType
      ∧ LimitsWithin e.table.minimum e.table.maximum desc.minimum desc.maximum
  | some (.memory handle), .memory desc => ∃ e, store.exportedMemories[handle]? = some e
      ∧ e.memory.memory64 = desc.memory64 ∧ e.memory.pageSizeLog2 = desc.pageSizeLog2
      ∧ LimitsWithin e.memory.minimum e.memory.maximum desc.minimum desc.maximum
  | some (.global handle), .global desc => ∃ e, store.exportedGlobals[handle]? = some e
      ∧ e.ty.mutable = desc.mutable
      ∧ SameType (store.typesOf e.vmctx) module.typeCollection e.ty.contentType desc.contentType
  | _, _ => False

/-- There is a definition for the import, of its kind. -/
def Resolves (i : Import) : Prop :=
  match linker.get i.module i.name, i.ty with
  | some (.func handle), .function _ => handle < store.exportedFuncs.length
  | some (.table handle), .table _ => handle < store.exportedTables.length
  | some (.memory handle), .memory _ => handle < store.exportedMemories.length
  | some (.global handle), .global _ => handle < store.exportedGlobals.length
  | _, _ => False

variable {linker store} {module : Module} {i : Import}

theorem Compatible.resolves (h : linker.Compatible store module i) : linker.Resolves store i := by
  unfold Compatible at h
  unfold Resolves
  split at h
  · obtain ⟨e, he, -⟩ := h
    exact (List.getElem?_eq_some_iff.1 he).1
  · obtain ⟨e, he, -⟩ := h
    exact (List.getElem?_eq_some_iff.1 he).1
  · obtain ⟨e, he, -⟩ := h
    exact (List.getElem?_eq_some_iff.1 he).1
  · obtain ⟨e, he, -⟩ := h
    exact (List.getElem?_eq_some_iff.1 he).1
  · cases h

/-! ## What resolving does -/

theorem resolveImport_of_resolves (h : linker.Resolves store i) (imports : Imports) :
    ∃ imports', linker.resolveImport store imports i
      = (.ok (.ok imports') : Except Fault (Except Error _)) := by
  unfold Resolves at h
  unfold resolveImport
  split at h
  all_goals first | cases h | skip
  all_goals
    next hget hty =>
    rw [hget, hty]
    simp only [fallible_okOr_some_bind, Store.asVmfunctionImport, Store.asVmtableImport,
      Store.asVmmemoryImport, Store.asVmglobalImport, index_eq_ok.2 (List.getElem?_eq_getElem h)]
    exact ⟨_, rfl⟩

theorem resolveImport_of_missing (h : linker.get i.module i.name = none) (imports : Imports) :
    linker.resolveImport store imports i
      = (.ok (.error (.missingImport i.module i.name i.ty)) : Except Fault (Except Error _)) := by
  unfold resolveImport
  rw [h]
  rfl

/-- A definition of another kind, or one that the store does not have, is not an error. -/
theorem resolveImport_of_not_resolves {d : Extern} (hget : linker.get i.module i.name = some d)
    (h : ¬ linker.Resolves store i) :
    ∃ e, ∀ imports, linker.resolveImport store imports i
      = (.error e : Except Fault (Except Error _)) := by
  unfold Resolves at h
  unfold resolveImport
  rw [hget] at h ⊢
  rcases hty : i.ty with ty | ty | ty | ty <;> cases d <;> simp only [hty] at h <;>
    first
    | exact ⟨_, fun _ => rfl⟩
    | simp only [fallible_okOr_some_bind, Store.asVmfunctionImport, Store.asVmtableImport,
        Store.asVmmemoryImport, Store.asVmglobalImport, Store.index,
        List.getElem?_eq_none (Nat.le_of_not_lt h), unwrap_none]
      exact ⟨_, fun _ => rfl⟩

theorem foldlM_of_resolves : ∀ {is : List Import} (imports : Imports),
    (∀ i ∈ is, linker.Resolves store i) → ∃ imports', is.foldlM (linker.resolveImport store) imports
      = (.ok (.ok imports') : Except Fault (Except Error _))
  | [], imports, _ => ⟨imports, rfl⟩
  | i :: is, imports, h => by
    obtain ⟨imports₁, h₁⟩ := resolveImport_of_resolves (h i List.mem_cons_self) imports
    obtain ⟨imports₂, h₂⟩ := foldlM_of_resolves imports₁ fun j hj => h j (List.mem_cons_of_mem _ hj)
    refine ⟨imports₂, ?_⟩
    rw [List.foldlM_cons]
    exact fallible_bind_eq_ok.2 ⟨imports₁, h₁, h₂⟩

/-- Resolving stops at the first import that does not resolve, as it does for this import alone. -/
theorem foldlM_of_first {pre post : List Import} (hpre : ∀ j ∈ pre, linker.Resolves store j)
    {r : Except Fault (Except Error Imports)} (hr : ∀ imports, r ≠ .ok (.ok imports))
    (h : ∀ imports, linker.resolveImport store imports i = r) (imports : Imports) :
    (pre ++ i :: post).foldlM (linker.resolveImport store) imports = r := by
  obtain ⟨imports₁, h₁⟩ := foldlM_of_resolves imports hpre
  rw [List.foldlM_append, fallible_ok_bind_of_eq h₁, List.foldlM_cons]
  have hi := h imports₁
  rcases r with e | e | imports₂
  · rw [hi]
    rfl
  · rw [hi]
    rfl
  · exact absurd rfl (hr imports₂)

/-! ## Unique definitions -/

theorem FunctionDefinition.unique {x y : VMFunctionImport} (hx : linker.FunctionDefinition store i x)
    (hy : linker.FunctionDefinition store i y) : x = y := by
  obtain ⟨handle, e, hget, he, rfl⟩ := hx
  obtain ⟨handle', e', hget', he', rfl⟩ := hy
  obtain rfl := Extern.func.inj (Option.some_inj.1 (hget.symm.trans hget'))
  obtain rfl := Option.some_inj.1 (he.symm.trans he')
  rfl

theorem TableDefinition.unique {x y : VMTableImport} (hx : linker.TableDefinition store i x)
    (hy : linker.TableDefinition store i y) : x = y := by
  obtain ⟨handle, e, hget, he, rfl⟩ := hx
  obtain ⟨handle', e', hget', he', rfl⟩ := hy
  obtain rfl := Extern.table.inj (Option.some_inj.1 (hget.symm.trans hget'))
  obtain rfl := Option.some_inj.1 (he.symm.trans he')
  rfl

theorem MemoryDefinition.unique {x y : VMMemoryImport} (hx : linker.MemoryDefinition store i x)
    (hy : linker.MemoryDefinition store i y) : x = y := by
  obtain ⟨handle, e, hget, he, rfl⟩ := hx
  obtain ⟨handle', e', hget', he', rfl⟩ := hy
  obtain rfl := Extern.memory.inj (Option.some_inj.1 (hget.symm.trans hget'))
  obtain rfl := Option.some_inj.1 (he.symm.trans he')
  rfl

theorem GlobalDefinition.unique {x y : VMGlobalImport} (hx : linker.GlobalDefinition store i x)
    (hy : linker.GlobalDefinition store i y) : x = y := by
  obtain ⟨handle, e, hget, he, rfl⟩ := hx
  obtain ⟨handle', e', hget', he', rfl⟩ := hy
  obtain rfl := Extern.global.inj (Option.some_inj.1 (hget.symm.trans hget'))
  obtain rfl := Option.some_inj.1 (he.symm.trans he')
  rfl

/-- There is one list of definitions of each kind. -/
theorem Pushed.unique {is : List Import} {x y : Imports} (hx : Pushed linker store is x)
    (hy : Pushed linker store is y) : x = y := by
  have hfunctions := List.right_unique_forall₂' (R := linker.FunctionDefinition store)
    (fun _ _ _ h h' => h.unique h') hx.functions hy.functions
  have htables := List.right_unique_forall₂' (R := linker.TableDefinition store)
    (fun _ _ _ h h' => h.unique h') hx.tables hy.tables
  have hmemories := List.right_unique_forall₂' (R := linker.MemoryDefinition store)
    (fun _ _ _ h h' => h.unique h') hx.memories hy.memories
  have hglobals := List.right_unique_forall₂' (R := linker.GlobalDefinition store)
    (fun _ _ _ h h' => h.unique h') hx.globals hy.globals
  cases x
  cases y
  simp only [Imports.mk.injEq]
  exact ⟨hfunctions, htables, hmemories, hglobals⟩

/-! ## Checked imports -/

section Checked

variable (debug : Bool) (builtinFunctions : ℕ) (linker : Linker) (store : Store)
  (alloc : InstanceAllocator) (ev : ConstExprEvaluator) (module : Module)

/-- The loop over the imports makes sure that all are compatible, gives an error where they are not, and
never panics. -/
structure ImportsChecked : Prop where
  reaches : ∀ imports,
    linker.resolveImports store module = (.ok (.ok imports) : Except Fault (Except Error _)) →
    ∀ i ∈ module.translated.imports, linker.Compatible store module i
  rejects : (¬ ∀ i ∈ module.translated.imports, linker.Compatible store module i) →
    ∃ e, linker.resolveImports store module = (.ok (.error e) : Except Fault (Except Error _))
  noPanic : NoPanic (linker.resolveImports store module)

/-- Instantiation makes sure that all imports are compatible before it makes an instance, returns an
error where they are not, and never panics. -/
structure TypeChecked : Prop where
  reaches : ∀ imports,
    linker.resolveImports store module = (.ok (.ok imports) : Except Fault (Except Error _)) →
    ∀ i ∈ module.translated.imports, linker.Compatible store module i
  rejects : (¬ ∀ i ∈ module.translated.imports, linker.Compatible store module i) →
    ∃ e, linker.instantiate debug builtinFunctions store alloc ev module
      = (.ok (.error e) : Except Fault (Except Error _))
  noPanic : NoPanic (linker.instantiate debug builtinFunctions store alloc ev module)

/-- The first import without a definition of its kind has no definition at all. -/
def MissingFirst : Prop :=
  ∃ pre i post, module.translated.imports = pre ++ i :: post
    ∧ (∀ j ∈ pre, linker.Resolves store j) ∧ linker.get i.module i.name = none

/-- All imports are compatible, and making an instance with their definitions does not panic; or the
first import without a definition of its kind has none at all. -/
def Linkable : Prop :=
  ((∀ i ∈ module.translated.imports, linker.Compatible store module i)
      ∧ ∀ imports, Pushed linker store module.translated.imports imports →
        NoPanic (Instance.newUnchecked debug builtinFunctions alloc ev module imports))
    ∨ MissingFirst linker store module

end Checked

section Iff

variable {debug : Bool} {builtinFunctions : ℕ} {alloc : InstanceAllocator} {ev : ConstExprEvaluator}

theorem resolveImports_of_missing (h : MissingFirst linker store module) :
    ∃ e, linker.resolveImports store module = (.ok (.error e) : Except Fault (Except Error _)) := by
  obtain ⟨pre, i, post, heq, hpre, hget⟩ := h
  refine ⟨.missingImport i.module i.name i.ty, ?_⟩
  unfold resolveImports
  rw [heq]
  exact foldlM_of_first hpre (fun _ hr => by cases hr) (resolveImport_of_missing hget) {}

/-- The loop checks the imports exactly where they are compatible anyway, or one is missing. -/
theorem importsChecked_iff : ImportsChecked linker store module ↔
    (∀ i ∈ module.translated.imports, linker.Compatible store module i)
      ∨ MissingFirst linker store module := by
  constructor
  · intro h
    rcases forall_or_first (linker.Resolves store) module.translated.imports with
      hall | ⟨pre, i, post, heq, hpre, hi⟩
    · obtain ⟨imports, himports⟩ := foldlM_of_resolves {} hall
      exact .inl (h.reaches imports himports)
    · rcases hget : linker.get i.module i.name with _ | d
      · exact .inr ⟨pre, i, post, heq, hpre, hget⟩
      · -- The linker panics at the first import whose definition is of another kind or gone.
        obtain ⟨e, he⟩ := resolveImport_of_not_resolves hget hi
        obtain ⟨r, hr⟩ := h.noPanic
        unfold resolveImports at hr
        rw [heq, foldlM_of_first hpre (fun _ hr => by cases hr) he {}] at hr
        cases hr
  · rintro (hall | hmissing)
    · obtain ⟨imports, himports⟩ := foldlM_of_resolves {} fun i hi => (hall i hi).resolves
      exact ⟨fun _ _ => hall, fun h => absurd hall h, ⟨_, himports⟩⟩
    · obtain ⟨e, he⟩ := resolveImports_of_missing hmissing
      refine ⟨fun imports himports => ?_, fun _ => ⟨e, he⟩, ⟨_, he⟩⟩
      rw [he] at himports
      cases himports

/-- Instantiation checks what the loop checks, and panics where the loop or making the instance does. -/
theorem typeChecked_iff_importsChecked :
    TypeChecked debug builtinFunctions linker store alloc ev module ↔
      ImportsChecked linker store module ∧ ∀ imports,
        linker.resolveImports store module = (.ok (.ok imports) : Except Fault (Except Error _)) →
        NoPanic (Instance.newUnchecked debug builtinFunctions alloc ev module imports) := by
  have hrun : ∀ imports,
      linker.resolveImports store module = (.ok (.ok imports) : Except Fault (Except Error _)) →
      (NoPanic (linker.instantiate debug builtinFunctions store alloc ev module)
        ↔ NoPanic (Instance.newUnchecked debug builtinFunctions alloc ev module imports)) := by
    intro imports h
    unfold instantiate
    rw [fallible_ok_bind_of_eq h]
    constructor
    · rintro ⟨r, hr⟩
      rcases hnew : Instance.newUnchecked debug builtinFunctions alloc ev module imports with e | r'
      · rw [hnew] at hr
        cases hr
      · exact ⟨r', rfl⟩
    · exact fun hnew => noPanic_bind hnew fun a _ => ⟨.ok _, rfl⟩
  have hstop : ∀ e : Error,
      linker.resolveImports store module = (.ok (.error e) : Except Fault (Except Error _)) →
      linker.instantiate debug builtinFunctions store alloc ev module
        = (.ok (.error e) : Except Fault (Except Error _)) := by
    intro e h
    unfold instantiate
    rw [h]
    rfl
  constructor
  · intro h
    rcases hloop : linker.resolveImports store module with e | e | imports
    · obtain ⟨r, hr⟩ := h.noPanic
      unfold instantiate at hr
      rw [hloop] at hr
      cases hr
    · refine ⟨⟨fun _ h => ?_, fun _ => ⟨e, hloop⟩, ⟨_, hloop⟩⟩, fun _ h => ?_⟩
      · cases hloop.symm.trans h
      · cases h
    · refine ⟨⟨h.reaches, fun hnot => absurd (h.reaches imports hloop) hnot, ⟨_, hloop⟩⟩, ?_⟩
      intro imports' himports
      obtain rfl := Except.ok.inj (Except.ok.inj himports)
      exact (hrun imports hloop).1 h.noPanic
  · rintro ⟨h, hnew⟩
    refine ⟨h.reaches, fun hnot => ?_, ?_⟩
    · obtain ⟨e, he⟩ := h.rejects hnot
      exact ⟨e, hstop e he⟩
    · obtain ⟨e | imports, hloop⟩ := h.noPanic
      · exact ⟨_, hstop e hloop⟩
      · exact (hrun imports hloop).2 (hnew imports hloop)

/-- Instantiation checks the imports exactly where they are compatible anyway, or one is missing. -/
theorem typeChecked_iff :
    TypeChecked debug builtinFunctions linker store alloc ev module
      ↔ Linkable debug builtinFunctions linker store alloc ev module := by
  rw [typeChecked_iff_importsChecked, importsChecked_iff]
  constructor
  · rintro ⟨hall | hmissing, hnew⟩
    · obtain ⟨imports, himports⟩ := foldlM_of_resolves {} fun i hi => (hall i hi).resolves
      refine .inl ⟨hall, fun imports' hp => ?_⟩
      obtain rfl := hp.unique (resolveImports_pushes himports)
      exact hnew _ himports
    · exact .inr hmissing
  · rintro (⟨hall, hnew⟩ | hmissing)
    · exact ⟨.inl hall, fun imports himports => hnew imports (resolveImports_pushes himports)⟩
    · obtain ⟨e, he⟩ := resolveImports_of_missing hmissing
      refine ⟨.inr hmissing, fun imports himports => ?_⟩
      rw [he] at himports
      cases himports

end Iff

end Linker

section Example

open ModuleTranslator (permissiveValidator)

/-- An allocator for modules without tables and memories. -/
def vmctxAllocator : InstanceAllocator where
  allocateVmctx _ _ := pure 0x6000
  allocateMemory _ _ _ := throw .mmapFailed
  allocateTable _ _ _ := throw .mmapFailed

/-- A store whose function has another type than the import. -/
def mistypedStore : Store :=
  { importingStore with exportedFuncs := [⟨⟨0x1000, 0x2000, 0x3000, 6⟩⟩] }

/-- The function of another type becomes the import, and a global in its place makes the linker
panic. -/
theorem not_typeChecked_mistyped :
    ∃ t types off, ModuleTranslator.translate permissiveValidator true () (importingBinary.map .ok)
        = .ok (.ok (t, types), ())
      ∧ VMOffsets.forModule 8 t.module = .ok off
      ∧ ¬ Linker.TypeChecked true 0x7000 importingLinker mistypedStore vmctxAllocator ⟨[]⟩
        (moduleOf t.module off)
      ∧ ¬ NoPanic (Linker.instantiate true 0x7000
        { importingLinker with map := importingLinker.map.map fun (key, _) => (key, .global 0) }
        mistypedStore vmctxAllocator ⟨[]⟩ (moduleOf t.module off)) := by
  refine ⟨_, _, _, rfl, rfl, fun h => ?_, ?_⟩
  · have hf := h.reaches _ rfl ⟨"env", "f", .function (.module 0)⟩ (by decide)
    obtain ⟨e, he, hty⟩ := hf
    obtain rfl := Option.some_inj.1 he
    exact absurd hty (by decide)
  · rintro ⟨r, hr⟩
    cases hr

end Example

end K23VM
