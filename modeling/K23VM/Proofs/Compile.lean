import K23VM.Compile.Link
import K23VM.Lib.MapM
import Mathlib.Tactic

/-!
# The outputs of a compilation

Every output has a key of its own, `nodup_outputs`, the index finds it by its key,
`lookupKey_fileOutputs`, and there is a trampoline for each builtin that the compiled code refers to.
The assumptions on the code generator are in `CompilerOk`.
-/

namespace K23VM.Compile

variable {ε : Type}

/-! ## Assumptions on the code generator -/

/-- A function that the code generator made: its relocations are to functions it declared, defined
wasm functions and builtins, and its traps are known and in order. -/
structure WellCompiled (m : ModuleFunctions) (numDefined : ℕ) (builtins : List String)
    (f : CompiledFunction) : Prop where
  relocs : ∀ r ∈ f.relocs, ∃ ref name, r.target = .user ref ∧ f.nameMap[ref]? = some name
    ∧ (name.namespace_ = NS_WASM_FUNC ∧ m.numImportedFunctions ≤ name.index
        ∧ name.index < m.numImportedFunctions + numDefined
      ∨ name.namespace_ = NS_BUILTIN ∧ name.index < builtins.length)
  traps : ∀ t ∈ f.machTraps, (Trap.fromTrapCode t.code).isSome ∧ t.offset ≤ f.buffer.length
  sorted : f.machTraps.Pairwise fun t u => t.offset ≤ u.offset
  relocs_in : ∀ r ∈ f.relocs, r.offset ≤ f.buffer.length

/-- The compiler makes such functions, and a builtin trampoline declares no function. -/
structure CompilerOk (compiler : Compiler ε) (m : ModuleFunctions) (numDefined : ℕ)
    (builtins : List String) : Prop where
  function : ∀ i f, compiler.compileFunction i = .ok f → WellCompiled m numDefined builtins f
  trampoline : ∀ i f, compiler.compileArrayToWasmTrampoline i = .ok f →
    WellCompiled m numDefined builtins f
  builtin : ∀ i f, compiler.compileWasmToBuiltin i = .ok f →
    WellCompiled m numDefined builtins f ∧ f.nameMap = []

/-! ## Inputs -/

def CompileInput.key : CompileInput → CompileKey
  | .function i => .wasmFunction i
  | .arrayToWasmTrampoline i => .arrayToWasmTrampoline i
  | .builtin i => .wasmToBuiltinTrampoline i

def CompileInput.index : CompileInput → ℕ
  | .function i | .arrayToWasmTrampoline i | .builtin i => i

theorem CompileInput.key_injective : Function.Injective CompileInput.key := by
  intro x y h
  cases x <;> cases y <;> first
    | exact congrArg _ (CompileKey.mk.inj h).2
    | exact absurd (CompileKey.mk.inj h).1 (by decide)

theorem fromModule_ok {m : ModuleFunctions} : ∀ {n i : ℕ},
    m.numImportedFunctions + (i + n) ≤ m.escaping.length →
    ∃ inputs, fromModule m i n = .ok inputs ∧ inputs.Nodup
      ∧ (∀ x ∈ inputs, i ≤ x.index ∧ ∀ j, x ≠ .builtin j)
      ∧ ∀ j, i ≤ j → j < i + n → .function j ∈ inputs
  | 0, i, _ => ⟨[], rfl, List.nodup_nil, by simp, fun j h h' => by omega⟩
  | n + 1, i, hle => by
    obtain ⟨inputs, hrun, hnd, hidx, hmem⟩ := fromModule_ok (m := m) (n := n) (i := i + 1) (by omega)
    have hlt : m.funcIndex i < m.escaping.length := by
      rw [ModuleFunctions.funcIndex]
      omega
    have hnot : ∀ x : CompileInput, x.index = i → x ∉ inputs := fun x hx hm => by
      have := (hidx x hm).1
      omega
    refine ⟨.function i :: if m.escaping[m.funcIndex i] then .arrayToWasmTrampoline i :: inputs
      else inputs, ?_, ?_, ?_, ?_⟩
    · rw [fromModule, List.getElem?_eq_getElem hlt, unwrap_some, hrun]
      rfl
    · split_ifs
      · refine List.nodup_cons.2 ⟨?_, List.nodup_cons.2 ⟨hnot _ rfl, hnd⟩⟩
        intro hm
        rcases List.mem_cons.1 hm with h | h
        · cases h
        · exact hnot _ rfl h
      · exact List.nodup_cons.2 ⟨hnot _ rfl, hnd⟩
    · intro x hx
      have hold : x ∈ inputs → i ≤ x.index ∧ ∀ j, x ≠ .builtin j := fun h =>
        ⟨(Nat.le_succ i).trans (hidx x h).1, (hidx x h).2⟩
      rcases List.mem_cons.1 hx with rfl | hx
      · exact ⟨le_rfl, fun j h => by cases h⟩
      · split_ifs at hx
        · rcases List.mem_cons.1 hx with rfl | hx
          · exact ⟨le_rfl, fun j h => by cases h⟩
          · exact hold hx
        · exact hold hx
    · intro j hj hj'
      rcases Nat.eq_or_lt_of_le hj with rfl | hlt'
      · exact List.mem_cons_self
      · refine List.mem_cons_of_mem _ ?_
        have := hmem j hlt' (by omega)
        split_ifs
        · exact List.mem_cons_of_mem _ this
        · exact this

/-! ## Builtins -/

theorem requiredBuiltins_spec : ∀ (relocs : List Relocation) {seen : List ℕ}, seen.Nodup →
    (requiredBuiltins seen relocs).Nodup
      ∧ ∀ i, i ∈ requiredBuiltins seen relocs ↔ i ∈ seen ∨ ∃ r ∈ relocs, r.target = .builtin i
  | [], seen, hnd => ⟨hnd, by simp [requiredBuiltins]⟩
  | r :: relocs, seen, hnd => by
    rcases ht : r.target with i | i
    · obtain ⟨hnd', hmem⟩ := requiredBuiltins_spec relocs hnd
      simp only [requiredBuiltins, ht]
      refine ⟨hnd', fun j => ?_⟩
      rw [hmem]
      simp [ht]
    · have hnd₁ : (if i ∈ seen then seen else seen ++ [i]).Nodup := by
        split_ifs with hi
        · exact hnd
        · exact List.nodup_append.2 ⟨hnd, List.nodup_singleton i, by
            rintro a ha b hb rfl
            exact hi (List.mem_singleton.1 hb ▸ ha)⟩
      obtain ⟨hnd', hmem⟩ := requiredBuiltins_spec relocs hnd₁
      simp only [requiredBuiltins, ht]
      refine ⟨hnd', fun j => ?_⟩
      rw [hmem]
      split_ifs with hi
      · simp only [List.mem_cons, exists_eq_or_imp, ht, RelocationTarget.builtin.injEq]
        constructor
        · rintro (h | h)
          · exact .inl h
          · exact .inr (.inr h)
        · rintro (h | rfl | h)
          · exact .inl h
          · exact .inl hi
          · exact .inr h
      · simp only [List.mem_append, List.mem_cons, List.not_mem_nil, or_false, exists_eq_or_imp, ht,
          RelocationTarget.builtin.injEq, or_assoc, @eq_comm _ i j]

section Outputs

variable {m : ModuleFunctions} {numDefined : ℕ} {builtins : List String} {compiler : Compiler ε}

/-- A relocation to a defined function or a builtin. -/
def GoodTarget (m : ModuleFunctions) (numDefined : ℕ) (builtins : List String) :
    RelocationTarget → Prop
  | .wasm i => m.numImportedFunctions ≤ i ∧ i < m.numImportedFunctions + numDefined
  | .builtin i => i < builtins.length

/-- The relocation that a machine relocation turns into, apart from its target. -/
def SameReloc (x : FinalizedMachReloc) (r : Relocation) : Prop :=
  r.kind = x.kind ∧ r.addend = x.addend ∧ r.offset = x.offset

theorem WellCompiled.relocations_ok {f : CompiledFunction} (h : WellCompiled m numDefined builtins f) :
    ∃ relocs, f.relocations = .ok relocs ∧ relocs.length = f.relocs.length
      ∧ ∀ r ∈ relocs, GoodTarget m numDefined builtins r.target ∧ ∃ x ∈ f.relocs, SameReloc x r := by
  have hone : ∀ x ∈ f.relocs, ∃ r, Relocation.fromMachReloc f.nameMap x = .ok r
      ∧ GoodTarget m numDefined builtins r.target ∧ SameReloc x r := by
    intro x hx
    obtain ⟨ref, name, ht, hn, ⟨hns, hi⟩ | ⟨hns, hi⟩⟩ := h.relocs x hx
    · refine ⟨⟨x.kind, .wasm name.index, x.addend, x.offset⟩, ?_, hi, rfl, rfl, rfl⟩
      simp only [Relocation.fromMachReloc, ht, hn, unwrap_some, bind, Except.bind, if_pos hns]
      rfl
    · have hns' : ¬ name.namespace_ = NS_WASM_FUNC := by rw [hns]; decide
      refine ⟨⟨x.kind, .builtin name.index, x.addend, x.offset⟩, ?_, hi, rfl, rfl, rfl⟩
      simp only [Relocation.fromMachReloc, ht, hn, unwrap_some, bind, Except.bind, if_neg hns',
        if_pos hns]
      rfl
  obtain ⟨relocs, hrun⟩ := exists_mapM_ok fun x hx =>
    (hone x hx).imp fun _ hr => hr.1
  refine ⟨relocs, hrun, mapM_ok_length hrun, fun r hr => ?_⟩
  obtain ⟨x, hx, hxr⟩ := exists_of_mem_mapM hrun hr
  obtain ⟨r', hr', hgood, hsame⟩ := hone x hx
  obtain rfl := Except.ok.inj (hr'.symm.trans hxr)
  exact ⟨hgood, x, hx, hsame⟩

theorem runInput_ok (hc : CompilerOk compiler m numDefined builtins) {x : CompileInput}
    {o : CompileOutput}
    (h : runInput compiler m builtins x = (.ok (.ok o) : Except Fault (Except ε _))) :
    o.key = x.key ∧ WellCompiled m numDefined builtins o.function
      ∧ (∀ i, x = .builtin i → o.function.nameMap = []) := by
  cases x with
  | function i =>
    obtain ⟨f, hf, h⟩ := fallible_bind_eq_ok.1 h
    obtain rfl := Except.ok.inj (Except.ok.inj h)
    exact ⟨rfl, hc.function i f (Except.ok.inj hf), by rintro _ ⟨⟩⟩
  | arrayToWasmTrampoline i =>
    obtain ⟨f, hf, h⟩ := fallible_bind_eq_ok.1 h
    obtain rfl := Except.ok.inj (Except.ok.inj h)
    exact ⟨rfl, hc.trampoline i f (Except.ok.inj hf), by rintro _ ⟨⟩⟩
  | builtin i =>
    obtain ⟨name, -, h⟩ := fallible_bind_eq_ok.1 h
    obtain ⟨f, hf, h⟩ := fallible_bind_eq_ok.1 h
    obtain rfl := Except.ok.inj (Except.ok.inj h)
    obtain ⟨hw, hn⟩ := hc.builtin i f (Except.ok.inj hf)
    exact ⟨rfl, hw, fun _ _ => hn⟩

theorem runInput_noPanic {x : CompileInput} (h : ∀ i, x = .builtin i → i < builtins.length) :
    NoPanic (runInput compiler m builtins x) := by
  cases x with
  | function i =>
    refine noPanic_bind ⟨compiler.compileFunction i, rfl⟩ fun f _ => ⟨.ok _, rfl⟩
  | arrayToWasmTrampoline i =>
    refine noPanic_bind ⟨compiler.compileArrayToWasmTrampoline i, rfl⟩ fun f _ => ⟨.ok _, rfl⟩
  | builtin i =>
    have hi := h i rfl
    have hname : builtinName builtins i = .ok builtins[i] := by
      rw [builtinName, List.getElem?_eq_getElem hi]
      rfl
    refine noPanic_bind ⟨.ok builtins[i], by rw [hname]; rfl⟩ fun name _ => ?_
    exact noPanic_bind ⟨compiler.compileWasmToBuiltin i, rfl⟩ fun f _ => ⟨.ok _, rfl⟩

/-! ## The index of outputs -/

/-- The position filed under a key. -/
def Indices.lookupKey (indices : Indices) (key : CompileKey) : Option ℕ :=
  (indices.get key.kind).bind fun outputs => outputs.get key

theorem lookupKey_insertKey (indices : Indices) (k k' : CompileKey) (n : ℕ) :
    (indices.insertKey k n).lookupKey k' = if k' = k then some n else indices.lookupKey k' := by
  rw [Indices.lookupKey, Indices.insertKey, SortedMap.get_insert]
  by_cases hk : k' = k
  · simp [hk, SortedMap.get_insert]
  · rw [if_neg hk]
    by_cases hkind : k'.kind = k.kind
    · rw [if_pos hkind, Option.bind_some, SortedMap.get_insert, if_neg hk, Indices.lookupKey, hkind]
      cases indices.get k.kind <;> rfl
    · rw [if_neg hkind]
      rfl

theorem lookupKey_fileOutputs : ∀ {outputs : List CompileOutput} {n : ℕ} {indices : Indices}
    {k : CompileKey}, (outputs.map CompileOutput.key).Nodup → ∀ p,
    (fileOutputs n indices outputs).lookupKey k = some p ↔
      (∃ q, p = n + q ∧ (outputs[q]?).map CompileOutput.key = some k)
        ∨ k ∉ outputs.map CompileOutput.key ∧ indices.lookupKey k = some p
  | [], n, indices, k, _, p => by simp [fileOutputs]
  | o :: outputs, n, indices, k, hnd, p => by
    rw [List.map_cons, List.nodup_cons] at hnd
    rw [fileOutputs, lookupKey_fileOutputs hnd.2, lookupKey_insertKey]
    constructor
    · rintro (⟨q, rfl, hq⟩ | ⟨hnot, hp⟩)
      · exact .inl ⟨q + 1, by omega, hq⟩
      · split_ifs at hp with hk
        · exact .inl ⟨0, by simpa using hp.symm, by simp [hk]⟩
        · exact .inr ⟨by simpa [hk] using hnot, hp⟩
    · rintro (⟨q, rfl, hq⟩ | ⟨hnot, hp⟩)
      · cases q with
        | zero =>
          have hk : o.key = k := by simpa using hq
          exact .inr ⟨hk ▸ hnd.1, by rw [if_pos hk.symm]; rfl⟩
        | succ q => exact .inl ⟨q, by omega, hq⟩
      · rw [List.map_cons, List.mem_cons, not_or] at hnot
        exact .inr ⟨hnot.2, by rw [if_neg hnot.1]; exact hp⟩

/-- The output with a key, and no other. -/
def IsTarget (outputs : List CompileOutput) (key : CompileKey) (p : ℕ) : Prop :=
  (outputs[p]?).map CompileOutput.key = some key
    ∧ ∀ q : ℕ, (outputs[q]?).map CompileOutput.key = some key → q = p

theorem isTarget_of_nodup {outputs : List CompileOutput} (hnd : (outputs.map CompileOutput.key).Nodup)
    {key : CompileKey} {p : ℕ} (hp : (outputs[p]?).map CompileOutput.key = some key) :
    IsTarget outputs key p := by
  refine ⟨hp, fun q hq => ?_⟩
  rw [← List.getElem?_map] at hp hq
  obtain ⟨hlt, hqk⟩ := List.getElem?_eq_some_iff.1 hq
  exact (List.getElem?_inj hlt hnd).1 (hq.trans hp.symm)

/-- Every value in the index is the position of an output. -/
theorem fileOutputs_lt : ∀ {outputs : List CompileOutput} {n N : ℕ} {indices : Indices},
    n + outputs.length ≤ N → (∀ K mp, indices.get K = some mp → ∀ k p, mp.get k = some p → p < N) →
    ∀ K mp, (fileOutputs n indices outputs).get K = some mp → ∀ k p, mp.get k = some p → p < N
  | [], _, _, _, _, h => h
  | o :: outputs, n, N, indices, hN, h => by
    rw [List.length_cons] at hN
    rw [fileOutputs]
    refine fileOutputs_lt (by omega) fun K mp hmp k p hp => ?_
    rw [show (indices.insertKey o.key n).get K = _ from SortedMap.get_insert ..] at hmp
    split_ifs at hmp with hK
    · obtain rfl := Option.some_inj.1 hmp
      rw [SortedMap.get_insert] at hp
      split_ifs at hp with hk
      · rw [← Option.some_inj.1 hp]
        omega
      · rcases hget : indices.get o.key.kind with _ | mp'
        · rw [hget] at hp
          cases hp
        · rw [hget] at hp
          exact h _ mp' hget k p hp
    · exact h K mp hmp k p hp

/-! ## What a compilation gives -/

/-- The outputs of a compilation: their keys differ, they are in the index, and every callee that
their relocations can refer to is among them. -/
structure OutputsOk (m : ModuleFunctions) (numDefined : ℕ) (builtins : List String)
    (u : UnlinkedCompileOutputs) : Prop where
  nodup : (u.outputs.map CompileOutput.key).Nodup
  wellCompiled : ∀ o ∈ u.outputs, WellCompiled m numDefined builtins o.function
  functions : ∀ j < numDefined, .wasmFunction j ∈ u.outputs.map CompileOutput.key
  trampolines : ∀ o ∈ u.outputs, ∀ relocs, o.function.relocations = .ok relocs → ∀ r ∈ relocs,
    ∀ i, r.target = .builtin i → .wasmToBuiltinTrampoline i ∈ u.outputs.map CompileOutput.key
  indices : u.indices = fileOutputs 0 .empty u.outputs

theorem WellCompiled.relocations_eq_nil {f : CompiledFunction}
    (h : WellCompiled m numDefined builtins f) (hn : f.nameMap = []) : f.relocs = [] := by
  refine List.eq_nil_iff_forall_not_mem.2 fun r hr => ?_
  obtain ⟨ref, name, -, hname, -⟩ := h.relocs r hr
  rw [hn] at hname
  cases hname

theorem runInput_keys (hc : CompilerOk compiler m numDefined builtins) {inputs : List CompileInput}
    {outputs : List CompileOutput} (h : List.Forall₂ (fun x o =>
      runInput compiler m builtins x = (.ok (.ok o) : Except Fault (Except ε _))) inputs outputs) :
    outputs.map CompileOutput.key = inputs.map CompileInput.key
      ∧ ∀ o ∈ outputs, WellCompiled m numDefined builtins o.function
        ∧ ((∀ x ∈ inputs, ∃ i, x = .builtin i) → o.function.nameMap = []) := by
  induction h with
  | nil => exact ⟨rfl, by simp⟩
  | cons hx _ ih =>
    obtain ⟨hkey, hw, hn⟩ := runInput_ok hc hx
    refine ⟨by rw [List.map_cons, List.map_cons, hkey, ih.1], fun o ho => ?_⟩
    rcases List.mem_cons.1 ho with rfl | ho
    · refine ⟨hw, fun h => ?_⟩
      obtain ⟨i, hi⟩ := h _ List.mem_cons_self
      exact hn i hi
    · exact ⟨(ih.2 o ho).1, fun h => (ih.2 o ho).2 fun x hx => h x (List.mem_cons_of_mem _ hx)⟩

theorem compile_ok (hc : CompilerOk compiler m numDefined builtins) {inputs : List CompileInput}
    (hin : fromModule m 0 numDefined = .ok inputs)
    (hlen : m.numImportedFunctions + numDefined ≤ m.escaping.length) {u : UnlinkedCompileOutputs}
    (h : compile compiler m builtins inputs = (.ok (.ok u) : Except Fault (Except ε _))) :
    OutputsOk m numDefined builtins u := by
  obtain ⟨inputs', hin', hnd, hidx, hmem⟩ :=
    fromModule_ok (m := m) (n := numDefined) (i := 0) (by omega)
  obtain rfl := Except.ok.inj (hin.symm.trans hin')
  obtain ⟨outputs, ho, h⟩ := fallible_bind_eq_ok.1 h
  obtain ⟨all, hall, h⟩ := fallible_bind_eq_ok.1 h
  obtain rfl := Except.ok.inj (Except.ok.inj h)
  obtain ⟨relocs, hr, hall⟩ := fallible_bind_eq_ok.1 hall
  obtain ⟨new, hnew, hall⟩ := fallible_bind_eq_ok.1 hall
  obtain rfl := Except.ok.inj (Except.ok.inj hall)
  have hr := fallible_lift_eq_ok hr
  obtain ⟨hbnd, hbmem⟩ := requiredBuiltins_spec relocs.flatten List.nodup_nil
  obtain ⟨hkeys, hw⟩ := runInput_keys hc (fallible_mapM_eq_ok ho)
  have hnew' : List.Forall₂ (fun x o => runInput compiler m builtins x
      = (.ok (.ok o) : Except Fault (Except ε _)))
      ((requiredBuiltins [] relocs.flatten).map CompileInput.builtin) new :=
    List.forall₂_map_left_iff.2 (fallible_mapM_eq_ok hnew)
  obtain ⟨hkeys', hw'⟩ := runInput_keys hc hnew'
  have hmapAll : (outputs ++ new).map CompileOutput.key
      = (inputs ++ (requiredBuiltins [] relocs.flatten).map CompileInput.builtin).map
        CompileInput.key := by
    rw [List.map_append, List.map_append, hkeys, hkeys']
  refine ⟨?_, fun o ho => ?_, fun j hj => ?_, fun o ho rs hrs r hmr i hi => ?_, rfl⟩
  · rw [hmapAll]
    refine (List.nodup_append.2 ⟨hnd, ?_, ?_⟩).map CompileInput.key_injective
    · exact hbnd.map fun a b h => by cases h; rfl
    · rintro x hx y hy rfl
      obtain ⟨i, -, rfl⟩ := List.mem_map.1 hy
      exact (hidx _ hx).2 i rfl
  · rcases List.mem_append.1 ho with ho | ho
    · exact (hw o ho).1
    · exact (hw' o ho).1
  · rw [hmapAll]
    exact List.mem_map.2 ⟨.function j, List.mem_append_left _ (hmem j (by omega) (by omega)), rfl⟩
  · rw [hmapAll]
    refine List.mem_map.2 ⟨.builtin i, List.mem_append_right _ ?_, rfl⟩
    refine List.mem_map.2 ⟨i, (hbmem i).2 (.inr ⟨r, ?_, hi⟩), rfl⟩
    rcases List.mem_append.1 ho with ho | ho
    · obtain ⟨n, hn⟩ := List.mem_iff_getElem?.1 ho
      obtain ⟨rs', hrs', hrun⟩ := mapM_getElem? hr hn
      obtain rfl := Except.ok.inj (hrs.symm.trans hrun)
      exact List.mem_flatten.2 ⟨rs, List.mem_of_getElem? hrs', hmr⟩
    · obtain ⟨hwc, hnames⟩ := hw' o ho
      have hnil : o.function.relocs = [] := hwc.relocations_eq_nil (hnames fun x hx => by
        obtain ⟨j, -, rfl⟩ := List.mem_map.1 hx
        exact ⟨j, rfl⟩)
      rw [CompiledFunction.relocations, hnil] at hrs
      obtain rfl := Except.ok.inj hrs
      cases hmr

/-- A compilation does not panic. -/
theorem compile_noPanic (hc : CompilerOk compiler m numDefined builtins)
    {inputs : List CompileInput} (hin : ∀ x ∈ inputs, ∀ i, x ≠ .builtin i) :
    NoPanic (compile compiler m builtins inputs) := by
  refine noPanic_bind (noPanic_mapM fun x hx => runInput_noPanic fun i hi => absurd hi (hin x hx i))
    fun outputs ho => ?_
  have hw := (runInput_keys hc (fallible_mapM_eq_ok ho)).2
  refine noPanic_bind ?_ fun all _ => ⟨.ok _, rfl⟩
  obtain ⟨relocs, hr⟩ := exists_mapM_ok fun (o : CompileOutput) (ho : o ∈ outputs) =>
    (hw o ho).1.relocations_ok.imp fun _ h => h.1
  refine noPanic_bind ⟨.ok relocs, by rw [hr]; rfl⟩ fun rs hrs => ?_
  obtain rfl := Except.ok.inj (hr.symm.trans (fallible_lift_eq_ok hrs))
  refine noPanic_bind (noPanic_mapM fun i hi => runInput_noPanic ?_) fun new _ => ⟨.ok _, rfl⟩
  rintro j ⟨⟩
  rcases ((requiredBuiltins_spec _ List.nodup_nil).2 i).1 hi with h | ⟨r, hmr, ht⟩
  · cases h
  · obtain ⟨l, hl, hrl⟩ := List.mem_flatten.1 hmr
    obtain ⟨o, ho, hrun⟩ := exists_of_mem_mapM hr hl
    obtain ⟨l', hl', -, hgood⟩ := (hw o ho).1.relocations_ok
    obtain rfl := Except.ok.inj (hrun.symm.trans hl')
    have := (hgood r hrl).1
    rwa [ht] at this

end Outputs

end K23VM.Compile
