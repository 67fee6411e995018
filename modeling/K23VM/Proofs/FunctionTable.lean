import K23VM.Proofs.TextRun
import Mathlib.Data.List.Sort

/-!
# The table of compiled functions

The index files each output under the kind of its key, and lists the functions in the order of their
indices, `functionEntries_eq`.  So the table that linking returns has an entry for each defined function,
with the location of its own code, and the location of its own trampoline exactly where the function
escapes, `linkAndFinish_funcs`.
-/

namespace K23VM.Compile

variable {ε σ : Type} {compiler : Compiler ε} {m : ModuleFunctions} {builtins : List String}

/-! ## Jobs -/

/-- The jobs are those for the functions, and for the trampolines of the ones that escape. -/
theorem mem_fromModule : ∀ {n i : ℕ} {inputs : List CompileInput},
    fromModule m i n = .ok inputs → ∀ x, x ∈ inputs ↔
      ∃ j, i ≤ j ∧ j < i + n ∧ (x = .function j
        ∨ x = .arrayToWasmTrampoline j ∧ m.escaping[m.funcIndex j]? = some true)
  | 0, i, inputs, h, x => by
    obtain rfl := Except.ok.inj h
    simp only [List.not_mem_nil, false_iff]
    rintro ⟨j, h₁, h₂, -⟩
    omega
  | n + 1, i, inputs, h, x => by
    unfold fromModule at h
    obtain ⟨escaping, hesc, h⟩ := bind_eq_ok.1 h
    obtain ⟨rest, hrest, h⟩ := bind_eq_ok.1 h
    obtain rfl := Except.ok.inj h
    rw [unwrap_eq_ok] at hesc
    have hmem := mem_fromModule hrest x
    have htail : x ∈ (if escaping then .arrayToWasmTrampoline i :: rest else rest) ↔
        (x = .arrayToWasmTrampoline i ∧ escaping = true) ∨ x ∈ rest := by
      cases escaping <;> simp
    rw [List.mem_cons, htail, hmem]
    constructor
    · rintro (rfl | ⟨rfl, he⟩ | ⟨j, h₁, h₂, h⟩)
      · exact ⟨i, le_rfl, by omega, .inl rfl⟩
      · exact ⟨i, le_rfl, by omega, .inr ⟨rfl, he ▸ hesc⟩⟩
      · exact ⟨j, by omega, by omega, h⟩
    · rintro ⟨j, h₁, h₂, h⟩
      rcases Nat.eq_or_lt_of_le h₁ with rfl | hlt
      · rcases h with rfl | ⟨rfl, he⟩
        · exact .inl rfl
        · exact .inr (.inl ⟨rfl, Option.some_inj.1 (hesc.symm.trans he)⟩)
      · exact .inr (.inr ⟨j, hlt, by omega, h⟩)

/-- The function that a job compiles. -/
def CompileInput.Compiles (compiler : Compiler ε) : CompileInput → CompiledFunction → Prop
  | .function i, f => compiler.compileFunction i = .ok f
  | .arrayToWasmTrampoline i, f => compiler.compileArrayToWasmTrampoline i = .ok f
  | .builtin i, f => compiler.compileWasmToBuiltin i = .ok f

/-- The output of a job. -/
def CompileInput.Gives (compiler : Compiler ε) (x : CompileInput) (o : CompileOutput) : Prop :=
  o.key = x.key ∧ x.Compiles compiler o.function

theorem runInput_gives {x : CompileInput} {o : CompileOutput}
    (h : runInput compiler m builtins x = (.ok (.ok o) : Except Fault (Except ε _))) :
    x.Gives compiler o := by
  cases x with
  | function i | arrayToWasmTrampoline i =>
    obtain ⟨f, hf, h⟩ := fallible_bind_eq_ok.1 h
    obtain rfl := Except.ok.inj (Except.ok.inj h)
    exact ⟨rfl, Except.ok.inj hf⟩
  | builtin i =>
    obtain ⟨name, -, h⟩ := fallible_bind_eq_ok.1 h
    obtain ⟨f, hf, h⟩ := fallible_bind_eq_ok.1 h
    obtain rfl := Except.ok.inj (Except.ok.inj h)
    exact ⟨rfl, Except.ok.inj hf⟩

/-- The outputs are those of the given jobs and of builtin trampolines, and are filed in order. -/
theorem compile_gives {inputs : List CompileInput} {u : UnlinkedCompileOutputs}
    (h : compile compiler m builtins inputs = (.ok (.ok u) : Except Fault (Except ε _))) :
    ∃ required : List ℕ, required.Nodup
      ∧ List.Forall₂ (CompileInput.Gives compiler) (inputs ++ required.map .builtin) u.outputs
      ∧ u.indices = fileOutputs 0 .empty u.outputs := by
  obtain ⟨outputs, ho, h⟩ := fallible_bind_eq_ok.1 h
  obtain ⟨all, hall, h⟩ := fallible_bind_eq_ok.1 h
  obtain rfl := Except.ok.inj (Except.ok.inj h)
  obtain ⟨relocs, -, hall⟩ := fallible_bind_eq_ok.1 hall
  obtain ⟨new, hnew, hall⟩ := fallible_bind_eq_ok.1 hall
  obtain rfl := Except.ok.inj (Except.ok.inj hall)
  refine ⟨requiredBuiltins [] relocs.flatten,
    (requiredBuiltins_spec relocs.flatten List.nodup_nil).1, List.rel_append ?_ ?_, rfl⟩
  · exact (fallible_mapM_eq_ok ho).imp fun _ _ => runInput_gives
  · exact List.forall₂_map_left_iff.2 ((fallible_mapM_eq_ok hnew).imp fun _ _ => runInput_gives)

/-! ## The index -/

/-- Each map of the index has keys of its kind. -/
theorem fileOutputs_kind : ∀ {outputs : List CompileOutput} {n : ℕ} {indices : Indices},
    (∀ K mp, indices.get K = some mp → ∀ e ∈ mp.entries, e.1.kind = K) →
    ∀ K mp, (fileOutputs n indices outputs).get K = some mp → ∀ e ∈ mp.entries, e.1.kind = K
  | [], _, _, h => h
  | o :: outputs, n, indices, h => by
    rw [fileOutputs]
    refine fileOutputs_kind fun K mp hmp e he => ?_
    rw [show (indices.insertKey o.key n).get K = _ from SortedMap.get_insert ..] at hmp
    split_ifs at hmp with hK
    · obtain rfl := Option.some_inj.1 hmp
      rcases SortedMap.mem_insertList he with rfl | he
      · exact hK.symm
      · rcases hget : indices.get o.key.kind with _ | mp'
        · rw [hget] at he
          cases he
        · rw [hget] at he
          exact (h _ mp' hget e he).trans hK.symm
    · exact h K mp hmp e he

/-- The outputs of one kind. -/
def Indices.ofKind (indices : Indices) (K : ℕ) : SortedMap CompileKey ℕ :=
  (indices.get K).getD .empty

theorem Indices.get_ofKind (indices : Indices) (k : CompileKey) :
    (indices.ofKind k.kind).get k = indices.lookupKey k := by
  unfold ofKind lookupKey
  cases indices.get k.kind <;> rfl

/-- The entries of a kind are the outputs with a key of that kind. -/
theorem mem_ofKind {outputs : List CompileOutput}
    (hnd : (outputs.map CompileOutput.key).Nodup) {K : ℕ} {e : CompileKey × ℕ} :
    e ∈ ((fileOutputs 0 .empty outputs).ofKind K).entries ↔
      e.1.kind = K ∧ (outputs[e.2]?).map CompileOutput.key = some e.1 := by
  have hlookup : ∀ k p, (fileOutputs 0 .empty outputs).lookupKey k = some p ↔
      (outputs[p]?).map CompileOutput.key = some k := by
    intro k p
    rw [lookupKey_fileOutputs hnd]
    constructor
    · rintro (⟨q, rfl, hq⟩ | ⟨-, h⟩)
      · rwa [Nat.zero_add]
      · cases h
    · exact fun h => .inl ⟨p, (Nat.zero_add p).symm, h⟩
  constructor
  · intro he
    have hkind : e.1.kind = K := by
      unfold Indices.ofKind at he
      rcases hget : (fileOutputs 0 .empty outputs).get K with _ | mp
      · rw [hget] at he
        cases he
      · rw [hget] at he
        exact fileOutputs_kind (by rintro _ _ ⟨⟩) K mp hget e he
    refine ⟨hkind, (hlookup _ _).1 ?_⟩
    rw [← Indices.get_ofKind, hkind]
    exact SortedMap.get_of_mem _ he
  · rintro ⟨rfl, h⟩
    refine SortedMap.mem_of_get ?_
    rw [Indices.get_ofKind]
    exact (hlookup _ _).2 h

/-! ## The table -/

/-- The code that a job compiled is at `loc`, where `append` put it. -/
def LocatedAt (compiler : Compiler ε) (tb : TextSectionBuilder σ) (u : UnlinkedCompileOutputs)
    (linked : Linked) (x : CompileInput) (loc : FunctionLoc) : Prop :=
  ∃ (p : ℕ) (o : CompileOutput), u.outputs[p]? = some o ∧ x.Gives compiler o
    ∧ AppendedAt tb u.outputs linked p loc.start ∧ loc.length = o.function.buffer.length

/-- The entry of the table for the function `j`. -/
structure EntryOk (compiler : Compiler ε) (tb : TextSectionBuilder σ) (u : UnlinkedCompileOutputs)
    (linked : Linked) (m : ModuleFunctions) (j : ℕ) (info : CompiledFunctionInfo) : Prop where
  wasmFuncLoc : LocatedAt compiler tb u linked (.function j) info.wasmFuncLoc
  trampoline : m.escaping[m.funcIndex j]? = some true →
    ∃ loc, info.hostToWasmTrampoline = some loc
      ∧ LocatedAt compiler tb u linked (.arrayToWasmTrampoline j) loc
  noTrampoline : m.escaping[m.funcIndex j]? ≠ some true → info.hostToWasmTrampoline = none

theorem wasmFunction_lt {i j : ℕ} (h : i < j) :
    CompileKey.wasmFunction i < CompileKey.wasmFunction j :=
  Prod.Lex.toLex_lt_toLex.2 (.inr ⟨rfl, h⟩)

theorem kind_wasmFunction (j : ℕ) :
    (CompileKey.wasmFunction j).kind = CompileKey.WASM_FUNCTION_KIND := by
  simp only [CompileKey.wasmFunction, CompileKey.kind]
  decide

theorem kind_arrayToWasmTrampoline (j : ℕ) :
    (CompileKey.arrayToWasmTrampoline j).kind = CompileKey.ARRAY_TO_WASM_TRAMPOLINE_KIND := by
  simp only [CompileKey.arrayToWasmTrampoline, CompileKey.kind]
  decide

/-- The jobs of a compilation, with those of the builtin trampolines. -/
structure Jobs (compiler : Compiler ε) (m : ModuleFunctions) (n : ℕ) (u : UnlinkedCompileOutputs)
    (jobs : List CompileInput) : Prop where
  nodup : jobs.Nodup
  function : ∀ j, .function j ∈ jobs ↔ j < n
  trampoline : ∀ j, .arrayToWasmTrampoline j ∈ jobs ↔
    j < n ∧ m.escaping[m.funcIndex j]? = some true
  gives : List.Forall₂ (CompileInput.Gives compiler) jobs u.outputs
  indices : u.indices = fileOutputs 0 .empty u.outputs

theorem compile_jobs {n : ℕ} (hlen : m.numImportedFunctions + n ≤ m.escaping.length)
    {inputs : List CompileInput} (hin : fromModule m 0 n = .ok inputs) {u : UnlinkedCompileOutputs}
    (h : compile compiler m builtins inputs = (.ok (.ok u) : Except Fault (Except ε _))) :
    ∃ jobs, Jobs compiler m n u jobs := by
  obtain ⟨required, hreq, hgives, hidx⟩ := compile_gives h
  obtain ⟨inputs', hin', hnd, hnot, -⟩ := fromModule_ok (m := m) (n := n) (i := 0) (by omega)
  obtain rfl := Except.ok.inj (hin.symm.trans hin')
  have hmem := mem_fromModule hin
  refine ⟨inputs ++ required.map .builtin, ?_, fun j => ?_, fun j => ?_, hgives, hidx⟩
  · refine List.nodup_append.2 ⟨hnd, hreq.map fun a b h => CompileInput.builtin.inj h, ?_⟩
    rintro x hx y hy rfl
    obtain ⟨i, -, rfl⟩ := List.mem_map.1 hy
    exact (hnot _ hx).2 i rfl
  · rw [List.mem_append, hmem]
    simp
  · rw [List.mem_append, hmem]
    simp

namespace Jobs

variable {n : ℕ} {u : UnlinkedCompileOutputs} {jobs : List CompileInput}

theorem keys (h : Jobs compiler m n u jobs) :
    u.outputs.map CompileOutput.key = jobs.map CompileInput.key := by
  have hgives := h.gives
  generalize u.outputs = outputs at hgives
  clear h
  induction hgives with
  | nil => rfl
  | cons hx _ ih => rw [List.map_cons, List.map_cons, hx.1, ih]

theorem keys_nodup (h : Jobs compiler m n u jobs) : (u.outputs.map CompileOutput.key).Nodup := by
  rw [h.keys]
  exact h.nodup.map CompileInput.key_injective

/-- The output with the key of a job is the output of that job. -/
theorem output_of_key (h : Jobs compiler m n u jobs) {x : CompileInput} {p : ℕ}
    (hp : (u.outputs[p]?).map CompileOutput.key = some x.key) :
    x ∈ jobs ∧ ∃ o, u.outputs[p]? = some o ∧ x.Gives compiler o := by
  obtain ⟨o, ho, hkey⟩ := Option.map_eq_some_iff.1 hp
  obtain ⟨y, hy, hgives⟩ := forall₂_getElem? h.gives.flip ho
  obtain rfl := CompileInput.key_injective (hgives.1.symm.trans hkey)
  exact ⟨List.mem_of_getElem? hy, o, ho, hgives⟩

theorem exists_key (h : Jobs compiler m n u jobs) {x : CompileInput} (hx : x ∈ jobs) :
    ∃ p : ℕ, (u.outputs[p]?).map CompileOutput.key = some x.key := by
  obtain ⟨p, hp⟩ := List.mem_iff_getElem?.1 hx
  obtain ⟨o, ho, hgives⟩ := forall₂_getElem? h.gives hp
  exact ⟨p, by rw [ho, Option.map_some, hgives.1]⟩

/-- The functions are in the order of their indices. -/
theorem functionEntries_eq (h : Jobs compiler m n u jobs) :
    (u.indices.ofKind CompileKey.WASM_FUNCTION_KIND).entries.map Prod.fst
      = (List.range n).map CompileKey.wasmFunction := by
  rw [h.indices]
  refine List.Pairwise.eq_of_mem_iff (r := (· < ·)) (List.pairwise_map.2 (SortedMap.sorted _))
    (List.pairwise_map.2 (List.pairwise_lt_range.imp wasmFunction_lt)) fun k => ?_
  simp only [List.mem_map, List.mem_range]
  constructor
  · rintro ⟨e, he, rfl⟩
    obtain ⟨hkind, hkey⟩ := (mem_ofKind h.keys_nodup).1 he
    have hmem : e.1 ∈ jobs.map CompileInput.key := by
      rw [← h.keys]
      exact List.mem_of_getElem? (List.getElem?_map.trans hkey)
    obtain ⟨x, hx, hxe⟩ := List.mem_map.1 hmem
    rw [← hxe] at hkind ⊢
    cases x with
    | function j => exact ⟨j, (h.function j).1 hx, rfl⟩
    | arrayToWasmTrampoline j =>
      exact absurd ((kind_arrayToWasmTrampoline j).symm.trans hkind) (by decide)
    | builtin j =>
      simp only [CompileInput.key, CompileKey.wasmToBuiltinTrampoline, CompileKey.kind] at hkind
      exact absurd hkind (by decide)
  · rintro ⟨j, hj, rfl⟩
    obtain ⟨p, hp⟩ := h.exists_key ((h.function j).2 hj)
    exact ⟨(.wasmFunction j, p), (mem_ofKind h.keys_nodup).2 ⟨kind_wasmFunction j, hp⟩, rfl⟩

/-- The position under the key of a trampoline is the one of its output. -/
theorem get_trampoline (h : Jobs compiler m n u jobs) (j p : ℕ) :
    (u.indices.ofKind CompileKey.ARRAY_TO_WASM_TRAMPOLINE_KIND).get (.arrayToWasmTrampoline j)
        = some p ↔
      (u.outputs[p]?).map CompileOutput.key = some (.arrayToWasmTrampoline j) := by
  have hmem := mem_ofKind h.keys_nodup (K := CompileKey.ARRAY_TO_WASM_TRAMPOLINE_KIND)
    (e := (.arrayToWasmTrampoline j, p))
  rw [← h.indices, and_iff_right (kind_arrayToWasmTrampoline j)] at hmem
  rw [← hmem]
  exact ⟨fun hget => SortedMap.mem_of_get hget, fun he => SortedMap.get_of_mem _ he⟩

end Jobs

/-- The table has an entry for each function, with the location of its own code, and of its own
trampoline where it escapes. -/
theorem linkAndFinish_funcs {n : ℕ} {u : UnlinkedCompileOutputs} {jobs : List CompileInput}
    (hjobs : Jobs compiler m n u jobs) {debug : Bool} {tb : TextSectionBuilder σ} {linked : Linked}
    (h : linkAndFinish debug tb m u = .ok linked) :
    linked.funcs.length = n
      ∧ ∀ j < n, ∃ info, linked.funcs[j]? = some info ∧ EntryOk compiler tb u linked m j info := by
  have hlocs : ∀ (p : ℕ) (o : CompileOutput) (loc : FunctionLoc), u.outputs[p]? = some o →
      linked.locs[p]? = some loc →
      AppendedAt tb u.outputs linked p loc.start ∧ loc.length = o.function.buffer.length :=
    fun _ _ _ ho => (linkAndFinish_locs h ho).1
  unfold linkAndFinish at h
  obtain ⟨s, hs, h⟩ := bind_eq_ok.1 h
  obtain ⟨funcs, hfuncs, h⟩ := bind_eq_ok.1 h
  obtain rfl := Except.ok.inj h
  replace hfuncs : (u.indices.ofKind CompileKey.WASM_FUNCTION_KIND).entries.mapM (functionInfo u s.locs
    (u.indices.ofKind CompileKey.ARRAY_TO_WASM_TRAMPOLINE_KIND)) = .ok funcs := hfuncs
  have hkeys := hjobs.functionEntries_eq
  have hlen : (u.indices.ofKind CompileKey.WASM_FUNCTION_KIND).entries.length = n := by
    simpa using congrArg List.length hkeys
  have hlocated : ∀ {x : CompileInput} {p : ℕ} {loc : FunctionLoc},
      (u.outputs[p]?).map CompileOutput.key = some x.key → s.locs[p]? = some loc →
      LocatedAt compiler tb u ⟨tb.finish s.text, funcs, s.traps.offsets, s.traps.traps, s.locs,
        s.calls⟩ x loc := by
    intro x p loc hp hloc
    obtain ⟨-, o, ho, hgives⟩ := hjobs.output_of_key hp
    exact ⟨p, o, ho, hgives, hlocs p o loc ho hloc⟩
  refine ⟨(mapM_ok_length hfuncs).trans hlen, fun j hj => ?_⟩
  -- The entry at `j` is the one of the function `j`.
  have hentry : ∃ e, (u.indices.ofKind CompileKey.WASM_FUNCTION_KIND).entries[j]? = some e
      ∧ e.1 = .wasmFunction j := by
    have hget := congrArg (fun l : List CompileKey => l[j]?) hkeys
    simp only [List.getElem?_map, List.getElem?_range hj, Option.map_some] at hget
    exact Option.map_eq_some_iff.1 hget
  obtain ⟨e, he, hek⟩ := hentry
  obtain ⟨info, hinfo, hrun⟩ := mapM_getElem? hfuncs he
  have hkey : (u.outputs[e.2]?).map CompileOutput.key = some (.wasmFunction j) := by
    have hmem := List.mem_of_getElem? he
    rw [hjobs.indices] at hmem
    rw [← hek]
    exact ((mem_ofKind hjobs.keys_nodup).1 hmem).2
  unfold functionInfo at hrun
  obtain ⟨trampoline, htramp, hrun⟩ := bind_eq_ok.1 hrun
  obtain ⟨output, -, hrun⟩ := bind_eq_ok.1 hrun
  obtain ⟨loc, hloc, hrun⟩ := bind_eq_ok.1 hrun
  obtain rfl := Except.ok.inj hrun
  rw [hek] at htramp
  refine ⟨_, hinfo, ⟨hlocated (x := .function j) hkey (unwrap_eq_ok.1 hloc), fun hesc => ?_,
    fun hesc => ?_⟩⟩
  · obtain ⟨p, hp⟩ := hjobs.exists_key ((hjobs.trampoline j).2 ⟨hj, hesc⟩)
    rw [show (CompileKey.wasmFunction j).index = j from rfl, (hjobs.get_trampoline j p).2 hp]
      at htramp
    obtain ⟨tloc, htloc, htramp⟩ := bind_eq_ok.1 htramp
    obtain rfl := Except.ok.inj htramp
    exact ⟨tloc, rfl, hlocated (x := .arrayToWasmTrampoline j) hp (unwrap_eq_ok.1 htloc)⟩
  · have hnone : (u.indices.ofKind CompileKey.ARRAY_TO_WASM_TRAMPOLINE_KIND).get
        (.arrayToWasmTrampoline j) = none := by
      refine Option.eq_none_iff_forall_ne_some.2 fun p hp => ?_
      have hjob := (hjobs.output_of_key (x := .arrayToWasmTrampoline j)
        ((hjobs.get_trampoline j p).1 hp)).1
      exact hesc ((hjobs.trampoline j).1 hjob).2
    rw [show (CompileKey.wasmFunction j).index = j from rfl, hnone] at htramp
    exact (Except.ok.inj htramp).symm

end K23VM.Compile
