import K23VM.Proofs.TextRun

/-!
# Linking

A relocation finds the one output that it refers to, `relocTarget_ok`, and linking does not fail,
`linkAndFinish_ok`.  The relocations are resolved exactly where assertions are compiled, or where
there are none, `relocsResolved_iff`: the call that resolves one is the argument of an assertion.
-/

namespace K23VM.Compile

variable {ε σ : Type}

/-! ## Targets -/

/-- The key of the output that a relocation refers to. -/
def calleeKey (m : ModuleFunctions) : RelocationTarget → CompileKey
  | .wasm i => .wasmFunction (i - m.numImportedFunctions)
  | .builtin i => .wasmToBuiltinTrampoline i

section Targets

variable {m : ModuleFunctions} {numDefined : ℕ} {builtins : List String} {u : UnlinkedCompileOutputs}

theorem OutputsOk.lookup (hu : OutputsOk m numDefined builtins u) {k : CompileKey}
    (hk : k ∈ u.outputs.map CompileOutput.key) :
    ∃ p, u.indices.lookupKey k = some p ∧ IsTarget u.outputs k p ∧ p < u.outputs.length := by
  obtain ⟨p, hp⟩ := List.mem_iff_getElem?.1 hk
  have hlt := (List.getElem?_eq_some_iff.1 hp).1
  rw [List.getElem?_map] at hp
  refine ⟨p, ?_, isTarget_of_nodup hu.nodup hp, by simpa using hlt⟩
  rw [hu.indices, lookupKey_fileOutputs hu.nodup]
  exact .inl ⟨p, (Nat.zero_add p).symm, hp⟩

theorem relocTarget_eq {indices : Indices} {t : RelocationTarget} {p : ℕ}
    (ht : GoodTarget m numDefined builtins t) (h : indices.lookupKey (calleeKey m t) = some p) :
    relocTarget indices m t = .ok p := by
  obtain ⟨outputs, ho, hp⟩ := Option.bind_eq_some_iff.1 h
  cases t with
  | wasm i =>
    have hdef : m.definedFuncIndex i = some (i - m.numImportedFunctions) :=
      if_neg (not_lt.2 ht.1)
    have hkind : (calleeKey m (.wasm i)).kind = CompileKey.WASM_FUNCTION_KIND := by
      simp only [calleeKey, CompileKey.kind, CompileKey.wasmFunction]
      decide
    rw [hkind] at ho
    rw [relocTarget, hdef, unwrap_some, ho]
    exact unwrap_eq_ok.2 hp
  | builtin i =>
    have hkind : (calleeKey m (.builtin i)).kind = CompileKey.WASM_TO_BUILTIN_TRAMPOLINE_KIND := by
      simp only [calleeKey, CompileKey.kind, CompileKey.wasmToBuiltinTrampoline]
      decide
    rw [hkind] at ho
    rw [relocTarget, ho]
    exact unwrap_eq_ok.2 hp

/-- A relocation of an output finds the one output that it refers to. -/
theorem relocTarget_ok (hu : OutputsOk m numDefined builtins u) {o : CompileOutput}
    (ho : o ∈ u.outputs) {relocs : List Relocation} (hrs : o.function.relocations = .ok relocs)
    {r : Relocation} (hr : r ∈ relocs) :
    ∃ p, relocTarget u.indices m r.target = .ok p
      ∧ IsTarget u.outputs (calleeKey m r.target) p ∧ p < u.outputs.length := by
  obtain ⟨relocs', hrs', -, hgood⟩ := (hu.wellCompiled o ho).relocations_ok
  obtain rfl := Except.ok.inj (hrs.symm.trans hrs')
  have hg := (hgood r hr).1
  have hmem : calleeKey m r.target ∈ u.outputs.map CompileOutput.key := by
    rcases ht : r.target with i | i
    · rw [ht] at hg
      obtain ⟨hle, hlt⟩ := hg
      exact hu.functions _ (by omega)
    · exact hu.trampolines o ho relocs hrs r hr i ht
  obtain ⟨p, hp, htarget, hlt⟩ := hu.lookup hmem
  exact ⟨p, relocTarget_eq hg hp, htarget, hlt⟩

end Targets

/-! ## Assumptions on the text section -/

/-- A builder of a text section, where `Built n` are its states after it appended `n` of the outputs:
functions are appended one after the other, relocations of their kinds can be resolved, and the
section stays below 4 GiB. -/
structure TextBuilderOk (tb : TextSectionBuilder σ) (outputs : List CompileOutput) (size : σ → ℕ)
    (Built : ℕ → σ → Prop) : Prop where
  init : Built 0 tb.init
  fits : ∀ n s, Built n s → size s < 2 ^ 32
  append : ∀ n s o, Built n s → outputs[n]? = some o →
    size s ≤ (tb.append s o.function.buffer o.function.alignment).1
      ∧ (tb.append s o.function.buffer o.function.alignment).1 + o.function.buffer.length
        ≤ size (tb.append s o.function.buffer o.function.alignment).2
      ∧ Built (n + 1) (tb.append s o.function.buffer o.function.alignment).2
  resolve : ∀ n s, Built n s → ∀ o ∈ outputs, ∀ r ∈ o.function.relocs, ∀ pos ≤ size s,
    ∀ target < outputs.length, (tb.resolveReloc s pos r.kind r.addend target).1 = true
      ∧ size (tb.resolveReloc s pos r.kind r.addend target).2 = size s
      ∧ Built n (tb.resolveReloc s pos r.kind r.addend target).2

section Link

variable {m : ModuleFunctions} {numDefined : ℕ} {builtins : List String} {u : UnlinkedCompileOutputs}
  (debug : Bool) {tb : TextSectionBuilder σ} {size : σ → ℕ} {Built : ℕ → σ → Prop}

/-- A call that resolves a relocation of the output at `start`. -/
structure ResolvedBy (outputs : List CompileOutput) (m : ModuleFunctions) (start : ℕ)
    (r : Relocation) (c : ResolveCall) : Prop where
  offset : c.offset = start + r.offset
  kind : c.kind = r.kind
  addend : c.addend = r.addend
  target : IsTarget outputs (calleeKey m r.target) c.target

/-- The calls that are made for the relocations of an output. -/
def CallsFor (debug : Bool) (outputs : List CompileOutput) (m : ModuleFunctions) (start : ℕ)
    (relocs : List Relocation) (calls : List ResolveCall) : Prop :=
  if debug then List.Forall₂ (ResolvedBy outputs m start) relocs calls else calls = []

theorem resolveRelocs_ok (hu : OutputsOk m numDefined builtins u)
    (htb : TextBuilderOk tb u.outputs size Built) {o : CompileOutput} (ho : o ∈ u.outputs)
    {all : List Relocation} (hall : o.function.relocations = .ok all) {n off : ℕ} :
    ∀ {relocs : List Relocation} {s : σ}, relocs ⊆ all → Built n s →
      off + o.function.buffer.length ≤ size s →
      ∃ s' calls, resolveRelocs debug tb u.indices m off s relocs = .ok (s', calls)
        ∧ CallsFor debug u.outputs m off relocs calls ∧ Built n s' ∧ size s' = size s
  | [], s, _, hs, _ => by
    refine ⟨s, [], rfl, ?_, hs, rfl⟩
    rw [CallsFor]
    split_ifs
    · exact .nil
    · rfl
  | r :: relocs, s, hsub, hs, hsize => by
    have hr := hsub List.mem_cons_self
    obtain ⟨p, hp, htarget, hlt⟩ := relocTarget_ok hu ho hall hr
    by_cases hd : debug = true
    · obtain ⟨relocs', hrs', -, hgood⟩ := (hu.wellCompiled o ho).relocations_ok
      have hmem : r ∈ relocs' := Except.ok.inj (hall.symm.trans hrs') ▸ hr
      obtain ⟨x, hx, hk, ha, hoff⟩ := (hgood r hmem).2
      have hin := (hu.wellCompiled o ho).relocs_in x hx
      have hfits := htb.fits n s hs
      obtain ⟨hres, hsz, hb⟩ := htb.resolve n s hs o ho x hx (off + r.offset) (by omega) p hlt
      rw [← hk, ← ha] at hres hsz hb
      obtain ⟨s', calls, hrun, hcalls, hs', hsz'⟩ := resolveRelocs_ok hu htb ho hall
        (List.subset_of_cons_subset hsub) hb (hsize.trans hsz.ge)
      rw [CallsFor, if_pos hd] at hcalls
      have hadd : addOrPanic off r.offset = .ok (off + r.offset) := by
        unfold addOrPanic
        split_ifs with h
        · rfl
        · omega
      refine ⟨s', ⟨off + r.offset, r.kind, r.addend, p⟩ :: calls, ?_, ?_, hs', hsz'.trans hsz⟩
      · rw [resolveRelocs, hp]
        simp only [bind, Except.bind, if_pos hd, hadd, hres, assertThat_true, hrun]
        rfl
      · rw [CallsFor, if_pos hd]
        exact .cons ⟨rfl, rfl, rfl, htarget⟩ hcalls
    · obtain ⟨s', calls, hrun, hcalls, hs'⟩ := resolveRelocs_ok hu htb ho hall
        (List.subset_of_cons_subset hsub) hs hsize
      rw [CallsFor, if_neg hd] at hcalls
      refine ⟨s', calls, ?_, ?_, hs'⟩
      · rw [resolveRelocs, hp]
        simp only [bind, Except.bind, if_neg hd, hrun]
      · rw [CallsFor, if_neg hd]
        exact hcalls

/-! ## Traps -/

theorem pushTrap_foldlM {func : FunctionLoc} : ∀ {traps : List TrapInfo} {b : TrapsBuilder},
    b.lastOffset ≤ func.start + func.length → func.start + func.length < 2 ^ 32 →
    (∀ t ∈ traps, t.offset ≤ func.length ∧ b.lastOffset ≤ func.start + t.offset) →
    traps.Pairwise (fun t t' => t.offset ≤ t'.offset) →
    ∃ b', traps.foldlM (TrapsBuilder.pushTrap debug func) b = .ok b'
  | [], b, _, _, _, _ => ⟨b, rfl⟩
  | t :: traps, b, hb, hfit, ht, hsorted => by
    obtain ⟨hle, hpos⟩ := ht t List.mem_cons_self
    obtain ⟨hhead, htail⟩ := List.pairwise_cons.1 hsorted
    have hadd : addU32OrPanic func.start t.offset = .ok (func.start + t.offset) := by
      unfold addU32OrPanic
      split_ifs with h
      · rfl
      · omega
    have hstep : TrapsBuilder.pushTrap debug func b t
        = .ok ⟨b.offsets ++ [func.start + t.offset], b.traps ++ [t.trap], func.start + t.offset⟩ := by
      rw [TrapsBuilder.pushTrap, hadd]
      simp only [bind, Except.bind, decide_eq_true hpos, debugAssert_true]
      rfl
    rw [List.foldlM_cons, hstep]
    refine pushTrap_foldlM (by simpa using hle) hfit (fun t' ht' => ?_) htail
    have := hhead t' ht'
    exact ⟨(ht t' (List.mem_cons_of_mem _ ht')).1, by simpa using this⟩

theorem trapInfo_offsets {f : CompiledFunction} {traps : List TrapInfo} (h : f.traps = .ok traps) :
    traps.map TrapInfo.offset = f.machTraps.map MachTrap.offset := by
  rw [CompiledFunction.traps, mapM_eq_ok_iff] at h
  generalize f.machTraps = machTraps at h
  induction h with
  | nil => rfl
  | cons h _ ih =>
    obtain ⟨trap, -, h⟩ := bind_eq_ok.1 h
    obtain rfl := Except.ok.inj h
    rw [List.map_cons, List.map_cons, ih]

theorem WellCompiled.traps_ok {f : CompiledFunction} (hf : WellCompiled m numDefined builtins f) :
    ∃ traps, f.traps = .ok traps ∧ (∀ t ∈ traps, t.offset ≤ f.buffer.length)
      ∧ traps.Pairwise fun t t' => t.offset ≤ t'.offset := by
  have hrun : ∃ traps, f.traps = .ok traps := exists_mapM_ok fun t ht => by
    obtain ⟨trap, htrap⟩ := Option.isSome_iff_exists.1 (hf.traps t ht).1
    exact ⟨⟨t.offset, trap⟩, by rw [htrap]; rfl⟩
  obtain ⟨traps, hrun⟩ := hrun
  have hoff := trapInfo_offsets hrun
  refine ⟨traps, hrun, fun t ht => ?_, ?_⟩
  · have hmem : t.offset ∈ f.machTraps.map MachTrap.offset := hoff ▸ List.mem_map_of_mem ht
    obtain ⟨x, hx, hxt⟩ := List.mem_map.1 hmem
    exact hxt ▸ (hf.traps x hx).2
  · have hsorted : (f.machTraps.map MachTrap.offset).Pairwise fun a b => a ≤ b :=
      List.pairwise_map.2 hf.sorted
    rw [← hoff] at hsorted
    exact List.pairwise_map.1 hsorted

theorem pushTraps_ok (func : FunctionLoc) {traps : List TrapInfo} {b : TrapsBuilder}
    (hb : b.lastOffset ≤ func.start) (hfit : func.start + func.length < 2 ^ 32)
    (hle : ∀ t ∈ traps, t.offset ≤ func.length)
    (hsorted : traps.Pairwise fun t t' => t.offset ≤ t'.offset) :
    ∃ b', b.pushTraps debug func traps = .ok b' ∧ b'.lastOffset = func.start + func.length := by
  obtain ⟨b', hrun⟩ := pushTrap_foldlM debug (by omega) hfit
    (fun t ht => ⟨hle t ht, hb.trans (Nat.le_add_right _ _)⟩) hsorted
  refine ⟨{ b' with lastOffset := func.start + func.length }, ?_, rfl⟩
  have hadd : addU32OrPanic func.start func.length = .ok (func.start + func.length) := by
    unfold addU32OrPanic
    split_ifs
    rfl
  rw [TrapsBuilder.pushTraps, hrun]
  simp only [bind, Except.bind, hadd]
  rfl

/-! ## A whole run -/

/-- What linking did for an output. -/
def LinkedAs (debug : Bool) (outputs : List CompileOutput) (m : ModuleFunctions) (o : CompileOutput)
    (loc : FunctionLoc) (calls : List ResolveCall) : Prop :=
  ∃ relocs, o.function.relocations = .ok relocs
    ∧ CallsFor debug outputs m loc.start relocs calls

theorem linkOutput_ok (hu : OutputsOk m numDefined builtins u)
    (htb : TextBuilderOk tb u.outputs size Built) {n : ℕ} {o : CompileOutput}
    (ho : u.outputs[n]? = some o) {s : LinkState σ} (hs : Built n s.text)
    (hlast : s.traps.lastOffset ≤ size s.text) :
    ∃ s' loc calls, linkOutput debug tb u.indices m s o = .ok s'
      ∧ s'.locs = s.locs ++ [loc] ∧ s'.calls = s.calls ++ [calls]
      ∧ LinkedAs debug u.outputs m o loc calls
      ∧ Built (n + 1) s'.text ∧ s'.traps.lastOffset ≤ size s'.text := by
  have hmem := List.mem_of_getElem? ho
  have hw := hu.wellCompiled o hmem
  obtain ⟨hoff, hend, hb⟩ := htb.append n s.text o hs ho
  rcases happ : tb.append s.text o.function.buffer o.function.alignment with ⟨off, text⟩
  rw [happ] at hoff hend hb
  obtain ⟨relocs, hrs, -, -⟩ := hw.relocations_ok
  obtain ⟨text', calls, hres, hcalls, hb', hsz⟩ :=
    resolveRelocs_ok debug hu htb hmem hrs (List.Subset.refl relocs) hb hend
  have hfits := htb.fits _ _ hb
  obtain ⟨traps, htraps, hle, hsorted⟩ := hw.traps_ok
  have hfit : off + o.function.buffer.length < 2 ^ 32 := lt_of_le_of_lt hend hfits
  obtain ⟨b, hpush, hlast'⟩ := pushTraps_ok debug ⟨off, o.function.buffer.length⟩
    (hlast.trans hoff) hfit hle hsorted
  have hu32 : ∀ x, x < 2 ^ 32 → toU32 x = .ok x := fun x hx => if_pos hx
  refine ⟨⟨text', b, _, _⟩, ⟨off, o.function.buffer.length⟩, calls, ?_, rfl, rfl,
    ⟨relocs, hrs, hcalls⟩, hb', ?_⟩
  · rw [linkOutput, happ]
    simp only [hrs, hres, htraps, hpush, hu32 _ (lt_of_le_of_lt (Nat.le_add_right _ _) hfit),
      hu32 _ (lt_of_le_of_lt (Nat.le_add_left _ _) hfit), bind, Except.bind]
    rfl
  · rw [hlast', hsz]
    exact hend

theorem foldlM_linkOutput_ok (hu : OutputsOk m numDefined builtins u)
    (htb : TextBuilderOk tb u.outputs size Built) : ∀ (rest done : List CompileOutput)
    {s : LinkState σ}, u.outputs = done ++ rest → Built done.length s.text →
    s.traps.lastOffset ≤ size s.text →
    ∃ s' locs calls, rest.foldlM (linkOutput debug tb u.indices m) s = .ok s'
      ∧ s'.locs = s.locs ++ locs ∧ s'.calls = s.calls ++ calls
      ∧ locs.length = rest.length ∧ calls.length = rest.length
      ∧ ∀ (n : ℕ) o, rest[n]? = some o → ∃ loc cs, locs[n]? = some loc ∧ calls[n]? = some cs
        ∧ LinkedAs debug u.outputs m o loc cs
  | [], done, s, _, _, _ => ⟨s, [], [], rfl, by simp, by simp, rfl, rfl, by simp⟩
  | o :: rest, done, s, heq, hs, hlast => by
    have ho : u.outputs[done.length]? = some o := by
      rw [heq, List.getElem?_append_right le_rfl, Nat.sub_self]
      rfl
    obtain ⟨s₁, loc, cs, hrun, hlocs, hcalls, hlinked, hb, hlast'⟩ :=
      linkOutput_ok debug hu htb ho hs hlast
    obtain ⟨s', locs, calls, hrun', hlocs', hcalls', hlen, hlen', hall⟩ :=
      foldlM_linkOutput_ok hu htb rest (done ++ [o])
        (by rw [heq, List.append_assoc]; rfl) (by rw [List.length_append]; exact hb) hlast'
    refine ⟨s', loc :: locs, cs :: calls, ?_, ?_, ?_, by simp [hlen], by simp [hlen'], ?_⟩
    · rw [List.foldlM_cons, hrun]
      exact hrun'
    · rw [hlocs', hlocs, List.append_assoc, List.singleton_append]
    · rw [hcalls', hcalls, List.append_assoc, List.singleton_append]
    · intro n o' ho'
      cases n with
      | zero =>
        obtain rfl := Option.some_inj.1 ho'
        exact ⟨loc, cs, rfl, rfl, hlinked⟩
      | succ n => exact hall n o' ho'

theorem functionInfo_ok (hu : OutputsOk m numDefined builtins u) {locs : List FunctionLoc}
    (hlen : locs.length = u.outputs.length) {e : CompileKey × ℕ}
    (he : e ∈ ((u.indices.get CompileKey.WASM_FUNCTION_KIND).getD .empty).entries) :
    ∃ info, functionInfo u locs
      ((u.indices.get CompileKey.ARRAY_TO_WASM_TRAMPOLINE_KIND).getD .empty) e = .ok info := by
  have hlt : ∀ K k p, ((u.indices.get K).getD .empty).get k = some p → p < u.outputs.length := by
    intro K k p hp
    rcases hK : u.indices.get K with _ | mp
    · rw [hK] at hp
      cases hp
    · rw [hK] at hp
      rw [hu.indices] at hK
      exact fileOutputs_lt (by omega) (by rintro _ _ ⟨⟩) K mp hK k p hp
  have he2 := hlt _ _ _ (SortedMap.get_of_mem _ he)
  have hloc : ∀ p < u.outputs.length, ∃ loc, locs[p]? = some loc := fun p hp =>
    ⟨_, List.getElem?_eq_getElem (hlen ▸ hp)⟩
  obtain ⟨loc, hl⟩ := hloc _ he2
  rw [functionInfo, List.getElem?_eq_getElem he2, hl]
  rcases ht : SortedMap.get ((u.indices.get CompileKey.ARRAY_TO_WASM_TRAMPOLINE_KIND).getD .empty)
    (.arrayToWasmTrampoline e.1.index) with _ | p
  · exact ⟨_, rfl⟩
  · obtain ⟨tloc, htl⟩ := hloc p (hlt _ _ _ ht)
    have hmap : (some p).mapM (fun index => unwrap "index out of bounds" locs[index]?)
        = .ok (some tloc) := by
      change unwrap "index out of bounds" locs[p]? >>= _ = _
      rw [htl]
      rfl
    rw [hmap]
    exact ⟨_, rfl⟩

/-- Linking has a result, with a list of calls for each output. -/
theorem linkAndFinish_ok (hu : OutputsOk m numDefined builtins u)
    (htb : TextBuilderOk tb u.outputs size Built) :
    ∃ linked, linkAndFinish debug tb m u = .ok linked
      ∧ linked.locs.length = u.outputs.length ∧ linked.calls.length = u.outputs.length
      ∧ ∀ (n : ℕ) o, u.outputs[n]? = some o → ∃ loc calls, linked.locs[n]? = some loc
        ∧ linked.calls[n]? = some calls ∧ LinkedAs debug u.outputs m o loc calls := by
  obtain ⟨s, locs, calls, hrun, hlocs, hcalls, hlen, hlen', hall⟩ :=
    foldlM_linkOutput_ok debug hu htb u.outputs []
      (s := ⟨tb.init, ⟨[], [], 0⟩, [], []⟩) rfl htb.init (Nat.zero_le _)
  rw [List.nil_append] at hlocs hcalls
  obtain ⟨funcs, hfuncs⟩ := exists_mapM_ok fun e he =>
    functionInfo_ok hu (hlocs ▸ hlen) (e := e) he
  refine ⟨⟨tb.finish s.text, funcs, s.traps.offsets, s.traps.traps, s.locs, s.calls⟩, ?_,
    hlocs ▸ hlen, hcalls ▸ hlen', ?_⟩
  · rw [linkAndFinish, hrun]
    simp only [bind, Except.bind, hfuncs]
    rfl
  · intro n o ho
    obtain ⟨loc, cs, hl, hc, hlinked⟩ := hall n o ho
    exact ⟨loc, cs, hlocs ▸ hl, hcalls ▸ hc, hlinked⟩

end Link

/-- For each builtin that the outputs refer to there is one trampoline. -/
def BuiltinsOnce (u : UnlinkedCompileOutputs) : Prop :=
  ∀ o ∈ u.outputs, ∀ relocs, o.function.relocations = .ok relocs → ∀ r ∈ relocs, ∀ i,
    r.target = .builtin i → ∃ p, IsTarget u.outputs (.wasmToBuiltinTrampoline i) p

/-- Linking has a result and resolves each relocation of each output once, at its place behind the
offset that `append` returned for the output, to the output it refers to. -/
def RelocsResolved (debug : Bool) (tb : TextSectionBuilder σ) (m : ModuleFunctions)
    (u : UnlinkedCompileOutputs) : Prop :=
  ∃ linked, linkAndFinish debug tb m u = .ok linked
    ∧ linked.locs.length = u.outputs.length ∧ linked.calls.length = u.outputs.length
    ∧ ∀ (n : ℕ) o, u.outputs[n]? = some o → ∃ relocs off calls,
      o.function.relocations = .ok relocs ∧ AppendedAt tb u.outputs linked n off
        ∧ linked.locs[n]? = some ⟨off, o.function.buffer.length⟩
        ∧ linked.calls[n]? = some calls
        ∧ List.Forall₂ (ResolvedBy u.outputs m off) relocs calls

theorem builtinsOnce_of_outputsOk {m : ModuleFunctions} {numDefined : ℕ} {builtins : List String}
    {u : UnlinkedCompileOutputs} (hu : OutputsOk m numDefined builtins u) : BuiltinsOnce u := by
  intro o ho relocs hrs r hr i hi
  obtain ⟨p, -, htarget, -⟩ := hu.lookup (hu.trampolines o ho relocs hrs r hr i hi)
  exact ⟨p, htarget⟩

theorem relocsResolved_of_outputsOk {m : ModuleFunctions} {numDefined : ℕ} {builtins : List String}
    {u : UnlinkedCompileOutputs} (hu : OutputsOk m numDefined builtins u) {debug : Bool}
    {tb : TextSectionBuilder σ} {size : σ → ℕ} {Built : ℕ → σ → Prop}
    (htb : TextBuilderOk tb u.outputs size Built) :
    RelocsResolved debug tb m u ↔ debug = true ∨ ∀ o ∈ u.outputs, o.function.relocs = [] := by
  obtain ⟨linked, hrun, hlen, hlen', hall⟩ := linkAndFinish_ok debug hu htb
  constructor
  · rintro ⟨linked', hrun', -, -, hall'⟩
    obtain rfl := Except.ok.inj (hrun.symm.trans hrun')
    refine or_iff_not_imp_left.2 fun hd o ho => ?_
    obtain ⟨n, hn⟩ := List.mem_iff_getElem?.1 ho
    obtain ⟨relocs, off, calls, hrs, -, -, hcalls, hres⟩ := hall' n o hn
    obtain ⟨loc', calls', -, hcalls', relocs', -, hfor⟩ := hall n o hn
    obtain rfl := Option.some_inj.1 (hcalls.symm.trans hcalls')
    rw [CallsFor, if_neg hd] at hfor
    rw [hfor] at hres
    cases hres
    exact List.length_eq_zero_iff.1 (mapM_ok_length hrs).symm
  · intro h
    refine ⟨linked, hrun, hlen, hlen', fun n o hn => ?_⟩
    obtain ⟨loc, calls, hl, hcalls, relocs, hrs, hfor⟩ := hall n o hn
    obtain ⟨happ, hlength⟩ := (linkAndFinish_locs hrun hn).1 hl
    refine ⟨relocs, loc.start, calls, hrs, happ, hlength ▸ hl, hcalls, ?_⟩
    rw [CallsFor] at hfor
    split_ifs at hfor with hd
    · exact hfor
    · have hnil := (h.resolve_left hd) o (List.mem_of_getElem? hn)
      rw [CompiledFunction.relocations, hnil] at hrs
      obtain rfl := Except.ok.inj hrs
      rw [hfor]
      exact .nil

/-- Compiling and linking do not fail, each builtin that is referred to has one trampoline, and
every relocation is resolved to its target: exactly in a build with assertions, or where no output
has a relocation. -/
theorem relocsResolved_iff {compiler : Compiler ε} {m : ModuleFunctions} {numDefined : ℕ}
    {builtins : List String} (hlen : m.escaping.length = m.numImportedFunctions + numDefined)
    (hc : CompilerOk compiler m numDefined builtins) :
    ∃ inputs, fromModule m 0 numDefined = .ok inputs
      ∧ NoPanic (compile compiler m builtins inputs)
      ∧ ∀ u, compile compiler m builtins inputs = (.ok (.ok u) : Except Fault (Except ε _)) →
        ∀ (debug : Bool) (tb : TextSectionBuilder σ) (size : σ → ℕ) (Built : ℕ → σ → Prop),
        TextBuilderOk tb u.outputs size Built →
        (BuiltinsOnce u ∧ RelocsResolved debug tb m u ↔
          debug = true ∨ ∀ o ∈ u.outputs, o.function.relocs = []) := by
  obtain ⟨inputs, hin, -, hidx, -⟩ :=
    fromModule_ok (m := m) (n := numDefined) (i := 0) (by omega)
  refine ⟨inputs, hin, compile_noPanic hc fun x hx => (hidx x hx).2, ?_⟩
  intro u hu debug tb size Built htb
  have hok := compile_ok hc hin hlen.ge hu
  rw [relocsResolved_of_outputsOk hok htb]
  exact and_iff_right (builtinsOnce_of_outputsOk hok)

section Example

/-- A function that calls itself. -/
def selfCall : CompiledFunction where
  buffer := [0, 0, 0, 0]
  relocs := [⟨0, 4, .user 0, 0⟩]
  machTraps := []
  nameMap := [⟨NS_WASM_FUNC, 0⟩]
  alignment := 1
  startSrcloc := 0

def selfCallCompiler : Compiler Unit where
  compileFunction _ := .ok selfCall
  compileArrayToWasmTrampoline _ := .error ()
  compileWasmToBuiltin _ := .error ()

/-- A builder that puts functions next to each other. -/
def plainBuilder : TextSectionBuilder (List UInt8) where
  init := []
  append s body _ := (s.length, s ++ body)
  resolveReloc s _ _ _ _ := (true, s)
  finish s := s

/-- The outputs for a module whose only function calls itself. -/
def selfCallOutputs : UnlinkedCompileOutputs :=
  ⟨fileOutputs 0 .empty [⟨.wasmFunction 0, selfCall, "wasm[0]::function[0]"⟩],
    [⟨.wasmFunction 0, selfCall, "wasm[0]::function[0]"⟩]⟩

theorem selfCall_compilerOk : CompilerOk selfCallCompiler ⟨0, [false]⟩ 1 [] where
  function i f h := by
    obtain rfl := Except.ok.inj h
    refine ⟨?_, by simp [selfCall], by simp [selfCall], by simp [selfCall]⟩
    intro r hr
    obtain rfl := List.mem_singleton.1 hr
    exact ⟨0, ⟨NS_WASM_FUNC, 0⟩, rfl, rfl, .inl ⟨rfl, by decide, by decide⟩⟩
  trampoline i f h := by cases h
  builtin i f h := by cases h

theorem plainBuilder_ok : TextBuilderOk plainBuilder selfCallOutputs.outputs List.length
    fun n s => s.length = 4 * n ∧ n ≤ 1 where
  init := ⟨rfl, by decide⟩
  fits n s h := by
    have := h.1
    omega
  append n s o h ho := by
    have hn : n = 0 := by
      have hlt := (List.getElem?_eq_some_iff.1 ho).1
      simp only [selfCallOutputs, List.length_singleton] at hlt
      omega
    subst hn
    obtain rfl := Option.some_inj.1 ho
    have hs := h.1
    refine ⟨le_rfl, by simp [plainBuilder, selfCall], ?_, by decide⟩
    simp [plainBuilder, selfCall, hs]
  resolve n s h o ho r hr pos hpos target ht := ⟨rfl, rfl, h⟩

/-- In a build without assertions the call to itself stays unresolved. -/
theorem relocsResolved_release_selfCall :
    fromModule ⟨0, [false]⟩ 0 1 = .ok [.function 0]
      ∧ compile selfCallCompiler ⟨0, [false]⟩ [] [.function 0] = .ok (.ok selfCallOutputs)
      ∧ ¬ RelocsResolved false plainBuilder ⟨0, [false]⟩ selfCallOutputs := by
  refine ⟨rfl, rfl, ?_⟩
  rintro ⟨linked, hrun, -, -, hall⟩
  obtain ⟨relocs, off, calls, hrs, -, -, hcalls, hres⟩ := hall 0 _ rfl
  have hlink : linkAndFinish false plainBuilder ⟨0, [false]⟩ selfCallOutputs
      = .ok ⟨[0, 0, 0, 0], [⟨⟨0, 4⟩, none, 0⟩], [], [], [⟨0, 4⟩], [[]]⟩ := rfl
  obtain rfl := Except.ok.inj (hlink.symm.trans hrun)
  obtain rfl := Option.some_inj.1 hcalls
  obtain rfl := Except.ok.inj (show .ok [⟨4, .wasm 0, 0, 0⟩] = Except.ok relocs from hrs)
  cases hres

/-- In a build with assertions it is resolved. -/
theorem relocsResolved_debug_selfCall :
    BuiltinsOnce selfCallOutputs
      ∧ RelocsResolved true plainBuilder ⟨0, [false]⟩ selfCallOutputs := by
  obtain ⟨inputs, hin, -, h⟩ := relocsResolved_iff (σ := List UInt8) rfl selfCall_compilerOk
  obtain rfl := Except.ok.inj (show .ok [CompileInput.function 0] = Except.ok inputs from hin)
  exact (h selfCallOutputs rfl true plainBuilder _ _ plainBuilder_ok).2 (.inl rfl)

end Example

end K23VM.Compile
