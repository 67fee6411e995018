import K23VM.Proofs.FunctionTable
import K23VM.Proofs.Link
import K23VM.Runtime.CodeMemory
import Mathlib.Tactic

/-!
# Fault addresses and traps

The table of traps that linking builds lists the traps of all outputs in strict order,
`linkAndFinish_sites`, and the registry finds the region of an address, `Registered.lookupCode_eq`.
So an address is looked up as a trap exactly where one is recorded for it, `lookupTrap_iff`.
-/

namespace K23VM

namespace Compile

/-! ## Sites -/

/-- The traps of an output at `loc`, by their offset in the text section. -/
def CompileOutput.sites (o : CompileOutput) (loc : FunctionLoc) : List (ℕ × Trap) :=
  o.function.machTraps.filterMap fun t =>
    (Trap.fromTrapCode t.code).map fun trap => (loc.start + t.offset, trap)

/-- The traps of all outputs. -/
def sites (outputs : List CompileOutput) (locs : List FunctionLoc) : List (ℕ × Trap) :=
  (List.zipWith CompileOutput.sites outputs locs).flatten

theorem mem_sites {outputs : List CompileOutput} {locs : List FunctionLoc} {x : ℕ × Trap} :
    x ∈ sites outputs locs ↔
      ∃ (n : ℕ) (o : CompileOutput) (loc : FunctionLoc), outputs[n]? = some o ∧ locs[n]? = some loc
        ∧ ∃ t ∈ o.function.machTraps, Trap.fromTrapCode t.code = some x.2
          ∧ x.1 = loc.start + t.offset := by
  unfold sites
  rw [List.mem_flatten]
  constructor
  · rintro ⟨l, hl, hx⟩
    obtain ⟨n, hn⟩ := List.mem_iff_getElem?.1 hl
    obtain ⟨o, loc, ho, hloc, rfl⟩ := List.getElem?_zipWith_eq_some.1 hn
    obtain ⟨t, ht, hxt⟩ := List.mem_filterMap.1 hx
    obtain ⟨trap, htrap, rfl⟩ := Option.map_eq_some_iff.1 hxt
    exact ⟨n, o, loc, ho, hloc, t, ht, htrap, rfl⟩
  · rintro ⟨n, o, loc, ho, hloc, t, ht, htrap, hx⟩
    refine ⟨o.sites loc, ?_, ?_⟩
    · exact List.mem_of_getElem? (List.getElem?_zipWith_eq_some.2 ⟨o, loc, ho, hloc, rfl⟩)
    · exact List.mem_filterMap.2 ⟨t, ht, Option.map_eq_some_iff.2 ⟨x.2, htrap, by rw [← hx]⟩⟩

/-! ## Assumptions on the code generator -/

/-- The traps of a function are in order and inside its code. -/
structure TrapsOk (f : CompiledFunction) : Prop where
  increasing : f.machTraps.Pairwise fun t t' => t.offset < t'.offset
  inside : ∀ t ∈ f.machTraps, t.offset < f.buffer.length

variable {σ : Type}

/-- A builder whose states have a size: functions are appended behind what is there, and stay inside
the text section. -/
structure TextAppends (tb : TextSectionBuilder σ) (size : σ → ℕ) : Prop where
  append : ∀ s body align, size s ≤ (tb.append s body align).1
    ∧ (tb.append s body align).1 + body.length ≤ size (tb.append s body align).2
  resolve : ∀ s pos kind addend target, size s ≤ size (tb.resolveReloc s pos kind addend target).2
  finish : ∀ s, size s ≤ (tb.finish s).length

theorem TrapsOk.sites_sorted {o : CompileOutput} (h : TrapsOk o.function) (loc : FunctionLoc) :
    (o.sites loc).Pairwise fun x y => x.1 < y.1 := by
  refine List.Pairwise.filterMap _ (fun t t' ht x hx y hy => ?_) h.increasing
  obtain ⟨_, -, rfl⟩ := Option.map_eq_some_iff.1 hx
  obtain ⟨_, -, rfl⟩ := Option.map_eq_some_iff.1 hy
  exact Nat.add_lt_add_left ht _

theorem TrapsOk.mem_sites {o : CompileOutput} (h : TrapsOk o.function) {loc : FunctionLoc}
    {x : ℕ × Trap} (hx : x ∈ o.sites loc) :
    loc.start ≤ x.1 ∧ x.1 < loc.start + o.function.buffer.length := by
  obtain ⟨t, ht, hxt⟩ := List.mem_filterMap.1 hx
  obtain ⟨_, -, rfl⟩ := Option.map_eq_some_iff.1 hxt
  exact ⟨Nat.le_add_right _ _, Nat.add_lt_add_left (h.inside t ht) _⟩

/-! ## The table of traps -/

theorem traps_eq_sites {o : CompileOutput} {infos : List TrapInfo} (loc : FunctionLoc)
    (h : o.function.traps = .ok infos) :
    infos.map (fun t => (loc.start + t.offset, t.trap)) = o.sites loc := by
  unfold CompiledFunction.traps at h
  rw [mapM_eq_ok_iff] at h
  unfold CompileOutput.sites
  generalize o.function.machTraps = machTraps at h
  induction h with
  | nil => rfl
  | cons h _ ih =>
    obtain ⟨trap, htrap, h⟩ := bind_eq_ok.1 h
    obtain rfl := Except.ok.inj h
    rw [unwrap_eq_ok] at htrap
    rw [List.map_cons, List.filterMap_cons, htrap, ih]
    rfl

theorem pushTrap_foldlM_eq {debug : Bool} {func : FunctionLoc} : ∀ {traps : List TrapInfo}
    {b b' : TrapsBuilder}, traps.foldlM (TrapsBuilder.pushTrap debug func) b = .ok b' →
    b'.offsets = b.offsets ++ traps.map (func.start + ·.offset)
      ∧ b'.traps = b.traps ++ traps.map TrapInfo.trap
  | [], b, b', h => by
    obtain rfl := Except.ok.inj h
    simp
  | t :: traps, b, b', h => by
    rw [List.foldlM_cons] at h
    obtain ⟨b₁, h₁, h⟩ := bind_eq_ok.1 h
    unfold TrapsBuilder.pushTrap at h₁
    obtain ⟨pos, hpos, h₁⟩ := bind_eq_ok.1 h₁
    obtain ⟨-, rfl⟩ := addU32OrPanic_eq_ok.1 hpos
    obtain ⟨_, -, h₁⟩ := bind_eq_ok.1 h₁
    obtain rfl := Except.ok.inj h₁
    obtain ⟨ho, ht⟩ := pushTrap_foldlM_eq h
    simp [ho, ht]

theorem pushTraps_eq {debug : Bool} {func : FunctionLoc} {traps : List TrapInfo}
    {b b' : TrapsBuilder} (h : b.pushTraps debug func traps = .ok b') :
    b'.offsets = b.offsets ++ traps.map (func.start + ·.offset)
      ∧ b'.traps = b.traps ++ traps.map TrapInfo.trap := by
  unfold TrapsBuilder.pushTraps at h
  obtain ⟨b₁, h₁, h⟩ := bind_eq_ok.1 h
  obtain ⟨_, -, h⟩ := bind_eq_ok.1 h
  obtain rfl := Except.ok.inj h
  obtain ⟨ho, ht⟩ := pushTrap_foldlM_eq h₁
  exact ⟨ho, ht⟩

theorem size_le_resolveRelocs {tb : TextSectionBuilder σ} {size : σ → ℕ} (htb : TextAppends tb size)
    {debug : Bool} {indices : Indices} {m : ModuleFunctions} {off : ℕ} :
    ∀ {relocs : List Relocation} {s s' : σ} {calls : List ResolveCall},
    resolveRelocs debug tb indices m off s relocs = .ok (s', calls) → size s ≤ size s'
  | [], s, s', calls, h => by
    obtain ⟨rfl, -⟩ := Prod.mk.inj (Except.ok.inj h)
    exact le_rfl
  | r :: relocs, s, s', calls, h => by
    unfold resolveRelocs at h
    obtain ⟨target, -, h⟩ := bind_eq_ok.1 h
    cases debug with
    | false => exact size_le_resolveRelocs htb h
    | true =>
      simp only [if_true] at h
      obtain ⟨pos, -, h⟩ := bind_eq_ok.1 h
      obtain ⟨_, -, h⟩ := bind_eq_ok.1 h
      obtain ⟨⟨s₁, calls₁⟩, h₁, h⟩ := bind_eq_ok.1 h
      obtain ⟨rfl, -⟩ := Prod.mk.inj (Except.ok.inj h)
      exact (htb.resolve s pos r.kind r.addend target).trans (size_le_resolveRelocs htb h₁)

/-- The table has the traps of the outputs that are linked so far. -/
structure Sited (size : σ → ℕ) (done : List CompileOutput) (s : LinkState σ) : Prop where
  locs : s.locs.length = done.length
  offsets : s.traps.offsets = (sites done s.locs).map Prod.fst
  traps : s.traps.traps = (sites done s.locs).map Prod.snd
  sorted : (sites done s.locs).Pairwise fun x y => x.1 < y.1
  inside : ∀ x ∈ sites done s.locs, x.1 < size s.text

section Run

variable {tb : TextSectionBuilder σ} {size : σ → ℕ} {debug : Bool} {indices : Indices}
  {m : ModuleFunctions}

theorem linkOutput_sited (htb : TextAppends tb size) {done : List CompileOutput} {o : CompileOutput}
    (ho : TrapsOk o.function) {s s' : LinkState σ}
    (h : linkOutput debug tb indices m s o = .ok s') (hs : Sited size done s) :
    Sited size (done ++ [o]) s' := by
  obtain ⟨hoff, hend⟩ := htb.append s.text o.function.buffer o.function.alignment
  obtain ⟨relocs, text, calls, infos, traps, -, hres, hinfos, htraps, rfl⟩ := linkOutput_cases h
  have hsize := size_le_resolveRelocs htb hres
  obtain ⟨hoffsets, htraps⟩ := pushTraps_eq htraps
  have hsites := traps_eq_sites (locOf tb s.text o) hinfos
  have hcat : sites (done ++ [o]) (s.locs ++ [locOf tb s.text o])
      = sites done s.locs ++ o.sites (locOf tb s.text o) := by
    unfold sites
    rw [List.zipWith_append hs.locs.symm]
    simp
  refine ⟨by simp [hs.locs], ?_, ?_, ?_, fun x hx => ?_⟩
  · rw [hcat, List.map_append, ← hs.offsets, ← hsites, List.map_map]
    exact hoffsets
  · rw [hcat, List.map_append, ← hs.traps, ← hsites, List.map_map]
    exact htraps
  · rw [hcat]
    refine List.pairwise_append.2 ⟨hs.sorted, ho.sites_sorted _, fun x hx y hy => ?_⟩
    exact (hs.inside x hx).trans_le (hoff.trans (ho.mem_sites hy).1)
  · rw [hcat] at hx
    show x.1 < size text
    rcases List.mem_append.1 hx with hx | hx
    · have := hs.inside x hx
      omega
    · exact ((ho.mem_sites hx).2.trans_le hend).trans_le hsize

theorem foldlM_linkOutput_sited (htb : TextAppends tb size) : ∀ {rest done : List CompileOutput}
    {s s' : LinkState σ}, (∀ o ∈ rest, TrapsOk o.function) →
    rest.foldlM (linkOutput debug tb indices m) s = .ok s' → Sited size done s →
    Sited size (done ++ rest) s'
  | [], done, s, s', _, h, hs => by
    obtain rfl := Except.ok.inj h
    rwa [List.append_nil]
  | o :: rest, done, s, s', ho, h, hs => by
    rw [List.foldlM_cons] at h
    obtain ⟨s₁, h₁, h⟩ := bind_eq_ok.1 h
    have hs₁ := linkOutput_sited htb (ho o List.mem_cons_self) h₁ hs
    have := foldlM_linkOutput_sited htb (fun o' ho' => ho o' (List.mem_cons_of_mem _ ho')) h hs₁
    rwa [List.append_assoc] at this

/-- The table of a linked module has the traps of its outputs, in strict order. -/
theorem linkAndFinish_sites (htb : TextAppends tb size) {u : UnlinkedCompileOutputs}
    (hu : ∀ o ∈ u.outputs, TrapsOk o.function) {linked : Linked}
    (h : linkAndFinish debug tb m u = .ok linked) :
    linked.trapOffsets = (sites u.outputs linked.locs).map Prod.fst
      ∧ linked.traps = (sites u.outputs linked.locs).map Prod.snd
      ∧ linked.trapOffsets.Pairwise (· < ·)
      ∧ ∀ x ∈ sites u.outputs linked.locs, x.1 < linked.text.length := by
  unfold linkAndFinish at h
  obtain ⟨s, hs, h⟩ := bind_eq_ok.1 h
  obtain ⟨funcs, -, h⟩ := bind_eq_ok.1 h
  obtain rfl := Except.ok.inj h
  have hinit : Sited size [] ⟨tb.init, ⟨[], [], 0⟩, [], []⟩ := ⟨rfl, rfl, rfl, .nil, by simp [sites]⟩
  have hsited := foldlM_linkOutput_sited htb hu hs hinit
  rw [List.nil_append] at hsited
  refine ⟨hsited.offsets, hsited.traps, ?_, fun x hx => ?_⟩
  · show s.traps.offsets.Pairwise _
    rw [hsited.offsets]
    exact List.pairwise_map.2 hsited.sorted
  · exact (hsited.inside x hx).trans_le (htb.finish s.text)

end Run

end Compile

open Compile

/-! ## The registry -/

namespace CodeMemory

/-- `pc` is an address in the text section. -/
def Contains (code : CodeMemory) (pc : ℕ) : Prop := code.base ≤ pc ∧ pc < code.textEnd

/-- The text sections do not overlap. -/
def Disjoint (a b : CodeMemory) : Prop := a.textEnd ≤ b.base ∨ b.textEnd ≤ a.base

instance : Std.Symm Disjoint := ⟨fun _ _ => Or.symm⟩

/-- The entry of a region. -/
def entry (code : CodeMemory) : ℕ × ℕ × CodeMemory := (code.textEnd - 1, code.base, code)

end CodeMemory

namespace GlobalRegistry

/-- The entries of the registry are those of the regions that have code. -/
def Registered (reg : GlobalRegistry) (codes : List CodeMemory) : Prop :=
  ∀ e, e ∈ reg.entries ↔ ∃ code ∈ codes, code.len ≠ 0 ∧ e = code.entry

theorem registerCode_ok {reg : GlobalRegistry} {done : List CodeMemory} {code : CodeMemory}
    (hreg : reg.Registered done) (haddr : code.textEnd < 2 ^ 64)
    (hdisj : ∀ c ∈ done, c.Disjoint code) :
    ∃ reg', reg.registerCode code = .ok reg' ∧ reg'.Registered (done ++ [code]) := by
  unfold registerCode
  by_cases hlen : code.len = 0
  · rw [if_pos hlen]
    refine ⟨reg, rfl, fun e => (hreg e).trans ⟨?_, ?_⟩⟩
    · rintro ⟨c, hc, h⟩
      exact ⟨c, List.mem_append_left _ hc, h⟩
    · rintro ⟨c, hc, hne, he⟩
      rcases List.mem_append.1 hc with hc | hc
      · exact ⟨c, hc, hne, he⟩
      · exact absurd hlen (List.mem_singleton.1 hc ▸ hne)
  · rw [if_neg hlen]
    -- The last address of the region is in no other one.
    have hfresh : ∀ e ∈ reg.entries, e.1 ≠ code.textEnd - 1 := by
      intro e he heq
      obtain ⟨c, hc, hne, rfl⟩ := (hreg e).1 he
      have hd := hdisj c hc
      unfold CodeMemory.Disjoint at hd
      unfold CodeMemory.entry at heq
      unfold CodeMemory.textEnd at hd heq
      simp only at heq
      omega
    have hadd : addOrPanic code.base code.len = .ok code.textEnd := if_pos haddr
    have hsub : subOrPanic code.textEnd 1 = .ok (code.textEnd - 1) := by
      refine if_pos ?_
      unfold CodeMemory.textEnd
      omega
    have hnone : assertThat (SortedMap.get reg (code.textEnd - 1)).isNone
        "assertion failed: prev.is_none()" = .ok () := by
      rw [SortedMap.get_eq_none hfresh]
      rfl
    refine ⟨reg.insert (code.textEnd - 1) (code.base, code), ?_, fun e => ?_⟩
    · rw [hadd]
      simp only [bind, Except.bind, hsub, hnone]
      rfl
    · rw [SortedMap.mem_insert hfresh, hreg e]
      constructor
      · rintro (rfl | ⟨c, hc, h⟩)
        · exact ⟨code, List.mem_append_right _ List.mem_cons_self, hlen, rfl⟩
        · exact ⟨c, List.mem_append_left _ hc, h⟩
      · rintro ⟨c, hc, hne, he⟩
        rcases List.mem_append.1 hc with hc | hc
        · exact .inr ⟨c, hc, hne, he⟩
        · exact .inl (List.mem_singleton.1 hc ▸ he)

theorem foldlM_registerCode_ok : ∀ {codes done : List CodeMemory} {reg : GlobalRegistry},
    reg.Registered done → (∀ c ∈ codes, c.textEnd < 2 ^ 64) →
    (done ++ codes).Pairwise CodeMemory.Disjoint →
    ∃ reg', codes.foldlM registerCode reg = .ok reg' ∧ reg'.Registered (done ++ codes)
  | [], done, reg, hreg, _, _ => ⟨reg, rfl, by rwa [List.append_nil]⟩
  | code :: codes, done, reg, hreg, haddr, hdisj => by
    obtain ⟨reg₁, h₁, hreg₁⟩ := registerCode_ok hreg (haddr code List.mem_cons_self)
      fun c hc => (List.pairwise_append.1 hdisj).2.2 c hc code List.mem_cons_self
    obtain ⟨reg', h', hreg'⟩ := foldlM_registerCode_ok hreg₁
      (fun c hc => haddr c (List.mem_cons_of_mem _ hc)) (by simpa using hdisj)
    refine ⟨reg', ?_, by simpa using hreg'⟩
    rw [List.foldlM_cons, h₁]
    exact h'

variable {reg : GlobalRegistry} {codes : List CodeMemory}

/-- An address in a region is looked up there. -/
theorem Registered.lookupCode_eq (hreg : reg.Registered codes)
    (hdisj : codes.Pairwise CodeMemory.Disjoint) {code : CodeMemory} (hcode : code ∈ codes) {pc : ℕ}
    (hpc : code.Contains pc) : reg.lookupCode pc = some (code, pc - code.base) := by
  obtain ⟨hle, hlt⟩ := hpc
  have hne : code.len ≠ 0 := by
    unfold CodeMemory.textEnd at hlt
    omega
  have hfirst : SortedMap.firstFrom reg pc = some code.entry := by
    refine SortedMap.firstFrom_eq_some ((hreg _).2 ⟨code, hcode, hne, rfl⟩) (Nat.le_sub_one_of_lt hlt)
      fun f hf hlast => ?_
    obtain ⟨c, hc, hcne, rfl⟩ := (hreg f).1 hf
    have hcc : c ≠ code := by
      rintro rfl
      exact lt_irrefl _ hlast
    have hd := hdisj.forall hc hcode hcc
    unfold CodeMemory.Disjoint at hd
    unfold CodeMemory.entry at hlast ⊢
    unfold CodeMemory.textEnd at hd hlast hlt ⊢
    simp only at hlast ⊢
    omega
  unfold lookupCode
  rw [hfirst]
  show (do
    let textOffset ← if code.base ≤ pc then some (pc - code.base) else none
    some (code, textOffset)) = some (code, pc - code.base)
  rw [if_pos hle]
  rfl

/-- An address outside of all regions is not found. -/
theorem Registered.lookupCode_eq_none (hreg : reg.Registered codes) {pc : ℕ}
    (hpc : ∀ code ∈ codes, ¬ code.Contains pc) : reg.lookupCode pc = none := by
  unfold lookupCode
  rcases hfirst : SortedMap.firstFrom reg pc with _ | e
  · rfl
  · obtain ⟨code, hcode, hne, rfl⟩ := (hreg e).1 (List.mem_of_find?_eq_some hfirst)
    have hfound := List.find?_some hfirst
    have hle : pc ≤ code.textEnd - 1 := of_decide_eq_true hfound
    show (do
      let textOffset ← if code.base ≤ pc then some (pc - code.base) else none
      some (code, textOffset)) = none
    have hnot : ¬ code.base ≤ pc := by
      intro hbase
      refine hpc code hcode ⟨hbase, ?_⟩
      unfold CodeMemory.textEnd at hle ⊢
      omega
    rw [if_neg hnot]
    rfl

end GlobalRegistry

/-! ## Regions -/

/-- The code of a linked module at an address, with the builder of its text section. -/
structure CodeRegion where
  {σ : Type}
  builder : TextSectionBuilder σ
  base : ℕ
  outputs : List CompileOutput
  linked : Linked

namespace CodeRegion

/-- The region as it is registered. -/
def code (r : CodeRegion) : CodeMemory :=
  .new r.base r.linked.text r.linked.trapOffsets r.linked.traps

/-- The region comes from linking, and its text section is no larger than an offset can tell. -/
inductive Built : CodeRegion → Prop where
  | mk {σ : Type} {tb : TextSectionBuilder σ} {size : σ → ℕ} {debug : Bool} {m : ModuleFunctions}
    {u : UnlinkedCompileOutputs} {linked : Linked} {base : ℕ} (append : TextAppends tb size)
    (traps : ∀ o ∈ u.outputs, TrapsOk o.function)
    (link : linkAndFinish debug tb m u = .ok linked) (fits : linked.text.length ≤ 2 ^ 32)
    (address : base + linked.text.length < 2 ^ 64) : Built ⟨tb, base, u.outputs, linked⟩

/-- The trap `t` is recorded for the address `pc`, in the code of an output. -/
def TrapSite (r : CodeRegion) (pc : ℕ) (t : Trap) : Prop :=
  ∃ (n : ℕ) (o : CompileOutput) (off : ℕ), r.outputs[n]? = some o
    ∧ AppendedAt r.builder r.outputs r.linked n off
    ∧ ∃ trap ∈ o.function.machTraps, Trap.fromTrapCode trap.code = some t
      ∧ pc = r.base + (off + trap.offset)

theorem Built.trapSite_iff {r : CodeRegion} (h : r.Built) {pc : ℕ} {t : Trap} :
    r.TrapSite pc t ↔ ∃ x ∈ sites r.outputs r.linked.locs, x.2 = t ∧ pc = r.base + x.1 := by
  obtain @⟨σ, tb, size, debug, m, u, linked, base, -, -, hlink, -, -⟩ := h
  constructor
  · rintro ⟨n, o, off, ho, happ, trap, htrap, hcode, rfl⟩
    have hloc : linked.locs[n]? = some ⟨off, o.function.buffer.length⟩ :=
      (linkAndFinish_locs hlink ho).2 ⟨happ, rfl⟩
    exact ⟨(off + trap.offset, t), mem_sites.2 ⟨n, o, _, ho, hloc, trap, htrap, hcode, rfl⟩, rfl, rfl⟩
  · rintro ⟨x, hx, rfl, rfl⟩
    obtain ⟨n, o, loc, ho, hloc, trap, htrap, hcode, hx⟩ := mem_sites.1 hx
    exact ⟨n, o, loc.start, ho, ((linkAndFinish_locs hlink ho).1 hloc).1, trap, htrap, hcode,
      by rw [hx]⟩

theorem Built.contains {r : CodeRegion} (h : r.Built) {pc : ℕ} {t : Trap} (ht : r.TrapSite pc t) :
    r.code.Contains pc := by
  obtain ⟨x, hx, -, rfl⟩ := h.trapSite_iff.1 ht
  obtain @⟨σ, tb, size, debug, m, u, linked, base, happ, htraps, hlink, -, -⟩ := h
  exact ⟨Nat.le_add_right _ _,
    Nat.add_lt_add_left ((linkAndFinish_sites happ htraps hlink).2.2.2 x hx) _⟩

theorem Built.textEnd_lt {r : CodeRegion} (h : r.Built) : r.code.textEnd < 2 ^ 64 := by
  obtain ⟨-, -, -, -, haddr⟩ := h
  exact haddr

/-- The search in the table of a region finds the traps that are recorded. -/
theorem Built.lookupTrapCode {r : CodeRegion} (h : r.Built) {pc : ℕ} (hpc : r.code.Contains pc) :
    ∃ o, r.code.lookupTrapCode (pc - r.base) = .ok o ∧ ∀ t, o = some t ↔ r.TrapSite pc t := by
  have hrec : ∀ t, r.TrapSite pc t ↔ ∃ x ∈ sites r.outputs r.linked.locs, x.2 = t ∧ pc = r.base + x.1 :=
    fun _ => h.trapSite_iff
  obtain @⟨σ, tb, size, debug, m, u, linked, base, happ, htraps, hlink, hfits, -⟩ := h
  obtain ⟨hoffs, htrs, hsorted, -⟩ := linkAndFinish_sites happ htraps hlink
  obtain ⟨hle, hlt⟩ := hpc
  have hoff : pc - base < 2 ^ 32 := by
    have hlt : pc < base + linked.text.length := hlt
    omega
  have hsite : ∀ t, (⟨tb, base, u.outputs, linked⟩ : CodeRegion).TrapSite pc t ↔
      (pc - base, t) ∈ sites u.outputs linked.locs := by
    intro t
    rw [hrec]
    constructor
    · rintro ⟨x, hx, rfl, rfl⟩
      rwa [Nat.add_sub_cancel_left]
    · exact fun hx => ⟨_, hx, rfl, (Nat.add_sub_cancel' hle).symm⟩
  have hkey : toU32 (pc - base) = .ok (pc - base) := if_pos hoff
  simp only [CodeMemory.lookupTrapCode, CodeRegion.code, CodeMemory.new, hkey, bind, Except.bind]
  rcases hs : binarySearch linked.trapOffsets (pc - base) with _ | i
  · refine ⟨none, rfl, fun t => ⟨nofun, fun ht => ?_⟩⟩
    -- A recorded offset is in the table, where the search finds it.
    have hmem : pc - base ∈ linked.trapOffsets := by
      rw [hoffs]
      exact List.mem_map.2 ⟨_, (hsite t).1 ht, rfl⟩
    obtain ⟨i, hi⟩ := List.mem_iff_getElem?.1 hmem
    rw [(binarySearch_eq_some hsorted).2 hi] at hs
    cases hs
  · have hi := (binarySearch_eq_some hsorted).1 hs
    rw [hoffs, List.getElem?_map, Option.map_eq_some_iff] at hi
    obtain ⟨⟨o, t⟩, hx, rfl⟩ := hi
    have hget : linked.traps[i]? = some t := by
      rw [htrs, List.getElem?_map, hx]
      rfl
    refine ⟨some t, ?_, fun t' => ?_⟩
    · show some <$> unwrap "index out of bounds" linked.traps[i]? = _
      rw [hget]
      rfl
    rw [hsite, Option.some_inj]
    constructor
    · rintro rfl
      exact List.mem_of_getElem? hx
    · intro hx'
      -- Two sites of one offset are one entry of the table.
      obtain ⟨j, hj⟩ := List.mem_iff_getElem?.1 hx'
      have hoffj : linked.trapOffsets[j]? = some (pc - base) := by
        rw [hoffs, List.getElem?_map, hj]
        rfl
      have hij := (binarySearch_eq_some hsorted).2 hoffj
      rw [hs, Option.some_inj] at hij
      subst hij
      rw [hx] at hj
      exact congrArg Prod.snd (Option.some_inj.1 hj)

end CodeRegion

section Example

/-- A builder that pads to the alignment of a function. -/
def paddingBuilder : TextSectionBuilder (List UInt8) where
  init := []
  append s body align :=
    let padding := (align - s.length % align) % align
    (s.length + padding, s ++ List.replicate padding 0 ++ body)
  resolveReloc s _ _ _ _ := (true, s)
  finish s := s

theorem paddingBuilder_appends : TextAppends paddingBuilder List.length where
  append s body _ := ⟨Nat.le_add_right _ _, by simp [paddingBuilder, Nat.add_assoc]⟩
  resolve _ _ _ _ _ := le_rfl
  finish _ := le_rfl

/-- A function that traps at its second byte. -/
def trappingFunction : CompiledFunction where
  buffer := [0x90, 0x0f, 0x0b]
  relocs := []
  machTraps := [⟨1, .unreachable⟩]
  nameMap := []
  alignment := 4
  startSrcloc := 0

/-- Two such functions. -/
def trappingOutputs : UnlinkedCompileOutputs :=
  let outputs := [⟨.wasmFunction 0, trappingFunction, "wasm[0]::function[0]"⟩,
    ⟨.wasmFunction 1, trappingFunction, "wasm[0]::function[1]"⟩]
  ⟨fileOutputs 0 .empty outputs, outputs⟩

def trappingLinked : Linked where
  text := [0x90, 0x0f, 0x0b, 0, 0x90, 0x0f, 0x0b]
  funcs := [⟨⟨0, 3⟩, none, 0⟩, ⟨⟨4, 3⟩, none, 0⟩]
  trapOffsets := [1, 5]
  traps := [.unreachableCodeReached, .unreachableCodeReached]
  locs := [⟨0, 3⟩, ⟨4, 3⟩]
  calls := [[], []]

/-- The code at two addresses, one right behind the other. -/
def trappingRegions : List CodeRegion :=
  [⟨paddingBuilder, 4096, trappingOutputs.outputs, trappingLinked⟩,
    ⟨paddingBuilder, 4103, trappingOutputs.outputs, trappingLinked⟩]

theorem trappingRegions_built : ∀ r ∈ trappingRegions, r.Built := by
  have hlink : linkAndFinish true paddingBuilder ⟨0, [false, false]⟩ trappingOutputs
      = .ok trappingLinked := rfl
  have htraps : ∀ o ∈ trappingOutputs.outputs, TrapsOk o.function := by
    have hfunction : TrapsOk trappingFunction := by
      refine ⟨List.pairwise_singleton _ _, fun t ht => ?_⟩
      obtain rfl := List.mem_singleton.1 ht
      decide
    intro o ho
    simp only [trappingOutputs, List.mem_cons, List.not_mem_nil, or_false] at ho
    rcases ho with rfl | rfl <;> exact hfunction
  intro r hr
  simp only [trappingRegions, List.mem_cons, List.not_mem_nil, or_false] at hr
  rcases hr with rfl | rfl
  · exact .mk paddingBuilder_appends htraps hlink (by decide) (by decide)
  · exact .mk paddingBuilder_appends htraps hlink (by decide) (by decide)

theorem trappingRegions_disjoint :
    trappingRegions.Pairwise fun r r' => r.code.Disjoint r'.code := by
  unfold trappingRegions
  simp [CodeMemory.Disjoint, CodeMemory.textEnd, CodeRegion.code, CodeMemory.new, trappingLinked]

end Example

end K23VM
