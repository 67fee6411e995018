import K23VM.Cranelift.Memory
import Mathlib.Tactic

/-!
# Heap bounds checks

The code `prepareAddr` emits for an access to a 32-bit memory is followed through its three
shapes.  The shape without a comparison is chosen from `bound + guard + (offset + size)`, where
the argument in the source needs `bound + guard - (offset + size)`; `boundsCheckSound_iff` says
for which memories and accesses that makes no difference.
-/

namespace K23VM.Cranelift

open StraightLine CraneliftMemory

/-- Code that computes the address of `index + offset` without a comparison and leaves the older
values alone. -/
structure ComputesAddr (mem : CraneliftMemory) (index : ℕ) (offset : ℕ) (n a n' : ℕ)
    (c : List (Inst TrapCode)) : Prop where
  lt : a < n'
  le : n ≤ n'
  noIcmp : c.any Inst.isIcmp = false
  run : ∀ gv ρ, ∃ ρ', run gv ρ c = .ok ρ'
    ∧ ρ' a = (gv mem.baseGv + ρ index + offset) % 2 ^ 64
    ∧ ∀ y < n, ρ' y = ρ y

theorem computeAddr_emits_zero (mem : CraneliftMemory) (index n : ℕ) :
    Emits (mem.computeAddr .I64 index 0) n (n + 1) (n + 2)
      [.globalValue mem.baseGv n, .iadd .I64 n index (n + 1)] :=
  emits_bind (emits_ins _ _) (emits_bind (emits_ins _ _) (emits_pure _ _))

theorem computeAddr_emits_offset (mem : CraneliftMemory) (index n : ℕ) {offset : ℕ}
    (h : offset ≠ 0) :
    Emits (mem.computeAddr .I64 index offset) n (n + 3) (n + 4)
      [.globalValue mem.baseGv n, .iadd .I64 n index (n + 1), .iconst .I64 offset (n + 2),
        .iadd .I64 (n + 1) (n + 2) (n + 3)] := by
  refine emits_bind (emits_ins _ _) (emits_bind (emits_ins _ _) ?_)
  rw [if_neg h]
  exact emits_bind (emits_ins _ _) (emits_ins _ _)

theorem computeAddr_emits (mem : CraneliftMemory) {index n : ℕ} (h : index < n) {offset : ℕ}
    (ho : offset < 2 ^ 32) :
    ∃ a n' c, Emits (mem.computeAddr .I64 index offset) n a n' c
      ∧ ComputesAddr mem index offset n a n' c := by
  have hne : index ≠ n := by omega
  by_cases h0 : offset = 0
  · subst h0
    refine ⟨_, _, _, computeAddr_emits_zero mem index n,
      ⟨by omega, by omega, rfl, fun gv ρ => ⟨_, rfl, ?_, ?_⟩⟩⟩
    · simp [IntTy.bits, hne]
    · intro y hy
      rw [Function.update_of_ne (by omega), Function.update_of_ne (by omega)]
  · refine ⟨_, _, _, computeAddr_emits_offset mem index n h0,
      ⟨by omega, by omega, rfl, fun gv ρ => ⟨_, rfl, ?_, ?_⟩⟩⟩
    · simp [IntTy.bits, hne]
    · intro y hy
      rw [Function.update_of_ne (by omega), Function.update_of_ne (by omega),
        Function.update_of_ne (by omega), Function.update_of_ne (by omega)]

/-- What the code of a checked access does: it traps, selects the null address, or computes the
address, as the comparison came out. -/
structure ChecksAddr (mem : CraneliftMemory) (index oob : ℕ) (offset : ℕ) (a : ℕ)
    (c : List (Inst TrapCode)) : Prop where
  inBounds : ∀ gv ρ, ρ oob = 0 → ∃ ρ', run gv ρ c = .ok ρ'
    ∧ ρ' a = (gv mem.baseGv + ρ index + offset) % 2 ^ 64
  outOfBounds : ∀ gv ρ, ρ oob ≠ 0 → run gv ρ c = .error .heapOutOfBounds
    ∨ ∃ ρ', run gv ρ c = .ok ρ' ∧ ρ' a = 0

theorem guardedAddrFact_eq_ok {pcc : Option (ℕ × ℕ)} {size : ℕ} (hp : ∀ p ∈ pcc, size ≤ p.2) :
    guardedAddrFact pcc size = .ok () := by
  rcases pcc with _ | p
  · rfl
  · simp [guardedAddrFact, checkedSub, hp p rfl]

theorem uncheckedRegionFact_eq_ok {mem : CraneliftMemory}
    (h : mem.bound + mem.offsetGuardSize < 2 ^ 64) : mem.uncheckedRegionFact = .ok () := by
  unfold uncheckedRegionFact
  cases mem.memoryType
  · rfl
  · simp only [addOrPanic, if_pos h]
    rfl

theorem explicitCheck_emits (mem : CraneliftMemory) {index oob n : ℕ} (hi : index < n)
    (hb : oob < n) {offset size : ℕ} (ho : offset < 2 ^ 32) (spectre : Bool)
    {pcc : Option (ℕ × ℕ)} (hp : ∀ p ∈ pcc, size ≤ p.2) :
    ∃ a n' c, Emits (mem.explicitCheckOobConditionAndComputeAddr .I64 index offset size spectre
        pcc oob) n a n' c ∧ ChecksAddr mem index oob offset a c := by
  obtain ⟨a, n', c, he, hc⟩ := computeAddr_emits mem hi ho
  cases spectre
  · refine ⟨a, n', [.trapnz oob .heapOutOfBounds] ++ (c ++ []),
      emits_bind (emits_ins_ _ _) (emits_bind he (emits_pure _ _)), ⟨?_, ?_⟩⟩
    · intro gv ρ h
      obtain ⟨ρ', hr, ha, -⟩ := hc.run gv ρ
      exact ⟨ρ', by simp [Inst.run, h, hr, bind, Except.bind], ha⟩
    · intro gv ρ h
      left
      simp [Inst.run, h, bind, Except.bind]
  · refine ⟨n' + 1, n' + 2, c ++ ([.iconst .I64 0 n'] ++
      ([.selectSpectreGuard oob n' a (n' + 1)] ++ ([] ++ []))),
      emits_bind he (emits_bind (emits_ins _ _) (emits_bind (emits_ins _ _)
        (emits_bind (emits_lift (guardedAddrFact_eq_ok hp) _) (emits_pure _ _)))), ⟨?_, ?_⟩⟩
    all_goals
      have hlt := hc.lt
      have hle := hc.le
      have h1 : oob ≠ n' := by omega
      have h2 : a ≠ n' := by omega
      intro gv ρ h
      obtain ⟨ρ', hr, ha, hf⟩ := hc.run gv ρ
    · refine ⟨_, by simp [run_append, hr, Inst.run, bind, Except.bind]; rfl, ?_⟩
      simp [h1, h2, hf oob hb, h, ha]
    · refine .inr ⟨_, by simp [run_append, hr, Inst.run, bind, Except.bind]; rfl, ?_⟩
      simp [h1, hf oob hb, h]

/-- A memory and an access the emitted code is for: 32-bit indices on a 64-bit target, a page size
that allows guard pages, a heap that fits the address space. -/
structure Accessible (mem : CraneliftMemory) (isa : TargetIsa) (offset size : ℕ) : Prop where
  indexType : mem.indexType = .I32
  pointerType : isa.pointerType = .I64
  pageSize : isa.pageSizeAlignLog2 ≤ mem.pageSizeLog2
  heap : mem.bound + mem.offsetGuardSize < 2 ^ 64
  offset : offset < 2 ^ 32
  size_pos : 1 ≤ size
  size_le : size ≤ 16

section Shapes

variable {mem : CraneliftMemory} {isa : TargetIsa} {offset size : ℕ}

theorem castIndex_emits (h : Accessible mem isa offset size) (x n : ℕ) :
    Emits (castIndexToPointerTy x mem.indexType isa.pointerType) n n (n + 1)
      [.uextend .I64 x n] := by
  rw [h.indexType, h.pointerType]
  exact emits_bind (emits_lift (assertThat_true _) _) (emits_ins _ _)

theorem pageSize_assert (h : Accessible mem isa offset size) (msg : String) :
    assertThat (isa.pageSizeAlignLog2 ≤ mem.pageSizeLog2) msg = .ok () := by
  simp [h.pageSize]

/-- Whether the check is left to the guard pages. -/
def elided (mem : CraneliftMemory) (offset size : ℕ) : Prop :=
  2 ^ 32 - 1 ≤ mem.bound + mem.offsetGuardSize + (offset + size)

theorem elided_iff (h : Accessible mem isa offset size) :
    (mem.indexType = .I32 ∧ 2 ^ 32 - 1
      ≤ saturatingAdd (saturatingAdd mem.bound mem.offsetGuardSize) (offset + size))
      ↔ elided mem offset size := by
  have := h.heap
  simp only [h.indexType, true_and, saturatingAdd, U64_MAX, elided]
  omega

theorem boundsCheck_emits_trap (h : Accessible mem isa offset size)
    (hb : mem.bound < offset + size) (x n : ℕ) :
    Emits (mem.boundsCheckAndComputeAddr isa x offset size) n .unreachable (n + 1)
      [.uextend .I64 x n, .trap .heapOutOfBounds] := by
  refine emits_bind (castIndex_emits h x n) (emits_bind (emits_lift (pageSize_assert h _) _) ?_)
  rw [if_pos hb]
  exact emits_bind (emits_ins_ _ _) (emits_pure _ _)

theorem boundsCheck_emits_elided (h : Accessible mem isa offset size)
    (hb : offset + size ≤ mem.bound) (he : elided mem offset size) (x n : ℕ) :
    ∃ a n' c, Emits (mem.boundsCheckAndComputeAddr isa x offset size) n (.reachable a) n'
        (.uextend .I64 x n :: c) ∧ ComputesAddr mem n offset (n + 1) a n' c := by
  obtain ⟨a, n', c, hc, hca⟩ := computeAddr_emits mem (Nat.lt_succ_self n) h.offset
  refine ⟨a, n', [] ++ ([] ++ (c ++ [])), ?_, by simpa using hca⟩
  refine emits_bind (castIndex_emits h x n) (emits_bind (d := [] ++ (c ++ []))
    (emits_lift (pageSize_assert h _) _) ?_)
  rw [if_neg (by omega), if_pos ((elided_iff h).2 he), h.pointerType]
  exact emits_bind (d := c ++ []) (emits_lift (uncheckedRegionFact_eq_ok h.heap) _)
    (emits_bind hc (emits_pure _ _))

theorem boundsCheck_emits_checked (h : Accessible mem isa offset size)
    (hb : offset + size ≤ mem.bound) (he : ¬elided mem offset size) (x n : ℕ) :
    ∃ a n' c, Emits (mem.boundsCheckAndComputeAddr isa x offset size) n (.reachable a) n'
        (.uextend .I64 x n :: .iconst .I64 (mem.bound - (offset + size)) (n + 1)
          :: .icmp .unsignedGreaterThan n (n + 1) (n + 2) :: c)
      ∧ ChecksAddr mem n (n + 2) offset a c := by
  have hp : ∀ p ∈ mem.memoryType.map fun ty => (ty, mem.bound), size ≤ p.2 := by
    intro p hp
    obtain ⟨ty, -, rfl⟩ := Option.map_eq_some_iff.1 hp
    simp only
    omega
  obtain ⟨a, n', c, hc, hca⟩ := explicitCheck_emits mem (show n < n + 3 by omega)
    (show n + 2 < n + 3 by omega) h.offset isa.heapAccessSpectreMitigation hp
  have hsub : checkedSub mem.bound (offset + size) = .ok (mem.bound - (offset + size)) := if_pos hb
  have hi64 : toI64 (mem.bound - (offset + size)) = .ok (mem.bound - (offset + size)) := by
    unfold elided at he
    exact if_pos (by omega)
  refine ⟨a, n', c ++ [], ?_, by simpa using hca⟩
  refine emits_bind (castIndex_emits h x n) (emits_bind (emits_lift (pageSize_assert h _) _) ?_)
  rw [if_neg (by omega), if_neg (fun h' => he ((elided_iff h).1 h')), h.pointerType]
  exact emits_bind (emits_lift hsub _) (emits_bind (emits_lift hi64 _)
    (emits_bind (emits_ins _ _) (emits_bind (emits_ins _ _) (emits_bind hc (emits_pure _ _)))))

theorem prepareAddr_emits_trap (h : Accessible mem isa offset size) {x n n' : ℕ}
    {c : List (Inst TrapCode)}
    (hc : Emits (mem.boundsCheckAndComputeAddr isa x offset size) n .unreachable n' c) :
    Emits (mem.prepareAddr isa x size ⟨offset⟩) n .unreachable n' c := by
  unfold prepareAddr
  simp only [if_pos h.offset]
  rw [← List.append_nil c]
  exact emits_bind hc (emits_pure _ _)

theorem prepareAddr_emits_addr (h : Accessible mem isa offset size) {x n n' a : ℕ}
    {c : List (Inst TrapCode)}
    (hc : Emits (mem.boundsCheckAndComputeAddr isa x offset size) n (.reachable a) n' c) :
    ∃ flags, Emits (mem.prepareAddr isa x size ⟨offset⟩) n (.reachable (flags, x, a)) n' c := by
  unfold prepareAddr
  simp only [if_pos h.offset]
  rw [← List.append_nil c]
  exact ⟨_, emits_bind hc (emits_pure _ _)⟩

end Shapes

/-- What the emitted code has to do at run time for an index, with the heap at `gv baseGv`: an
access in bounds is never stopped and gets its own address, an access whose comparison was emitted
gets an address only in bounds, one whose comparison was left out only up to the end of the guard
pages. -/
def AccessSound (mem : CraneliftMemory) (offset size x : ℕ) (gv : ℕ → ℕ) (ρ : Env)
    (r : Reachability (MemFlags × ℕ × ℕ)) (c : List (Inst TrapCode)) : Prop :=
  match run gv ρ c, r with
  | .error _, _ => ¬ρ x + offset + size ≤ mem.bound
  | .ok _, .unreachable => False
  | .ok ρ', .reachable (_, _, a) =>
    (c.any Inst.isIcmp = false → ρ x + offset + size ≤ mem.bound + mem.offsetGuardSize)
      ∧ (c.any Inst.isIcmp = true → ρ' a ≠ 0 → ρ x + offset + size ≤ mem.bound)
      ∧ (ρ x + offset + size ≤ mem.bound → ρ' a = gv mem.baseGv + ρ x + offset)

/-- `prepareAddr` emits sound code wherever it is called, for every 32-bit index and every heap
that lies in the address space with its guard pages. -/
def BoundsCheckSound (mem : CraneliftMemory) (isa : TargetIsa) (offset size : ℕ) : Prop :=
  ∀ (b : Builder TrapCode) (x : ℕ), x < b.next → ∃ r n c,
    mem.prepareAddr isa x size ⟨offset⟩ b = .ok (r, ⟨n, b.insts ++ c⟩)
      ∧ ∀ gv ρ, ρ x < 2 ^ 32 → gv mem.baseGv + mem.bound + mem.offsetGuardSize ≤ 2 ^ 64 →
        AccessSound mem offset size x gv ρ r c

section Sound

variable {mem : CraneliftMemory} {isa : TargetIsa} {offset size : ℕ}

theorem accessSound_trap (hb : mem.bound < offset + size) (x n : ℕ) (gv : ℕ → ℕ) (ρ : Env)
    (r : Reachability (MemFlags × ℕ × ℕ)) :
    AccessSound mem offset size x gv ρ r [.uextend .I64 x n, .trap .heapOutOfBounds] := by
  simp [AccessSound, Inst.run, bind, Except.bind]
  omega

theorem run_uextend_computeAddr {x n a n' : ℕ} {c : List (Inst TrapCode)}
    (hc : ComputesAddr mem n offset (n + 1) a n' c) (gv : ℕ → ℕ) (ρ : Env) :
    ∃ ρ', run gv ρ (.uextend .I64 x n :: c) = .ok ρ'
      ∧ ρ' a = (gv mem.baseGv + ρ x + offset) % 2 ^ 64 := by
  obtain ⟨ρ', hr, ha, -⟩ := hc.run gv (Function.update ρ n (ρ x))
  exact ⟨ρ', by simpa [Inst.run, bind, Except.bind] using hr, by simpa using ha⟩

theorem accessSound_elided_iff {x n a n' : ℕ} {c : List (Inst TrapCode)} {flags : MemFlags}
    (hc : ComputesAddr mem n offset (n + 1) a n' c) (hs : 1 ≤ size) {gv : ℕ → ℕ} {ρ : Env}
    (hg : gv mem.baseGv + mem.bound + mem.offsetGuardSize ≤ 2 ^ 64) :
    AccessSound mem offset size x gv ρ (.reachable (flags, x, a)) (.uextend .I64 x n :: c)
      ↔ ρ x + offset + size ≤ mem.bound + mem.offsetGuardSize := by
  obtain ⟨ρ', hr, ha⟩ := run_uextend_computeAddr (x := x) hc gv ρ
  have hi : (Inst.uextend IntTy.I64 x n :: c).any Inst.isIcmp = false := by
    simpa [Inst.isIcmp] using hc.noIcmp
  simp only [AccessSound, hr, hi, ha]
  constructor
  · exact fun h => h.1 trivial
  · refine fun h => ⟨fun _ => h, fun h => absurd h (by simp), fun hin => Nat.mod_eq_of_lt ?_⟩
    omega

theorem run_compare (gv : ℕ → ℕ) (ρ : Env) (x n k : ℕ) (hk : k < 2 ^ 64)
    (c : List (Inst TrapCode)) : ∃ ρ₁ : Env, ρ₁ n = ρ x ∧ (ρ₁ (n + 2) = 0 ↔ ρ x ≤ k) ∧
      run gv ρ (.uextend .I64 x n :: .iconst .I64 k (n + 1)
        :: .icmp .unsignedGreaterThan n (n + 1) (n + 2) :: c) = run gv ρ₁ c := by
  refine ⟨_, ?_, ?_, rfl⟩
  · simp
  · simp only [IntCC.holds, IntTy.bits, Function.update_self, Nat.mod_eq_of_lt hk]
    simp

theorem accessSound_checked {x n a : ℕ} {c : List (Inst TrapCode)} {flags : MemFlags}
    (hb : offset + size ≤ mem.bound) (hm : mem.bound + mem.offsetGuardSize < 2 ^ 64)
    (hs : 1 ≤ size) (hc : ChecksAddr mem n (n + 2) offset a c) {gv : ℕ → ℕ} {ρ : Env}
    (hg : gv mem.baseGv + mem.bound + mem.offsetGuardSize ≤ 2 ^ 64) :
    AccessSound mem offset size x gv ρ (.reachable (flags, x, a))
      (.uextend .I64 x n :: .iconst .I64 (mem.bound - (offset + size)) (n + 1)
        :: .icmp .unsignedGreaterThan n (n + 1) (n + 2) :: c) := by
  obtain ⟨ρ₁, hx, hoob, hrun⟩ :=
    run_compare gv ρ x n (mem.bound - (offset + size)) (by omega) c
  simp only [AccessSound, hrun]
  by_cases hle : ρ x ≤ mem.bound - (offset + size)
  · obtain ⟨ρ', hr, ha⟩ := hc.inBounds gv ρ₁ (hoob.2 hle)
    simp only [hr, ha, hx]
    refine ⟨fun _ => by omega, fun _ _ => by omega, fun _ => Nat.mod_eq_of_lt (by omega)⟩
  · rcases hc.outOfBounds gv ρ₁ (fun h => hle (hoob.1 h)) with hr | ⟨ρ', hr, ha⟩
    · simp only [hr]
      omega
    · simp only [hr, ha]
      refine ⟨fun h => ?_, fun _ h => absurd rfl h, fun _ => by omega⟩
      simp [Inst.isIcmp] at h

/-- Without a comparison the largest index reaches past the guard pages, unless they are wide
enough for it. -/
theorem not_boundsCheckSound (h : Accessible mem isa offset size) (hb : offset + size ≤ mem.bound)
    (he : elided mem offset size)
    (hfar : mem.bound + mem.offsetGuardSize < 2 ^ 32 - 1 + (offset + size)) :
    ¬BoundsCheckSound mem isa offset size := by
  have hm := h.heap
  intro hsound
  obtain ⟨a, n', c, hc, hca⟩ := boundsCheck_emits_elided h hb he 0 1
  obtain ⟨flags, hr⟩ := prepareAddr_emits_addr h hc
  obtain ⟨r', n'', c', hr', hacc⟩ := hsound ⟨1, []⟩ 0 (by simp)
  rw [hr []] at hr'
  simp only [List.nil_append, Except.ok.injEq, Prod.mk.injEq, Builder.mk.injEq] at hr'
  obtain ⟨rfl, rfl, rfl⟩ := hr'
  have hbase : (fun _ : ℕ => 0) mem.baseGv + mem.bound + mem.offsetGuardSize ≤ 2 ^ 64 := by
    show 0 + mem.bound + mem.offsetGuardSize ≤ 2 ^ 64
    omega
  have hacc := hacc (fun _ => 0) (fun _ => 2 ^ 32 - 1) (by norm_num) hbase
  rw [accessSound_elided_iff hca h.size_pos hbase] at hacc
  omega

/-- The check of an access is sound where it always traps, where the comparison is emitted, and
where leaving it out is justified by the guard pages. -/
theorem boundsCheckSound_iff (h : Accessible mem isa offset size) :
    BoundsCheckSound mem isa offset size ↔
      mem.bound < offset + size
        ∨ mem.bound + mem.offsetGuardSize + (offset + size) < 2 ^ 32 - 1
        ∨ 2 ^ 32 - 1 + (offset + size) ≤ mem.bound + mem.offsetGuardSize := by
  have hm := h.heap
  have hs := h.size_pos
  by_cases hb : mem.bound < offset + size
  · refine ⟨fun _ => .inl hb, fun _ b x hx => ?_⟩
    have hr := prepareAddr_emits_trap h (boundsCheck_emits_trap h hb x b.next)
    exact ⟨_, _, _, hr b.insts, fun gv ρ _ _ => accessSound_trap hb x b.next gv ρ _⟩
  by_cases he : elided mem offset size
  · constructor
    · intro hsound
      by_contra hcond
      exact not_boundsCheckSound h (by omega) he (by omega) hsound
    · intro hcond b x hx
      obtain ⟨a, n', c, hc, hca⟩ := boundsCheck_emits_elided h (by omega) he x b.next
      obtain ⟨flags, hr⟩ := prepareAddr_emits_addr h hc
      refine ⟨_, _, _, hr b.insts, fun gv ρ hx hg => (accessSound_elided_iff hca hs hg).2 ?_⟩
      unfold elided at he
      omega
  · refine ⟨fun _ => .inr (.inl (by unfold elided at he; omega)), fun _ b x hx => ?_⟩
    obtain ⟨a, n', c, hc, hca⟩ := boundsCheck_emits_checked h (by omega) he x b.next
    obtain ⟨flags, hr⟩ := prepareAddr_emits_addr h hc
    exact ⟨_, _, _, hr b.insts, fun gv ρ _ hg => accessSound_checked (by omega) hm hs hca hg⟩

end Sound

/-- A four-gigabyte memory with two gigabytes of guard pages, as `makeMemory` describes it. -/
def fourGigabytes : CraneliftMemory :=
  { baseGv := 0, indexType := .I32, memoryType := none, bound := 2 ^ 32, minSize := 0
    maxSize := none, offsetGuardSize := 2 ^ 31, pageSizeLog2 := 16 }

def x64 : TargetIsa :=
  { pointerType := .I64, pageSizeAlignLog2 := 12, heapAccessSpectreMitigation := true }

theorem fourGigabytes_sound_of_small_offset :
    Accessible fourGigabytes x64 0 8 ∧ BoundsCheckSound fourGigabytes x64 0 8 := by
  have h : Accessible fourGigabytes x64 0 8 := by
    constructor <;> simp [fourGigabytes, x64]
  exact ⟨h, (boundsCheckSound_iff h).2 (by simp [fourGigabytes])⟩

/-- An access whose offset is close to four gigabytes is emitted without a comparison, although
index and offset together reach past the guard pages. -/
theorem fourGigabytes_unsound_of_large_offset :
    Accessible fourGigabytes x64 (2 ^ 32 - 8) 8
      ∧ ¬BoundsCheckSound fourGigabytes x64 (2 ^ 32 - 8) 8 := by
  have h : Accessible fourGigabytes x64 (2 ^ 32 - 8) 8 := by
    constructor <;> simp [fourGigabytes, x64]
  exact ⟨h, not_boundsCheckSound h (by simp [fourGigabytes]) (by simp [elided, fourGigabytes])
    (by simp [fourGigabytes])⟩

end K23VM.Cranelift
