import K23VM.Proofs.ConstEval
import K23VM.Runtime.Instance

/-!
# Active data segments

A segment is copied to the offset that its expression evaluates to.  The value of type `i32` is stored
with its sign extended and is read back as 64 bits, so that an offset from `2 ^ 31` on becomes one near
`2 ^ 64` (`getU64_i32`), and a segment that does not fit stops the instantiation with a panic.  The
memories are initialized as specified exactly where all segments fit and have offsets below `2 ^ 31`,
`initializesMemories_iff`, which holds of what is translated from a data section,
`dataSection_initializesMemories_iff`.
-/

namespace K23VM

open Wasmparser (ConstOperator)

/-! ## Segments -/

/-- Replace the bytes from an offset on. -/
def writeAt (bytes : List UInt8) (offset : ℕ) (data : List UInt8) : List UInt8 :=
  bytes.take offset ++ data ++ bytes.drop (offset + data.length)

/-- The zeros of a new memory. -/
def InstanceMemory.zeros (m : InstanceMemory) : List UInt8 := List.replicate m.memory.len 0

/-- The bytes of a memory: what was copied into it, over zeros. -/
def InstanceMemory.contents (m : InstanceMemory) : List UInt8 :=
  m.copied.foldl (fun bytes (offset, data) => writeAt bytes offset data) m.zeros

/-- A memory lies within its mapping, which is smaller than half of the address space. -/
structure InstanceMemory.IsMapped (m : InstanceMemory) : Prop where
  len_le : m.memory.len ≤ m.memory.mmap.len
  mmap_lt : m.memory.mmap.len < 2 ^ 63

/-- An active data segment for a defined memory, with the value of its offset. -/
structure Segment where
  memory : ℕ
  offset : BitVec 32
  data : List UInt8
  deriving DecidableEq, Repr

/-- Reading its offset as an unsigned number, the segment fits into its memory. -/
def Segment.Fits (memories : List InstanceMemory) (s : Segment) : Prop :=
  ∃ mem, memories[s.memory]? = some mem ∧ s.offset.toNat + s.data.length ≤ mem.memory.len

/-- What the segment does to the contents of the memories. -/
def Segment.run (contents : List (List UInt8)) (s : Segment) : List (List UInt8) :=
  contents.modify s.memory (writeAt · s.offset.toNat s.data)

/-- The expression is converted from a validated one of type `i32` with the value. -/
def ConstExpr.IsOffset (e : ConstExpr) (v : BitVec 32) : Prop :=
  ∃ expr : TypedConstExpr, ∃ escaped, expr.ty = .i32 ∧ HasValue expr.operators .i32 v
    ∧ ConstExpr.fromWasmparser expr.expr = .ok (e, escaped)

/-- The module declares the segment. -/
structure DeclaresSegment (m : TranslatedModule) (init : MemoryInitializer) (s : Segment) :
    Prop where
  defined : m.definedMemoryIndex init.memoryIndex = some s.memory
  offset : init.offset.IsOffset s.offset
  data : init.data = s.data

/-- An active segment as the data section has it. -/
structure DataEntry where
  memoryIndex : ℕ
  expr : TypedConstExpr
  i32 : expr.ty = .i32
  data : List UInt8

def DataEntry.toData (e : DataEntry) : Wasmparser.Data := ⟨.active e.memoryIndex e.expr.expr, e.data⟩

/-- The initializer of an active segment. -/
structure DataEntry.Gives (e : DataEntry) (init : MemoryInitializer) : Prop where
  memoryIndex : init.memoryIndex = e.memoryIndex
  data : init.data = e.data
  offset : ∀ v, HasValue e.expr.operators .i32 v → init.offset.IsOffset v

/-! ## One segment -/

theorem getU64_i32 (v : BitVec 32) : (VMVal.i32 v).getU64
    = if v.toNat < 2 ^ 31 then v.toNat else v.toNat + (2 ^ 64 - 2 ^ 32) := by
  have h : (VMVal.i32 v).getU64 = (v.signExtend 64).toNat := by
    show (((v.signExtend 64).setWidth 128).setWidth 64).toNat = _
    rw [BitVec.setWidth_setWidth_of_le _ (by decide), BitVec.setWidth_eq]
  rw [h, BitVec.toNat_signExtend, BitVec.toNat_setWidth, BitVec.msb_eq_decide]
  have := v.isLt
  split_ifs with h₁ h₂ h₂ <;> simp only [decide_eq_true_eq] at h₁ <;> omega

/-- An offset expression evaluates to its value. -/
theorem ConstExpr.IsOffset.eval {e : ConstExpr} {v : BitVec 32} (h : e.IsOffset v) :
    (⟨[]⟩ : ConstExprEvaluator).eval e = .ok (.i32 v, ⟨[]⟩) := by
  obtain ⟨⟨expr, ops, ty, henc, hval⟩, escaped, hty, hv, he⟩ := h
  obtain rfl : ty = .i32 := hty
  obtain ⟨e', escaped', v', he', heval, hv'⟩ := eval_typed ⟨expr, ops, .i32, henc, hval⟩
  obtain ⟨rfl, -⟩ := Prod.mk.inj (Except.ok.inj (he.symm.trans he'))
  rw [heval, hv.unique hv']
  rfl

/-- Where the segment can be copied. -/
def Segment.Copied (memories : List InstanceMemory) (s : Segment) : Prop :=
  s.offset.toNat < 2 ^ 31 ∧ s.Fits memories

/-- The memories after a segment was copied. -/
def Segment.copy (memories : List InstanceMemory) (s : Segment) : List InstanceMemory :=
  memories.modify s.memory fun mem => { mem with copied := mem.copied ++ [(s.offset.toNat, s.data)] }

theorem modify_of_getElem? {α : Type} {l : List α} {i : ℕ} {a : α} (h : l[i]? = some a) (f : α → α) :
    l.modify i f = l.set i (f a) := by
  obtain ⟨hi, rfl⟩ := List.getElem?_eq_some_iff.1 h
  refine List.ext_getElem? fun j => ?_
  rw [List.getElem?_modify, List.getElem?_set]
  split_ifs with hij
  · subst hij
    simp [hi]
  · simp

section Step

variable {m : TranslatedModule} {memories : List InstanceMemory} {init : MemoryInitializer}
  {s : Segment}

/-- The slice of the memory is taken, and the segment is copied where the slice holds it. -/
theorem initializeMemory_eq (h : DeclaresSegment m init s) {mem : InstanceMemory}
    (hmem : memories[s.memory]? = some mem) (hmap : mem.IsMapped) :
    initializeMemory m (⟨[]⟩, memories) init =
      (addOrPanic (VMVal.i32 s.offset).getU64 s.data.length >>= fun end_ =>
        if end_ ≤ mem.memory.len then
          .ok (⟨[]⟩, memories.set s.memory
            { mem with copied := mem.copied ++ [((VMVal.i32 s.offset).getU64, s.data)] })
        else panicking "range end index out of range for slice") := by
  unfold initializeMemory
  rw [h.offset.eval, h.data]
  simp only [h.defined, hmem, unwrap_some, bind, Except.bind]
  rw [decide_eq_true hmap.len_le]
  rfl

theorem initializeMemory_copied (h : DeclaresSegment m init s) {mem : InstanceMemory}
    (hmem : memories[s.memory]? = some mem) (hmap : mem.IsMapped) (hc : s.Copied memories) :
    initializeMemory m (⟨[]⟩, memories) init = .ok (⟨[]⟩, s.copy memories) := by
  obtain ⟨hlt, mem', hmem', hfits⟩ := hc
  obtain rfl := Option.some.inj (hmem.symm.trans hmem')
  have := hmap.len_le
  have := hmap.mmap_lt
  rw [initializeMemory_eq h hmem hmap, getU64_i32, if_pos hlt, addOrPanic, if_pos (by omega)]
  show (if s.offset.toNat + s.data.length ≤ mem.memory.len then _ else _) = _
  rw [if_pos hfits, Segment.copy, modify_of_getElem? hmem]

theorem initializeMemory_panics (h : DeclaresSegment m init s) {mem : InstanceMemory}
    (hmem : memories[s.memory]? = some mem) (hmap : mem.IsMapped) (hc : ¬ s.Copied memories) :
    ∃ e, initializeMemory m (⟨[]⟩, memories) init = .error e := by
  have hend : ¬ (VMVal.i32 s.offset).getU64 + s.data.length ≤ mem.memory.len := by
    intro hle
    have hlen := hmap.len_le
    have hmmap := hmap.mmap_lt
    rw [getU64_i32] at hle
    split_ifs at hle with hlt
    · exact hc ⟨hlt, mem, hmem, hle⟩
    · omega
  rw [initializeMemory_eq h hmem hmap, addOrPanic]
  split_ifs
  · exact ⟨_, if_neg hend⟩
  · exact ⟨_, rfl⟩

end Step

/-! ## All segments -/

/-- A segment does not change the size of a memory. -/
theorem getElem?_copy (memories : List InstanceMemory) (s : Segment) (i : ℕ) :
    ((s.copy memories)[i]?).map InstanceMemory.memory = (memories[i]?).map InstanceMemory.memory := by
  unfold Segment.copy
  rw [List.getElem?_modify]
  rcases memories[i]? with _ | mem
  · rfl
  · by_cases hi : s.memory = i <;> simp [hi]

theorem copied_copy_iff (memories : List InstanceMemory) (s t : Segment) :
    t.Copied (s.copy memories) ↔ t.Copied memories := by
  have h := getElem?_copy memories s t.memory
  unfold Segment.Copied Segment.Fits
  refine and_congr_right fun _ => ⟨?_, ?_⟩
  · rintro ⟨mem, hmem, hle⟩
    rw [hmem] at h
    obtain ⟨mem', hmem', he⟩ := Option.map_eq_some_iff.1 h.symm
    exact ⟨mem', hmem', he ▸ hle⟩
  · rintro ⟨mem, hmem, hle⟩
    rw [hmem] at h
    obtain ⟨mem', hmem', he⟩ := Option.map_eq_some_iff.1 h
    exact ⟨mem', hmem', he ▸ hle⟩

theorem isMapped_copy {memories : List InstanceMemory} (h : ∀ mem ∈ memories, mem.IsMapped)
    (s : Segment) : ∀ mem ∈ s.copy memories, mem.IsMapped := by
  intro mem hmem
  obtain ⟨i, hi⟩ := List.mem_iff_getElem?.1 hmem
  have he := getElem?_copy memories s i
  rw [hi] at he
  obtain ⟨mem', hmem', he⟩ := Option.map_eq_some_iff.1 he.symm
  obtain ⟨hle, hlt⟩ := h mem' (List.mem_of_getElem? hmem')
  exact ⟨he ▸ hle, he ▸ hlt⟩

/-- Either all segments are copied, in order, or the first that cannot be stops with a panic. -/
theorem initializeMemories_cases {m : TranslatedModule} :
    ∀ {inits : List MemoryInitializer} {segs : List Segment} {memories : List InstanceMemory},
      List.Forall₂ (DeclaresSegment m) inits segs → (∀ mem ∈ memories, mem.IsMapped) →
      (∀ s ∈ segs, s.memory < memories.length) →
      (∀ s ∈ segs, s.Copied memories)
          ∧ inits.foldlM (initializeMemory m) (⟨[]⟩, memories)
            = .ok (⟨[]⟩, segs.foldl Segment.copy memories)
        ∨ (¬ ∀ s ∈ segs, s.Copied memories)
          ∧ ∃ e, inits.foldlM (initializeMemory m) (⟨[]⟩, memories) = .error e
  | _, _, memories, .nil, _, _ => .inl ⟨by simp, rfl⟩
  | init :: inits, s :: segs, memories, .cons h hs, hmap, hlt => by
    obtain ⟨mem, hmem⟩ : ∃ mem, memories[s.memory]? = some mem :=
      ⟨_, List.getElem?_eq_getElem (hlt s List.mem_cons_self)⟩
    have hmem' := hmap mem (List.mem_of_getElem? hmem)
    rw [List.foldlM_cons]
    by_cases hc : s.Copied memories
    · rw [initializeMemory_copied h hmem hmem' hc]
      have hlen : (s.copy memories).length = memories.length := List.length_modify ..
      have ih := initializeMemories_cases hs (isMapped_copy hmap s) fun t ht =>
        hlen ▸ hlt t (List.mem_cons_of_mem _ ht)
      simp only [copied_copy_iff] at ih
      rcases ih with ⟨hall, hr⟩ | ⟨hnot, hr⟩
      · exact .inl ⟨List.forall_mem_cons.2 ⟨hc, hall⟩, hr⟩
      · exact .inr ⟨fun hall => hnot (List.forall_mem_cons.1 hall).2, hr⟩
    · obtain ⟨e, he⟩ := initializeMemory_panics h hmem hmem' hc
      rw [he]
      exact .inr ⟨fun hall => hc (hall s List.mem_cons_self), e, rfl⟩

theorem map_contents_copy (memories : List InstanceMemory) (s : Segment) :
    (s.copy memories).map InstanceMemory.contents = s.run (memories.map InstanceMemory.contents) := by
  refine List.ext_getElem? fun i => ?_
  unfold Segment.copy Segment.run
  simp only [List.getElem?_map, List.getElem?_modify]
  rcases memories[i]? with _ | mem
  · rfl
  · by_cases hi : s.memory = i
    · simp [hi, InstanceMemory.contents, InstanceMemory.zeros, List.foldl_append]
    · simp [hi]

theorem map_contents_foldl_copy : ∀ (segs : List Segment) (memories : List InstanceMemory),
    (segs.foldl Segment.copy memories).map InstanceMemory.contents
      = segs.foldl Segment.run (memories.map InstanceMemory.contents)
  | [], _ => rfl
  | s :: segs, memories => by
    rw [List.foldl_cons, List.foldl_cons, map_contents_foldl_copy segs, map_contents_copy]

/-! ## The data section -/

section DataSection

open ModuleTranslator

variable {debug : Bool}

theorem translateData_gives {t t' : ModuleTranslator} {n : ℕ} (e : DataEntry)
    (h : t.translateData debug n e.toData = (.ok (.ok t') : Except Fault (Except Error _))) :
    ∃ init, t'.module.memoryInitializers = t.module.memoryInitializers ++ [init] ∧ e.Gives init := by
  unfold translateData at h
  obtain ⟨n, -, h⟩ := fallible_bind_eq_ok.1 h
  obtain ⟨⟨offset, escaped⟩, hconv, h⟩ := fallible_bind_eq_ok.1 h
  obtain ⟨-, -, h⟩ := fallible_bind_eq_ok.1 h
  obtain rfl := Except.ok.inj (Except.ok.inj h)
  refine ⟨_, rfl, rfl, rfl, fun v hv => ⟨e.expr, escaped, e.i32, hv, ?_⟩⟩
  rcases hr : ConstExpr.fromWasmparser e.expr.expr with err | r
  · rw [hr] at hconv
    cases hconv
  · rw [hr] at hconv
    rw [Except.ok.inj (Except.ok.inj hconv)]

/-- The initializers of a module are those of the active segments, in order. -/
theorem translateDataSection_gives {t t' : ModuleTranslator} {entries : List DataEntry}
    (h : t.translateDataSection debug (entries.map fun e => .ok e.toData)
      = (.ok (.ok t') : Except Fault (Except Error _))) :
    ∃ inits, t'.module.memoryInitializers = t.module.memoryInitializers ++ inits
      ∧ List.Forall₂ DataEntry.Gives entries inits := by
  unfold translateDataSection at h
  obtain ⟨⟨t₁, n₁⟩, hitems, ht⟩ := fallible_bind_eq_ok.1 h
  obtain rfl := Except.ok.inj (Except.ok.inj ht)
  clear h ht
  generalize 0 = n at hitems
  induction entries generalizing t n with
  | nil =>
    obtain ⟨rfl, rfl⟩ := Prod.mk.inj (Except.ok.inj (Except.ok.inj hitems))
    exact ⟨[], by simp, .nil⟩
  | cons e entries ih =>
    rw [List.map_cons] at hitems
    unfold forItems at hitems
    obtain ⟨⟨t₂, n₂⟩, hstep, hrest⟩ := fallible_bind_eq_ok.1 hitems
    obtain ⟨t₃, hdata, hstep⟩ := fallible_bind_eq_ok.1 hstep
    obtain ⟨rfl, rfl⟩ := Prod.mk.inj (Except.ok.inj (Except.ok.inj hstep))
    obtain ⟨init, hinit, hgives⟩ := translateData_gives e hdata
    obtain ⟨inits, hinits, hall⟩ := ih _ hrest
    exact ⟨init :: inits, by simp [hinits, hinit], .cons hgives hall⟩

end DataSection

/-! ## The initialization -/

section Initialize

variable (m : TranslatedModule) (memories : List InstanceMemory) (segs : List Segment)

/-- Where all segments fit, the memories hold the segments, one after the other over zeros; where one
does not, an error is returned; there is no panic. -/
structure InitializesMemories : Prop where
  fits : (∀ s ∈ segs, s.Fits memories) → ∃ ev memories',
    initializeMemories ⟨[]⟩ memories m = .ok (ev, memories')
      ∧ memories'.map InstanceMemory.contents
        = segs.foldl Segment.run (memories.map InstanceMemory.zeros)
  rejects : (¬ ∀ s ∈ segs, s.Fits memories) → ∃ e : Error,
    (liftM (initializeMemories ⟨[]⟩ memories m) : Fallible Error _)
      = (.ok (.error e) : Except Fault (Except Error _))
  noPanic : NoPanic (liftM (initializeMemories ⟨[]⟩ memories m) : Fallible Error _)

variable {m memories segs}

theorem initializesMemories_iff_copied
    (hd : List.Forall₂ (DeclaresSegment m) m.memoryInitializers segs)
    (hlt : ∀ s ∈ segs, s.memory < memories.length) (hmap : ∀ mem ∈ memories, mem.IsMapped)
    (hnew : ∀ mem ∈ memories, mem.copied = []) :
    InitializesMemories m memories segs ↔ ∀ s ∈ segs, s.Copied memories := by
  have hzeros : memories.map InstanceMemory.contents = memories.map InstanceMemory.zeros :=
    List.map_congr_left fun mem hmem => by
      unfold InstanceMemory.contents
      rw [hnew mem hmem]
      rfl
  rcases initializeMemories_cases hd hmap hlt with ⟨hall, hr⟩ | ⟨hnot, e, hr⟩
  · refine iff_of_true ⟨fun _ => ⟨_, _, hr, ?_⟩, fun h => ?_, ⟨_, congrArg _ hr⟩⟩ hall
    · rw [map_contents_foldl_copy, hzeros]
    · exact absurd (fun s hs => (hall s hs).2) h
  · refine iff_of_false (fun h => ?_) hnot
    obtain ⟨r, hr'⟩ := h.noPanic
    unfold initializeMemories at hr'
    rw [hr] at hr'
    cases hr'

/-- The memories of a module are initialized as specified exactly where all its segments fit and have
offsets that are not negative as signed numbers. -/
theorem initializesMemories_iff (hd : List.Forall₂ (DeclaresSegment m) m.memoryInitializers segs)
    (hlt : ∀ s ∈ segs, s.memory < memories.length) (hmap : ∀ mem ∈ memories, mem.IsMapped)
    (hnew : ∀ mem ∈ memories, mem.copied = []) :
    InitializesMemories m memories segs ↔
      ∀ s ∈ segs, s.Fits memories ∧ s.offset.toNat < 2 ^ 31 :=
  (initializesMemories_iff_copied hd hlt hmap hnew).trans (forall₂_congr fun _ _ => and_comm)

/-- The entry of a data section declares the segment. -/
structure DataEntry.Declares (m : TranslatedModule) (e : DataEntry) (s : Segment) : Prop where
  memory : m.definedMemoryIndex e.memoryIndex = some s.memory
  offset : HasValue e.expr.operators .i32 s.offset
  data : e.data = s.data

theorem DataEntry.Gives.declares {e : DataEntry} {init : MemoryInitializer} {s : Segment}
    (h : e.Gives init) (hs : e.Declares m s) : DeclaresSegment m init s :=
  ⟨h.memoryIndex ▸ hs.memory, h.offset s.offset hs.offset, h.data.trans hs.data⟩

theorem declaresSegments_of_gives : ∀ {entries : List DataEntry} {inits : List MemoryInitializer}
    {segs : List Segment}, List.Forall₂ DataEntry.Gives entries inits →
    List.Forall₂ (DataEntry.Declares m) entries segs → List.Forall₂ (DeclaresSegment m) inits segs
  | _, _, _, .nil, .nil => .nil
  | _, _, _, .cons hgive hgives, .cons hs hd =>
    .cons (hgive.declares hs) (declaresSegments_of_gives hgives hd)

/-- The memories are initialized as the data section of a module says exactly where all its segments can be
copied. -/
theorem dataSection_initializesMemories_iff {debug : Bool} {t t' : ModuleTranslator}
    {entries : List DataEntry} (hnone : t.module.memoryInitializers = [])
    (h : t.translateDataSection debug (entries.map fun e => .ok e.toData)
      = (.ok (.ok t') : Except Fault (Except Error _)))
    (hd : List.Forall₂ (DataEntry.Declares t'.module) entries segs)
    (hlt : ∀ s ∈ segs, s.memory < memories.length) (hmap : ∀ mem ∈ memories, mem.IsMapped)
    (hnew : ∀ mem ∈ memories, mem.copied = []) :
    InitializesMemories t'.module memories segs ↔ ∀ s ∈ segs, s.Copied memories := by
  obtain ⟨inits, hinits, hgives⟩ := translateDataSection_gives h
  rw [hnone, List.nil_append] at hinits
  exact initializesMemories_iff_copied (hinits ▸ declaresSegments_of_gives hgives hd) hlt hmap hnew

end Initialize

section Example

/-- A segment with one byte at a constant offset. -/
def byteAt (offset : ℤ) : Segment := ⟨0, .ofInt 32 offset, [7]⟩

def dataSegmentModule (offset : ℤ) : TranslatedModule where
  memories := [⟨1, some 1, DEFAULT_OFFSET_GUARD_SIZE, 16, false, false⟩]
  memoryInitializers := [⟨0, ⟨[.i32Const offset]⟩, [7]⟩]

/-- A memory of a number of bytes, with its guard pages. -/
def newMemory (len : ℕ) : InstanceMemory where
  base := 0x10000
  memory := ⟨⟨len + DEFAULT_OFFSET_GUARD_SIZE, [(0, len)]⟩, len, none, 16, DEFAULT_OFFSET_GUARD_SIZE⟩

theorem dataSegmentModule_declares (offset : ℤ) :
    List.Forall₂ (DeclaresSegment (dataSegmentModule offset)) (dataSegmentModule offset).memoryInitializers
      [byteAt offset] := by
  refine .cons ⟨rfl, ?_, rfl⟩ .nil
  exact ⟨⟨[.ok (.i32Const offset, 0), .ok (.end_, 6)], [.i32Const offset], .i32,
    ⟨[0], 6, rfl, rfl⟩, rfl⟩, [], rfl, .i32Const offset, rfl⟩

theorem newMemory_isMapped {len : ℕ} (h : len ≤ 2 ^ 32) : (newMemory len).IsMapped := by
  refine ⟨Nat.le_add_right .., ?_⟩
  show len + 0x80000000 < 2 ^ 63
  omega

/-- A segment behind the end of its memory is no error but a panic, and so is one that fits in the upper
half of a memory of four gigabytes. -/
theorem not_initializesMemories :
    ¬ InitializesMemories (dataSegmentModule 65536) [newMemory 65536] [byteAt 65536]
      ∧ (byteAt (-2147483648)).Fits [newMemory (2 ^ 32)]
      ∧ ¬ InitializesMemories (dataSegmentModule (-2147483648)) [newMemory (2 ^ 32)]
        [byteAt (-2147483648)] := by
  refine ⟨?_, ⟨newMemory (2 ^ 32), rfl, by decide⟩, ?_⟩
  · rintro ⟨-, -, r, hr⟩
    cases hr
  · rintro ⟨-, -, r, hr⟩
    cases hr

/-- The last byte of a memory. -/
theorem initializesMemories_iff_last :
    InitializesMemories (dataSegmentModule 65535) [newMemory 65536] [byteAt 65535] := by
  refine (initializesMemories_iff (dataSegmentModule_declares 65535) (by simp [byteAt]) ?_ ?_).2 ?_
  · simp only [List.mem_singleton, forall_eq]
    exact newMemory_isMapped (by decide)
  · simp [newMemory]
  · simp only [List.mem_singleton, forall_eq]
    exact ⟨⟨newMemory 65536, rfl, by decide⟩, by decide⟩

end Example

end K23VM
