import K23VM.CallUnchecked
import K23VM.Lib.MapM

/-!
# Values through slots

A value is written into its slot at the width of the slot or less, and read at the width of its type, on
the way in as on the way out: the function gets the words of the arguments, and the host those of the
results.
-/

namespace K23VM

open Cranelift

/-! ## Values -/

/-- The types of values that are transferred here. -/
def WasmValType.IsNumeric : WasmValType → Prop
  | .ref _ => False
  | _ => True

/-- The type of values in emitted code; a reference has none here. -/
def WasmValType.clifTy : WasmValType → Ty
  | .i32 => .I32
  | .i64 => .I64
  | .f32 => .F32
  | .f64 => .F64
  | .v128 | .ref _ => .I8X16

/-- A word of the type. -/
def WasmValType.Holds (ty : WasmValType) (word : ℕ) : Prop := word < 256 ^ ty.clifTy.bytes

instance (ty : WasmValType) (word : ℕ) : Decidable (ty.Holds word) :=
  inferInstanceAs (Decidable (word < _))

/-- The value is of the type. -/
inductive Val.HasType : Val → WasmValType → Prop
  | i32 {i : BitVec 32} : HasType (.i32 i) .i32
  | i64 {i : BitVec 64} : HasType (.i64 i) .i64
  | f32 {u : BitVec 32} : HasType (.f32 u) .f32
  | f64 {u : BitVec 64} : HasType (.f64 u) .f64
  | v128 {b : BitVec 128} : HasType (.v128 b) .v128

/-- The word of a value in emitted code. -/
def Val.bits : Val → ℕ
  | .i32 i => i.toNat
  | .i64 i => i.toNat
  | .f32 u => u.toNat
  | .f64 u => u.toNat
  | .v128 b => b.toNat
  | .funcRef _ => 0

variable {ty : WasmValType} {val : Val}

theorem WasmValType.bytes_le (ty : WasmValType) : ty.clifTy.bytes ≤ 16 := by
  cases ty <;> simp [clifTy, Ty.bytes]

theorem valueType_numeric (pointerType : Ty) (h : ty.IsNumeric) :
    valueType pointerType ty = .ok ty.clifTy := by
  cases ty with
  | ref => exact h.elim
  | _ => rfl

theorem signExtend_setWidth_toNat (i : BitVec 32) :
    ((i.signExtend 64).setWidth 128).toNat % 256 ^ 4 = i.toNat := by
  have hlow : (i.signExtend 64).setWidth 32 = i := by
    ext k hk
    have hk' : k < 64 := by omega
    rw [BitVec.getElem_setWidth, BitVec.getLsbD_signExtend, if_pos hk, BitVec.getLsbD_eq_getElem hk]
    simp [hk']
  have htoNat := congrArg BitVec.toNat hlow
  rw [BitVec.toNat_setWidth] at htoNat
  rw [BitVec.toNat_setWidth, Nat.mod_eq_of_lt ((i.signExtend 64).isLt.trans (by omega))]
  exact htoNat

/-- The low bytes of the slot for a value are the word of the value. -/
theorem Val.HasType.slotWord_mod (h : val.HasType ty) (asRaw : ℕ → ℕ) (junk : ℕ) :
    ((val.asVmval asRaw).slotWord val.initialized junk) % 256 ^ ty.clifTy.bytes = val.bits := by
  have hle : ty.clifTy.bytes ≤ val.initialized := by
    cases h <;> simp [WasmValType.clifTy, Ty.bytes, initialized]
  have hdvd : 256 ^ ty.clifTy.bytes ∣ 256 ^ val.initialized := Nat.pow_dvd_pow 256 hle
  rw [VMVal.slotWord, Nat.add_mod, Nat.mod_eq_zero_of_dvd (hdvd.mul_right junk), Nat.add_zero,
    Nat.mod_mod, Nat.mod_mod_of_dvd _ hdvd]
  cases h with
  | i32 => exact signExtend_setWidth_toNat _
  | i64 =>
    simp only [asVmval, VMVal.i64, BitVec.toNat_setWidth, bits, WasmValType.clifTy, Ty.bytes]
    omega
  | f32 =>
    simp only [asVmval, VMVal.f32, BitVec.toNat_setWidth, bits, WasmValType.clifTy, Ty.bytes]
    omega
  | f64 =>
    simp only [asVmval, VMVal.f64, BitVec.toNat_setWidth, bits, WasmValType.clifTy, Ty.bytes]
    omega
  | v128 =>
    simp only [asVmval, bits, WasmValType.clifTy, Ty.bytes]
    omega

/-- What is read from a slot is the word in its low bytes. -/
theorem fromVmval_word (h : ty.IsNumeric) {word raw : ℕ} (hword : raw % 256 ^ ty.clifTy.bytes = word) :
    ∃ val, Val.fromVmval ⟨BitVec.ofNat 128 raw⟩ ty = .ok val ∧ val.HasType ty ∧ val.bits = word := by
  subst hword
  cases ty with
  | i32 => exact ⟨_, rfl, .i32, by simp [Val.bits, VMVal.getI32, WasmValType.clifTy, Ty.bytes]⟩
  | i64 => exact ⟨_, rfl, .i64, by simp [Val.bits, VMVal.getI64, WasmValType.clifTy, Ty.bytes]⟩
  | f32 => exact ⟨_, rfl, .f32, by simp [Val.bits, VMVal.getF32, WasmValType.clifTy, Ty.bytes]⟩
  | f64 => exact ⟨_, rfl, .f64, by simp [Val.bits, VMVal.getF64, WasmValType.clifTy, Ty.bytes]⟩
  | v128 => exact ⟨_, rfl, .v128, by simp [Val.bits, VMVal.getV128, WasmValType.clifTy, Ty.bytes]⟩
  | ref => exact h.elim

/-! ## Emitted code -/

theorem slotOffset_ok {i : ℕ} (h : i < 2 ^ 27) : slotOffset i = .ok (i * 16) := by
  have hmod : i * 16 % 2 ^ 64 = i * 16 := Nat.mod_eq_of_lt (by omega)
  rw [slotOffset, hmod, if_pos (by omega)]
  rfl

/-- All slots before one that has an offset have theirs. -/
theorem slotOffset_eq {n i : ℕ} (h : ∀ j < n, ∃ offset, slotOffset j = .ok offset) (hi : i < n) :
    slotOffset i = .ok (i * 16) := by
  refine slotOffset_ok (by_contra fun hge => ?_)
  obtain ⟨offset, hoffset⟩ := h (2 ^ 27) (by omega)
  cases hoffset

theorem mem_zipIdx_of_getElem? {α : Type} {l : List α} {i : ℕ} {x : α} (h : l[i]? = some x) :
    (x, i) ∈ l.zipIdx := by
  rw [List.mem_zipIdx_iff_getElem?]
  exact h

/-- The values that are loaded, where the code is emitted. -/
theorem slotValues_eq {pointerType : Ty} {types : List WasmValType} {next : ℕ}
    {slots : List (ClifValue × ℕ)} (hnumeric : ∀ ty ∈ types, ty.IsNumeric)
    (h : slotValues pointerType types next = .ok slots) :
    slots = types.zipIdx.map fun e => (⟨next + e.2, e.1.clifTy⟩, e.2 * 16) := by
  have hoffset : ∀ i < types.length, ∃ offset, slotOffset i = .ok offset := by
    intro i hi
    obtain ⟨r, hr⟩ := List.mem_iff_getElem?.1 (mem_zipIdx_of_getElem? (List.getElem?_eq_getElem hi))
    obtain ⟨slot, -, hslot⟩ := mapM_getElem? h hr
    obtain ⟨irTy, -, hslot⟩ := bind_eq_ok.1 hslot
    obtain ⟨offset, hoffset, -⟩ := bind_eq_ok.1 hslot
    exact ⟨offset, hoffset⟩
  refine Except.ok.inj (h.symm.trans ?_)
  rw [slotValues, mapM_eq_ok_iff]
  refine List.forall₂_map_right_iff.2 (List.forall₂_same.2 fun e he => ?_)
  have hget := List.mem_zipIdx_iff_getElem?.1 he
  have hty := valueType_numeric pointerType (hnumeric e.1 (List.mem_of_getElem? hget))
  have hi := slotOffset_eq hoffset (List.getElem?_eq_some_iff.1 hget).1
  simp only [hty, hi, bind, Except.bind]
  rfl

section Run

variable (framePointer pc : ℕ) (code : ℕ → WasmCode) {s : TrampolineState}

/-- Run instructions one after the other. -/
def runInsts (insts : List TrampolineInst) (s : TrampolineState) :
    Except (TrapReason × HostMemory) TrampolineState :=
  insts.foldlM (TrampolineInst.run framePointer pc code) s

variable {framePointer pc code} in
theorem runInsts_append {insts insts' : List TrampolineInst} {s' : TrampolineState}
    (h : runInsts framePointer pc code insts s = .ok s') :
    runInsts framePointer pc code (insts ++ insts') s = runInsts framePointer pc code insts' s' := by
  rw [runInsts, List.foldlM_append]
  rw [runInsts] at h
  rw [h]
  rfl

variable {framePointer pc code} in
theorem runInsts_call_error {index : ℕ} {args results : List ℕ} {insts : List TrampolineInst}
    {reason : TrapReason} {mem : HostMemory}
    (h : code index (args.map s.env) s.mem = (.error reason, mem)) :
    runInsts framePointer pc code (.call index args results :: insts) s = .error (reason, mem) := by
  rw [runInsts, List.foldlM_cons]
  simp only [TrampolineInst.run, h]
  rfl

variable {framePointer pc code} in
theorem runInsts_call_ok {index : ℕ} {args results words : List ℕ} {insts : List TrampolineInst}
    {mem : HostMemory} (h : code index (args.map s.env) s.mem = (.ok words, mem)) :
    runInsts framePointer pc code (.call index args results :: insts) s
      = runInsts framePointer pc code insts
        (TrampolineState.define { s with mem } results words) := by
  rw [runInsts, List.foldlM_cons]
  simp only [TrampolineInst.run, h]
  rfl

/-- The loads give each value the word in its slot. -/
theorem run_loads (ptr : ℕ) : ∀ {slots : List (ClifValue × ℕ)} {s : TrampolineState},
    (slots.map fun e => e.1.index).Nodup → ptr ∉ (slots.map fun e => e.1.index) →
    ∃ env, runInsts framePointer pc code
        (slots.map fun e => .load e.1.ty ptr e.2 e.1.index) s = .ok ⟨env, s.mem⟩
      ∧ (∀ e ∈ slots, env e.1.index = s.mem.bytes.load (s.env ptr + e.2) e.1.ty.bytes)
      ∧ ∀ i ∉ slots.map fun e => e.1.index, env i = s.env i
  | [], s, _, _ => ⟨s.env, rfl, by simp, fun _ _ => rfl⟩
  | e :: slots, s, hnodup, hptr => by
    rw [List.map_cons, List.nodup_cons] at hnodup
    rw [List.map_cons, List.mem_cons, not_or] at hptr
    let env₁ := Function.update s.env e.1.index
      (s.mem.bytes.load (s.env ptr + e.2) e.1.ty.bytes)
    obtain ⟨env, hrun, hloaded, hsame⟩ := run_loads ptr (s := ⟨env₁, s.mem⟩) hnodup.2 hptr.2
    simp only at hloaded hsame
    have hself : env₁ e.1.index = s.mem.bytes.load (s.env ptr + e.2) e.1.ty.bytes :=
      Function.update_self ..
    have hother : ∀ i ≠ e.1.index, env₁ i = s.env i := fun i hi => Function.update_of_ne hi ..
    refine ⟨env, hrun, fun e' he' => ?_, fun i hi => ?_⟩
    · rcases List.mem_cons.1 he' with rfl | he'
      · rw [hsame _ hnodup.1, hself]
      · rw [hloaded e' he', hother ptr hptr.1]
    · rw [List.map_cons, List.mem_cons, not_or] at hi
      rw [hsame i hi.2, hother i hi.1]

/-- The stores leave each value in its slot. -/
theorem run_stores {ptr : ℕ} : ∀ {values : List ClifValue} {k : ℕ} {stores : List TrampolineInst}
    {s : TrampolineState}, (∀ i, i < k + values.length → slotOffset i = .ok (i * 16)) →
    (values.zipIdx k).mapM (fun e => do
      let offset ← slotOffset e.2
      pure (TrampolineInst.store e.1 ptr offset)) = .ok stores →
    runInsts framePointer pc code stores s = .ok ⟨s.env, s.mem.bytes.storeSlots
      (s.env ptr + k * 16) 16 (values.map fun val => (val.ty.bytes, s.env val.index)), s.mem.words⟩
  | [], k, stores, s, _, h => by
    obtain rfl := Except.ok.inj h
    rfl
  | val :: values, k, stores, s, hoffset, h => by
    rw [List.zipIdx_cons, List.mapM_cons] at h
    obtain ⟨store, hstore, h⟩ := bind_eq_ok.1 h
    obtain ⟨rest, hrest, h⟩ := bind_eq_ok.1 h
    obtain rfl := Except.ok.inj h
    rw [hoffset k (by simp)] at hstore
    obtain rfl := Except.ok.inj hstore
    rw [List.map_cons, ByteMemory.storeSlots, Nat.add_assoc, ← Nat.succ_mul]
    let bytes := s.mem.bytes.store (s.env ptr + k * 16) val.ty.bytes (s.env val.index)
    refine run_stores (s := ⟨s.env, bytes, s.mem.words⟩) (fun i hi => hoffset i ?_) hrest
    rw [List.length_cons]
    omega

theorem run_capacity (debug : Bool) (next : ℕ) {length capacity : ℕ} (h : length ≤ s.env capacity) :
    ∃ env, runInsts framePointer pc code
        (debugAssertEnoughCapacityForLength debug length capacity next).1 s = .ok ⟨env, s.mem⟩
      ∧ ∀ i < next, env i = s.env i := by
  cases debug with
  | false => exact ⟨s.env, rfl, fun _ _ => rfl⟩
  | true =>
    refine ⟨Function.update s.env next 1, ?_, fun i hi => Function.update_of_ne hi.ne _ _⟩
    simp [debugAssertEnoughCapacityForLength, runInsts, TrampolineInst.run, h, bind, Except.bind, pure,
      Except.pure]

theorem run_vmctxKind (debug : Bool) (next : ℕ) {vmctx magic : ℕ}
    (h : s.mem.words (s.env vmctx) = magic) :
    ∃ env, runInsts framePointer pc code (debugAssertVmctxKind debug vmctx magic next).1 s
        = .ok ⟨env, s.mem⟩
      ∧ ∀ i < next, env i = s.env i := by
  cases debug with
  | false => exact ⟨s.env, rfl, fun _ _ => rfl⟩
  | true =>
    refine ⟨Function.update (Function.update s.env next magic) (next + 1) 1, ?_, fun i hi => ?_⟩
    · simp [debugAssertVmctxKind, runInsts, TrampolineInst.run, h, bind, Except.bind, pure, Except.pure]
    · rw [Function.update_of_ne (by omega), Function.update_of_ne hi.ne]

theorem le_capacity_next (debug : Bool) (length capacity next : ℕ) :
    next ≤ (debugAssertEnoughCapacityForLength debug length capacity next).2 := by
  cases debug <;> simp [debugAssertEnoughCapacityForLength]

theorem le_vmctxKind_next (debug : Bool) (vmctx magic next : ℕ) :
    next ≤ (debugAssertVmctxKind debug vmctx magic next).2 := by
  cases debug <;> simp [debugAssertVmctxKind]

/-- The values of a call have the words that were returned. -/
theorem define_spec : ∀ {dsts words : List ℕ} {s : TrampolineState}, dsts.Nodup →
    dsts.length = words.length → (s.define dsts words).mem = s.mem
      ∧ dsts.map (s.define dsts words).env = words
      ∧ ∀ i ∉ dsts, (s.define dsts words).env i = s.env i
  | [], [], s, _, _ => ⟨rfl, rfl, fun _ _ => rfl⟩
  | dst :: dsts, word :: words, s, hnodup, hlength => by
    rw [List.nodup_cons] at hnodup
    obtain ⟨hmem, hwords, hsame⟩ := define_spec (s := { s with env := Function.update s.env dst word })
      hnodup.2 (Nat.succ.inj hlength)
    simp only at hmem hsame
    refine ⟨hmem, ?_, fun i hi => ?_⟩
    · rw [List.map_cons, TrampolineState.define, hwords, hsame dst hnodup.1, Function.update_self]
    · rw [List.mem_cons, not_or] at hi
      rw [TrampolineState.define, hsame i hi.2, Function.update_of_ne hi.1]

/-- The words that a trampoline loads from the slots. -/
def slotArgs (bytes : ByteMemory) (ptr : ℕ) (types : List WasmValType) : List ℕ :=
  types.zipIdx.map fun e => bytes.load (ptr + e.2 * 16) e.1.clifTy.bytes

/-- The words that a trampoline stores in the slots, with their sizes. -/
def slotItems (types : List WasmValType) (words : List ℕ) : List (ℕ × ℕ) :=
  (types.map fun ty => ty.clifTy.bytes).zip words

/-- Up to the call, the arguments are loaded and the frame pointer is noted. -/
theorem run_enter {debug : Bool} {pointerType : Ty} {types : List WasmValType}
    {loads : List TrampolineInst} {args : List ClifValue} {next : ℕ}
    (hnumeric : ∀ ty ∈ types, ty.IsNumeric)
    (h : loadValuesFromArray debug pointerType types 2 3 4 = .ok (loads, args, next))
    (hlen : types.length ≤ s.env 3) :
    ∃ env, runInsts framePointer pc code loads s = .ok ⟨env, s.mem⟩ ∧ 4 ≤ next
      ∧ (∀ i < 4, env i = s.env i) ∧ (∀ val ∈ args, val.index < next)
      ∧ args.map (fun val => env val.index) = slotArgs s.mem.bytes (s.env 2) types := by
  obtain ⟨env₁, hrun₁, hsame₁⟩ := run_capacity framePointer pc code debug 4 hlen
  have hnext₁ := le_capacity_next debug types.length 3 4
  unfold loadValuesFromArray at h
  generalize debugAssertEnoughCapacityForLength debug types.length 3 4 = cap at h hrun₁ hnext₁
  obtain ⟨check, next₁⟩ := cap
  obtain ⟨slots, hslots, h₁⟩ := bind_eq_ok.1 h
  obtain ⟨rfl, h₂⟩ := Prod.mk.inj (Except.ok.inj h₁)
  obtain ⟨rfl, rfl⟩ := Prod.mk.inj h₂
  obtain rfl := slotValues_eq hnumeric hslots
  simp only at hnext₁ hrun₁
  have hindices : (types.zipIdx.map fun e =>
      ((⟨next₁ + e.2, e.1.clifTy⟩, e.2 * 16) : ClifValue × ℕ)).map (fun e => e.1.index)
      = List.range' next₁ types.length := by
    rw [List.range'_eq_map_range, List.range_eq_range', ← List.zipIdx_map_snd, List.map_map,
      List.map_map]
    rfl
  have hout : ∀ i < next₁, i ∉ List.range' next₁ types.length := by
    intro i hi hmem
    have := (List.mem_range'_1.1 hmem).1
    omega
  obtain ⟨env₂, hrun₂, hloaded, hsame₂⟩ := run_loads framePointer pc code 2
    (s := ⟨env₁, s.mem⟩) (hindices ▸ List.nodup_range') (hindices ▸ hout 2 (by omega))
  rw [hindices] at hsame₂
  refine ⟨env₂, (runInsts_append hrun₁).trans hrun₂, by omega, fun i hi => ?_, fun val hval => ?_, ?_⟩
  · exact (hsame₂ i (hout i (by omega))).trans (hsame₁ i hi)
  · obtain ⟨slot, hslot, rfl⟩ := List.mem_map.1 hval
    have hmem := hindices ▸ List.mem_map_of_mem hslot
    have := (List.mem_range'_1.1 hmem).2
    omega
  · rw [slotArgs, List.map_map, List.map_map]
    refine List.map_congr_left fun e he => ?_
    have hslot := hloaded _ (List.mem_map_of_mem he)
    simp only at hslot
    rw [hsame₁ 2 (by omega)] at hslot
    exact hslot

/-- From the call on, the results are stored. -/
theorem run_leave {debug : Bool} {types : List WasmValType} {values : List ClifValue} {next : ℕ}
    {stores : List TrampolineInst} (h : storeValuesToArray debug types values 2 3 next = .ok stores)
    (hlen : types.length ≤ s.env 3) (hnext : 4 ≤ next) (hbelow : ∀ val ∈ values, val.index < next) :
    ∃ env, runInsts framePointer pc code stores s = .ok ⟨env, s.mem.bytes.storeSlots (s.env 2) 16
      (values.map fun val => (val.ty.bytes, s.env val.index)), s.mem.words⟩ := by
  obtain ⟨env₁, hrun₁, hsame₁⟩ := run_capacity framePointer pc code debug next hlen
  unfold storeValuesToArray at h
  generalize debugAssertEnoughCapacityForLength debug types.length 3 next = cap at h hrun₁
  obtain ⟨check, next₁⟩ := cap
  obtain ⟨_, -, h₁⟩ := bind_eq_ok.1 h
  obtain ⟨inner, hinner, h₂⟩ := bind_eq_ok.1 h₁
  obtain rfl := Except.ok.inj h₂
  have hoffset : ∀ i < values.length, ∃ offset, slotOffset i = .ok offset := by
    intro i hi
    obtain ⟨r, hr⟩ := List.mem_iff_getElem?.1 (mem_zipIdx_of_getElem? (List.getElem?_eq_getElem hi))
    obtain ⟨store, -, hstore⟩ := mapM_getElem? hinner hr
    obtain ⟨offset, hoffset, -⟩ := bind_eq_ok.1 hstore
    exact ⟨offset, hoffset⟩
  have hrun₂ := run_stores framePointer pc code (s := ⟨env₁, s.mem⟩)
    (fun i hi => slotOffset_eq hoffset (by omega)) hinner
  have hwords : (values.map fun val => (val.ty.bytes, env₁ val.index))
      = values.map fun val => (val.ty.bytes, s.env val.index) :=
    List.map_congr_left fun val hval => by rw [hsame₁ val.index (hbelow val hval)]
  simp only [Nat.zero_mul, Nat.add_zero] at hrun₂
  rw [hwords, hsame₁ 2 (by omega)] at hrun₂
  exact ⟨env₁, (runInsts_append hrun₁).trans hrun₂⟩

theorem instResults_index (returns : List Ty) (next : ℕ) :
    (instResults returns next).map ClifValue.index = List.range' next returns.length := by
  rw [instResults, List.range'_eq_map_range, List.range_eq_range', ← List.zipIdx_map_snd,
    List.map_map, List.map_map]
  rfl

theorem instResults_ty (returns : List Ty) (next : ℕ) :
    (instResults returns next).map ClifValue.ty = returns := by
  rw [instResults, List.map_map]
  exact List.zipIdx_map_fst 0 returns

theorem wasmCallSignature_numeric {pointerType : Ty} {funcTy : WasmFuncType} {sig : IrSignature}
    (hnumeric : ∀ ty ∈ funcTy.results, ty.IsNumeric)
    (h : wasmCallSignature pointerType funcTy = .ok sig) :
    sig.returns = funcTy.results.map WasmValType.clifTy := by
  obtain ⟨params, -, h₁⟩ := bind_eq_ok.1 h
  obtain ⟨returns, hreturns, h₂⟩ := bind_eq_ok.1 h₁
  obtain rfl := Except.ok.inj h₂
  refine Except.ok.inj (hreturns.symm.trans ?_)
  rw [mapM_eq_ok_iff]
  exact List.forall₂_map_right_iff.2 (List.forall₂_same.2 fun ty hty =>
    valueType_numeric pointerType (hnumeric ty hty))

/-- The memory in which the trampoline calls the function. -/
def enteredMemory (mem : HostMemory) (off : StaticVMOffsets) (vmctx : ℕ) : HostMemory :=
  { mem with
    words := Function.update mem.words (vmctx + off.vmctxLastWasmEntryFp) framePointer }

/-- A trampoline calls its function with the words in the slots, and leaves the results in them. -/
theorem runTrampoline_spec {debug : Bool} {pointerType : Ty} {off : StaticVMOffsets} {index : ℕ}
    {funcTy : WasmFuncType} {insts : List TrampolineInst}
    (hcompile : compileArrayToWasmTrampoline debug pointerType off index funcTy = .ok insts)
    (hparams : ∀ ty ∈ funcTy.params, ty.IsNumeric) (hresults : ∀ ty ∈ funcTy.results, ty.IsNumeric)
    (vmctx caller : ℕ) {ptr len : ℕ} (mem : HostMemory) (hparamsLen : funcTy.params.length ≤ len)
    (hresultsLen : funcTy.results.length ≤ len) (hmagic : mem.words vmctx = VMCONTEXT_MAGIC) :
    (∀ reason mem', code index (vmctx :: caller :: slotArgs mem.bytes ptr funcTy.params)
        (enteredMemory framePointer mem off vmctx) = (.error reason, mem') →
      runTrampoline framePointer pc code insts vmctx caller ptr len mem = (.error reason, mem'))
    ∧ ∀ words mem', code index (vmctx :: caller :: slotArgs mem.bytes ptr funcTy.params)
        (enteredMemory framePointer mem off vmctx) = (.ok words, mem') →
      words.length = funcTy.results.length →
      runTrampoline framePointer pc code insts vmctx caller ptr len mem = (.ok (),
        { mem' with bytes := mem'.bytes.storeSlots ptr 16 (slotItems funcTy.results words) }) := by
  obtain ⟨sig, hsig, h₁⟩ := bind_eq_ok.1 hcompile
  obtain ⟨⟨loads, args, next⟩, hloads, h₂⟩ := bind_eq_ok.1 h₁
  let s₀ : TrampolineState := ⟨fun i => [vmctx, caller, ptr, len].getD i 0, mem⟩
  obtain ⟨env₁, hrun₁, hnext, hsame₁, hbelow, hargs⟩ :=
    run_enter framePointer pc code (s := s₀) hparams hloads hparamsLen
  have hkind : mem.words (env₁ 0) = VMCONTEXT_MAGIC := by
    rw [hsame₁ 0 (by omega)]
    exact hmagic
  obtain ⟨env₂, hrun₂, hsame₂⟩ := run_vmctxKind framePointer pc code debug next
    (s := ⟨env₁, mem⟩) hkind
  have hnext₂ := le_vmctxKind_next debug 0 VMCONTEXT_MAGIC next
  dsimp only at h₂ hsame₂
  generalize debugAssertVmctxKind debug 0 VMCONTEXT_MAGIC next = kind at h₂ hrun₂ hnext₂
  obtain ⟨check, next₂⟩ := kind
  dsimp only at h₂ hrun₂ hnext₂
  obtain ⟨stores, hstores, h₃⟩ := bind_eq_ok.1 h₂
  obtain rfl := Except.ok.inj h₃
  let env₃ := Function.update env₂ next₂ framePointer
  have hsame₃ : ∀ i < next, env₃ i = env₁ i := fun i hi =>
    (Function.update_of_ne (by omega) ..).trans (hsame₂ i hi)
  -- The first part of the code, up to the call.
  have hentered : runInsts framePointer pc code
      (loads ++ check ++ [.getFramePointer next₂, .storeWord next₂ 0 off.vmctxLastWasmEntryFp]) s₀
        = .ok ⟨env₃, enteredMemory framePointer mem off vmctx⟩ := by
    have hloaded := (runInsts_append hrun₁).trans hrun₂
    refine (runInsts_append hloaded).trans ?_
    have h0 : env₃ 0 = vmctx := (hsame₃ 0 (by omega)).trans (hsame₁ 0 (by omega))
    have hfp : env₃ next₂ = framePointer := Function.update_self ..
    show Except.ok (TrampolineState.mk env₃ ⟨mem.bytes,
      Function.update mem.words (env₃ 0 + off.vmctxLastWasmEntryFp) (env₃ next₂)⟩) = _
    rw [h0, hfp]
    rfl
  have hcallArgs : (0 :: 1 :: args.map ClifValue.index).map env₃
      = vmctx :: caller :: slotArgs mem.bytes ptr funcTy.params := by
    have hvalues : (args.map ClifValue.index).map env₃ = slotArgs mem.bytes ptr funcTy.params := by
      refine Eq.trans ?_ hargs
      rw [List.map_map]
      exact List.map_congr_left fun val hval => hsame₃ val.index (hbelow val hval)
    rw [List.map_cons, List.map_cons, hvalues, hsame₃ 0 (by omega), hsame₃ 1 (by omega),
      hsame₁ 0 (by omega), hsame₁ 1 (by omega)]
    rfl
  -- The call and what follows it.
  have hreturns := wasmCallSignature_numeric hresults hsig
  set results := instResults sig.returns (next₂ + 1) with hresultsDef
  have hinsts : runTrampoline framePointer pc code
      (loads ++ check ++ [.getFramePointer next₂, .storeWord next₂ 0 off.vmctxLastWasmEntryFp]
        ++ [.call index (0 :: 1 :: args.map ClifValue.index) (results.map ClifValue.index)] ++ stores)
      vmctx caller ptr len mem
      = trampolineOutcome (runInsts framePointer pc code
          (.call index (0 :: 1 :: args.map ClifValue.index) (results.map ClifValue.index) :: stores)
          ⟨env₃, enteredMemory framePointer mem off vmctx⟩) := by
    rw [← List.singleton_append (l := stores), ← runInsts_append hentered, List.append_assoc]
    rfl
  refine ⟨fun reason mem' hcode => ?_, fun words mem' hcode hlength => ?_⟩
  · rw [hinsts, runInsts_call_error (hcallArgs ▸ hcode)]
    rfl
  · have hcount : results.length = words.length := by
      rw [hresultsDef, instResults, List.length_map, List.length_zipIdx, hreturns, List.length_map,
        hlength]
    have hnodup : (results.map ClifValue.index).Nodup := by
      rw [hresultsDef, instResults_index]
      exact List.nodup_range'
    have hdefined : (results.map ClifValue.index).length = words.length := by
      rw [List.length_map, hcount]
    obtain ⟨hmem, hwords, hsame₄⟩ := define_spec (s := ⟨env₃, mem'⟩) hnodup hdefined
    rw [hresultsDef, instResults_index] at hsame₄
    have hparam : ∀ i < 4, ((⟨env₃, mem'⟩ : TrampolineState).define (results.map ClifValue.index)
        words).env i = [vmctx, caller, ptr, len].getD i 0 := by
      intro i hi
      rw [hresultsDef, instResults_index, hsame₄ i fun hmem => ?_]
      · exact (hsame₃ i (by omega)).trans (hsame₁ i hi)
      · have := (List.mem_range'_1.1 hmem).1
        omega
    obtain ⟨env₅, hrun₅⟩ := run_leave framePointer pc code
      (s := (⟨env₃, mem'⟩ : TrampolineState).define (results.map ClifValue.index) words) hstores
      (by rw [hparam 3 (by omega)]; exact hresultsLen) (by omega) fun val hval => by
        have hindex := List.mem_map_of_mem (f := ClifValue.index) hval
        rw [hresultsDef, instResults_index] at hindex
        have := (List.mem_range'_1.1 hindex).2
        rw [hresultsDef, instResults, List.length_map, List.length_zipIdx]
        omega
    have hitems : results.map (fun val => (val.ty.bytes, ((⟨env₃, mem'⟩ : TrampolineState).define
        (results.map ClifValue.index) words).env val.index)) = slotItems funcTy.results words := by
      have hsizes : results.map (fun val => val.ty.bytes)
          = funcTy.results.map fun ty => ty.clifTy.bytes := by
        calc results.map (fun val => val.ty.bytes)
            = (results.map ClifValue.ty).map Ty.bytes := by rw [List.map_map]; rfl
          _ = (funcTy.results.map WasmValType.clifTy).map Ty.bytes := by
            rw [hresultsDef, instResults_ty, hreturns]
          _ = funcTy.results.map fun ty => ty.clifTy.bytes := by rw [List.map_map]; rfl
      rw [← List.zip_map', slotItems, hsizes]
      refine congrArg _ (Eq.trans ?_ hwords)
      rw [List.map_map]
      rfl
    rw [hinsts, runInsts_call_ok (hcallArgs ▸ hcode), hrun₅, hmem, hparam 2 (by omega), hitems]
    rfl

end Run

/-! ## The host -/

namespace Func

theorem slotArgs_copyArguments {asRaw junk : ℕ → ℕ} {values : VMValVec} {bytes : ByteMemory}
    {params : List Val} {types : List WasmValType} (h : List.Forall₂ Val.HasType params types)
    (hlen : params.length ≤ values.len) :
    slotArgs (copyArguments asRaw junk values bytes params) values.ptr types
      = params.map Val.bits := by
  refine List.ext_getElem? fun i => ?_
  rw [slotArgs, List.getElem?_map, List.getElem?_map, List.getElem?_zipIdx]
  rcases hi : params[i]? with _ | val
  · have hle := List.getElem?_eq_none_iff.1 hi
    rw [h.length_eq] at hle
    rw [List.getElem?_eq_none_iff.2 hle]
    rfl
  · obtain ⟨ty, hty, hval⟩ := forall₂_getElem? h hi
    rw [hty]
    have hslot : ((params.take values.len).zipIdx.map fun e =>
        (16, (e.1.asVmval asRaw).slotWord e.1.initialized (junk e.2)))[i]?
          = some (16, (val.asVmval asRaw).slotWord val.initialized (junk i)) := by
      rw [List.take_of_length_le hlen, List.getElem?_map, List.getElem?_zipIdx, hi]
      simp
    have hle : ty.clifTy.bytes ≤ 16 := ty.bytes_le
    have hload := ByteMemory.load_storeSlots bytes values.ptr (fun e he => (?_ : e.1 ≤ 16)) hslot hle
    · rw [hval.slotWord_mod] at hload
      simp only [Option.map_some, Nat.zero_add]
      exact congrArg some hload
    · obtain ⟨_, -, rfl⟩ := List.mem_map.1 he
      exact le_rfl

theorem copyResults_words {funcTy : WasmFuncType} (values : VMValVec) (bytes : ByteMemory)
    {words : List ℕ} {results : List Val} (hnumeric : ∀ ty ∈ funcTy.results, ty.IsNumeric)
    (hwords : List.Forall₂ WasmValType.Holds funcTy.results words)
    (hresults : results.length = funcTy.results.length) (hlen : results.length ≤ values.len) :
    ∃ results', copyResults funcTy values
        (bytes.storeSlots values.ptr 16 (slotItems funcTy.results words)) results = .ok results'
      ∧ results'.map Val.bits = words ∧ List.Forall₂ Val.HasType results' funcTy.results := by
  have hcount : min results.length values.len = funcTy.results.length := by omega
  have hread : ∀ i ty, funcTy.results[i]? = some ty → ∃ word val, words[i]? = some word
      ∧ Val.fromVmval (values.get
        (bytes.storeSlots values.ptr 16 (slotItems funcTy.results words)) i) ty = .ok val
      ∧ val.HasType ty ∧ val.bits = word := by
    intro i ty hty
    obtain ⟨word, hword, hholds⟩ := forall₂_getElem? hwords hty
    have hsize := ty.bytes_le
    have hitem : (slotItems funcTy.results words)[i]? = some (ty.clifTy.bytes, word) := by
      rw [slotItems, List.getElem?_zip_eq_some, List.getElem?_map, hty]
      exact ⟨rfl, hword⟩
    have hload := ByteMemory.load_storeSlots bytes values.ptr (fun e he => (?_ : e.1 ≤ 16)) hitem le_rfl
    · rw [Nat.mod_eq_of_lt hholds] at hload
      obtain ⟨val, hval⟩ := fromVmval_word (hnumeric ty (List.mem_of_getElem? hty))
        ((ByteMemory.load_mod _ hsize).trans hload)
      exact ⟨word, val, hword, hval⟩
    · obtain ⟨ty', -, hsize'⟩ := List.mem_map.1 (List.of_mem_zip he).1
      exact hsize' ▸ ty'.bytes_le
  unfold copyResults
  rw [hcount, List.drop_eq_nil_of_le hlen]
  generalize hf : (fun i => do
    let ty ← unwrap "index out of bounds" funcTy.results[i]?
    Val.fromVmval (values.get
      (bytes.storeSlots values.ptr 16 (slotItems funcTy.results words)) i) ty) = f
  have hstep : ∀ i ty, funcTy.results[i]? = some ty →
      ∃ word val, words[i]? = some word ∧ f i = .ok val ∧ val.HasType ty ∧ val.bits = word := by
    intro i ty hty
    obtain ⟨word, val, hword, hval, hspec⟩ := hread i ty hty
    refine ⟨word, val, hword, ?_, hspec⟩
    rw [← hf]
    simp only [hty]
    exact hval
  obtain ⟨vals, hvals⟩ := exists_mapM_ok (f := f) (l := List.range funcTy.results.length) fun i hi => by
    obtain ⟨_, val, -, hval, -⟩ :=
      hstep i _ (List.getElem?_eq_getElem (List.mem_range.1 hi))
    exact ⟨val, hval⟩
  have hlength : vals.length = funcTy.results.length := by
    rw [mapM_ok_length hvals, List.length_range]
  have hval : ∀ (i : ℕ) (ty : WasmValType), funcTy.results[i]? = some ty →
      ∃ (word : ℕ) (val : Val), words[i]? = some word ∧ vals[i]? = some val ∧ val.HasType ty
        ∧ val.bits = word := by
    intro i ty hty
    obtain ⟨word, val, hword, hok, hspec⟩ := hstep i ty hty
    have hi := (List.getElem?_eq_some_iff.1 hty).1
    obtain ⟨val', hval', hok'⟩ := mapM_getElem? hvals (List.getElem?_range hi)
    obtain rfl := Except.ok.inj (hok.symm.trans hok')
    exact ⟨word, val, hword, hval', hspec⟩
  refine ⟨vals, ?_, List.ext_getElem? fun i => ?_, List.forall₂_iff_get.2 ⟨hlength, fun i h₁ h₂ => ?_⟩⟩
  · rw [hvals]
    simp [bind, Except.bind, pure, Except.pure]
  · rw [List.getElem?_map]
    rcases hty : funcTy.results[i]? with _ | ty
    · have hle := List.getElem?_eq_none_iff.1 hty
      rw [List.getElem?_eq_none_iff.2 (hlength ▸ hle),
        List.getElem?_eq_none_iff.2 (hwords.length_eq ▸ hle)]
      rfl
    · obtain ⟨word, val, hword, hvals', -, rfl⟩ := hval i ty hty
      rw [hword, hvals']
      rfl
  · obtain ⟨word, val, -, hvals', hspec, -⟩ := hval i _ (List.getElem?_eq_getElem h₂)
    rw [List.getElem?_eq_getElem h₁] at hvals'
    obtain rfl := Option.some_inj.1 hvals'
    exact hspec

/-- The memory in which the function is called: the arguments are in their slots, and the words are
those that the call from the host and the trampoline have written. -/
def argumentsMemory (asRaw junk : ℕ → ℕ) (off : StaticVMOffsets) (stackPointer framePointer vmctx : ℕ)
    (values : VMValVec) (bytes : ByteMemory) (words : Words) (params : List Val) : HostMemory :=
  enteredMemory framePointer ⟨copyArguments asRaw junk values bytes params,
    Function.update words (vmctx + off.vmctxStackLimit) (stackPointer - MAX_WASM_STACK)⟩ off vmctx

/-- A call of the function pointer is made with the limit in place, and its outcome is returned with
what it left in the slots. -/
theorem callUncheckedRaw_spec {off : StaticVMOffsets} {stackPointer : ℕ} (func : ArrayFunc)
    (mem : HostMemory) {mem₂ : HostMemory} {ptr len : ℕ} {res : Except TrapReason Unit}
    (hstack : MAX_WASM_STACK ≤ stackPointer)
    (h : func.arrayCall func.vmctx func.vmctx ptr len ⟨mem.bytes, Function.update mem.words
      (func.vmctx + off.vmctxStackLimit) (stackPointer - MAX_WASM_STACK)⟩ = (res, mem₂)) :
    ∃ words, callUncheckedRaw off stackPointer func mem ptr len
      = .ok (res.mapError trapError, ⟨mem₂.bytes, words⟩) := by
  have hlimit : checkedSub stackPointer MAX_WASM_STACK = .ok (stackPointer - MAX_WASM_STACK) :=
    checkedSub_eq_ok.2 ⟨hstack, rfl⟩
  unfold callUncheckedRaw enterWasm
  simp only [hlimit, bind, Except.bind, pure, Except.pure, h]
  cases res with
  | error reason => exact ⟨_, rfl⟩
  | ok _ => exact ⟨_, rfl⟩

section

variable {debug : Bool} {alloc asRaw junk : ℕ → ℕ} {off : StaticVMOffsets} {stackPointer : ℕ}
  {func : ArrayFunc} {storage values : VMValVec} {bytes : ByteMemory} {mem mem' : HostMemory}
  {params results results' : List Val}

/-- A call that traps leaves the results. -/
theorem callUnchecked_error {e : Error} (hempty : storage.len = 0)
    (hresize : storage.resizeWithZero alloc mem.bytes (max params.length func.ty.results.length)
      = (values, bytes))
    (h : callUncheckedRaw off stackPointer func
      ⟨copyArguments asRaw junk values bytes params, mem.words⟩ values.ptr
      (max params.length func.ty.results.length) = .ok (.error e, mem')) :
    callUnchecked debug alloc asRaw junk off stackPointer func storage mem params results
      = .ok (.error e, results, .new, mem') := by
  have hassert :
      debugAssert debug (storage.len = 0) "assertion failed: values_vec.is_empty()" = .ok () :=
    debugAssert_eq_ok.2 fun _ => decide_eq_true hempty
  unfold callUnchecked
  simp only [hassert, hresize, bind, Except.bind, h]
  rfl

/-- A call that returns leaves what it copies out of the slots. -/
theorem callUnchecked_ok (hempty : storage.len = 0)
    (hresize : storage.resizeWithZero alloc mem.bytes (max params.length func.ty.results.length)
      = (values, bytes))
    (h : callUncheckedRaw off stackPointer func
      ⟨copyArguments asRaw junk values bytes params, mem.words⟩ values.ptr
      (max params.length func.ty.results.length) = .ok (.ok (), mem'))
    (hcopy : copyResults func.ty values mem'.bytes results = .ok results') :
    callUnchecked debug alloc asRaw junk off stackPointer func storage mem params results
      = .ok (.ok (), results', values.truncate 0, mem') := by
  have hassert :
      debugAssert debug (storage.len = 0) "assertion failed: values_vec.is_empty()" = .ok () :=
    debugAssert_eq_ok.2 fun _ => decide_eq_true hempty
  unfold callUnchecked
  simp only [hassert, hresize, bind, Except.bind, h, hcopy]
  rfl

end

/-- The vectors that calls leave with the store. -/
inductive StorageReached : VMValVec → Prop
  | new : StorageReached .new
  | call {debug : Bool} {alloc asRaw junk : ℕ → ℕ} {off : StaticVMOffsets} {stackPointer : ℕ}
      {func : ArrayFunc} {storage storage' : VMValVec} {mem mem' : HostMemory}
      {params results results' : List Val} {res : Except Error Unit} (h : StorageReached storage)
      (hcall : callUnchecked debug alloc asRaw junk off stackPointer func storage mem params results
        = .ok (res, results', storage', mem')) : StorageReached storage'

theorem callUnchecked_storage {debug : Bool} {alloc asRaw junk : ℕ → ℕ} {off : StaticVMOffsets}
    {stackPointer : ℕ} {func : ArrayFunc} {storage storage' : VMValVec} {mem mem' : HostMemory}
    {params results results' : List Val} {res : Except Error Unit}
    (h : callUnchecked debug alloc asRaw junk off stackPointer func storage mem params results
      = .ok (res, results', storage', mem')) : storage'.len = 0 := by
  obtain ⟨_, -, h₁⟩ := bind_eq_ok.1 h
  obtain ⟨⟨res', mem''⟩, -, h₂⟩ := bind_eq_ok.1 h₁
  rcases res' with e | _
  · obtain ⟨-, h₃⟩ := Prod.mk.inj (Except.ok.inj h₂)
    obtain ⟨-, h₄⟩ := Prod.mk.inj h₃
    obtain ⟨rfl, -⟩ := Prod.mk.inj h₄
    rfl
  · obtain ⟨_, -, h₃⟩ := bind_eq_ok.1 h₂
    obtain ⟨-, h₄⟩ := Prod.mk.inj (Except.ok.inj h₃)
    obtain ⟨-, h₅⟩ := Prod.mk.inj h₄
    obtain ⟨rfl, -⟩ := Prod.mk.inj h₅
    exact Nat.min_zero _

/-- The vector is empty whenever it is taken. -/
theorem StorageReached.len_eq {storage : VMValVec} (h : StorageReached storage) : storage.len = 0 := by
  cases h with
  | new => rfl
  | call h hcall => exact callUnchecked_storage hcall

end Func

/-- A trampoline is emitted for every type whose slots have offsets. -/
theorem compileArrayToWasmTrampoline_ok {debug : Bool} {pointerType : Ty} {off : StaticVMOffsets}
    {index : ℕ} {funcTy : WasmFuncType} (hparamTypes : ∀ ty ∈ funcTy.params, ty.IsNumeric)
    (hresultTypes : ∀ ty ∈ funcTy.results, ty.IsNumeric) (hparams : funcTy.params.length ≤ 2 ^ 27)
    (hresults : funcTy.results.length ≤ 2 ^ 27) :
    ∃ insts, compileArrayToWasmTrampoline debug pointerType off index funcTy = .ok insts := by
  have htypes : ∀ types : List WasmValType, (∀ ty ∈ types, ty.IsNumeric) →
      ∃ tys, types.mapM (valueType pointerType) = .ok tys :=
    fun types h => exists_mapM_ok fun ty hty => ⟨_, valueType_numeric pointerType (h ty hty)⟩
  obtain ⟨params, hparamTys⟩ := htypes _ hparamTypes
  obtain ⟨returns, hreturnTys⟩ := htypes _ hresultTypes
  have hsig : wasmCallSignature pointerType funcTy
      = .ok ⟨pointerType :: pointerType :: params, returns⟩ := by
    rw [wasmCallSignature, hparamTys, hreturnTys]
    rfl
  have hloads : ∀ next, ∃ slots, slotValues pointerType funcTy.params next = .ok slots := by
    refine fun next => exists_mapM_ok fun e he => ⟨(⟨next + e.2, e.1.clifTy⟩, e.2 * 16), ?_⟩
    have hget := List.mem_zipIdx_iff_getElem?.1 he
    have hi := (List.getElem?_eq_some_iff.1 hget).1
    simp only [valueType_numeric pointerType (hparamTypes e.1 (List.mem_of_getElem? hget)),
      slotOffset_ok (hi.trans_le hparams), bind, Except.bind]
    rfl
  have hstores : ∀ next next', ∃ stores, storeValuesToArray debug funcTy.results
      (instResults returns next) 2 3 next' = .ok stores := by
    intro next next'
    have hlength : (instResults returns next).length = funcTy.results.length := by
      rw [instResults, List.length_map, List.length_zipIdx, mapM_ok_length hreturnTys]
    obtain ⟨stores, h⟩ := exists_mapM_ok (f := fun e : ClifValue × ℕ => do
        let offset ← slotOffset e.2
        pure (TrampolineInst.store e.1 2 offset)) (l := (instResults returns next).zipIdx) fun e he => by
      have hi := (List.getElem?_eq_some_iff.1 (List.mem_zipIdx_iff_getElem?.1 he)).1
      exact ⟨.store e.1 2 (e.2 * 16), by
        rw [slotOffset_ok ((hlength ▸ hi).trans_le hresults)]
        rfl⟩
    have hassert : debugAssert debug (funcTy.results.length = (instResults returns next).length)
        "assertion `left == right` failed" = .ok () :=
      debugAssert_eq_ok.2 fun _ => decide_eq_true hlength.symm
    unfold storeValuesToArray
    simp only [hassert, bind, Except.bind] at h ⊢
    rw [h]
    exact ⟨_, rfl⟩
  unfold compileArrayToWasmTrampoline loadValuesFromArray
  obtain ⟨slots, hslots⟩ :=
    hloads (debugAssertEnoughCapacityForLength debug funcTy.params.length 3 4).2
  simp only [hsig, hslots, bind, Except.bind, pure, Except.pure]
  obtain ⟨stores, hstores⟩ := hstores _ _
  rw [hstores]
  exact ⟨_, rfl⟩

/-- However the calls before it ended, a call passes its arguments to the function and gets the results
from it, or it returns the error of the trap and leaves the results as they were. -/
theorem call_transfers_values {debug : Bool} {index framePointer pc stackPointer vmctx : ℕ}
    {funcTy : WasmFuncType} {insts : List TrampolineInst}
    (hcompile : compileArrayToWasmTrampoline debug .I64 ⟨8⟩ index funcTy = .ok insts)
    (hparamTypes : ∀ ty ∈ funcTy.params, ty.IsNumeric)
    (hresultTypes : ∀ ty ∈ funcTy.results, ty.IsNumeric) {storage : VMValVec}
    (hstorage : Func.StorageReached storage) {mem : HostMemory}
    (hmagic : mem.words vmctx = VMCONTEXT_MAGIC) (hstack : MAX_WASM_STACK ≤ stackPointer)
    (alloc asRaw junk : ℕ → ℕ) {params results : List Val}
    (hparams : List.Forall₂ Val.HasType params funcTy.params)
    (hresults : results.length = funcTy.results.length) :
    ∃ mem₁ : HostMemory, ∀ code : ℕ → WasmCode,
      let func : ArrayFunc := ⟨funcTy, vmctx, runTrampoline framePointer pc code insts⟩
      (∀ reason mem₂, code index (vmctx :: vmctx :: params.map Val.bits) mem₁ = (.error reason, mem₂) →
        ∃ storage' mem', Func.callUnchecked debug alloc asRaw junk ⟨8⟩ stackPointer func storage mem
          params results = .ok (.error (Func.trapError reason), results, storage', mem'))
      ∧ ∀ words mem₂, code index (vmctx :: vmctx :: params.map Val.bits) mem₁ = (.ok words, mem₂) →
        List.Forall₂ WasmValType.Holds funcTy.results words →
        ∃ results' storage' mem', Func.callUnchecked debug alloc asRaw junk ⟨8⟩ stackPointer func
            storage mem params results = .ok (.ok (), results', storage', mem')
          ∧ results'.map Val.bits = words ∧ List.Forall₂ Val.HasType results' funcTy.results := by
  let size := max params.length funcTy.results.length
  let values := (storage.resizeWithZero alloc mem.bytes size).1
  let bytes := (storage.resizeWithZero alloc mem.bytes size).2
  refine ⟨Func.argumentsMemory asRaw junk ⟨8⟩ stackPointer framePointer vmctx values bytes mem.words
    params, fun code => ?_⟩
  -- The trampoline is called with the arguments in their slots.
  have hmagic' : Function.update mem.words (vmctx + (⟨8⟩ : StaticVMOffsets).vmctxStackLimit)
      (stackPointer - MAX_WASM_STACK) vmctx = VMCONTEXT_MAGIC := by
    rw [Function.update_of_ne, hmagic]
    exact (Nat.lt_add_of_pos_right (by decide)).ne
  have hargs : slotArgs (Func.copyArguments asRaw junk values bytes params) values.ptr funcTy.params
      = params.map Val.bits := Func.slotArgs_copyArguments hparams (Nat.le_max_left ..)
  have hsize : funcTy.params.length ≤ size := by
    rw [← hparams.length_eq]
    exact Nat.le_max_left ..
  let entered : HostMemory := ⟨Func.copyArguments asRaw junk values bytes params,
    Function.update mem.words (vmctx + (⟨8⟩ : StaticVMOffsets).vmctxStackLimit)
      (stackPointer - MAX_WASM_STACK)⟩
  obtain ⟨htrap, hreturn⟩ := runTrampoline_spec framePointer pc code hcompile hparamTypes hresultTypes
    vmctx vmctx entered hsize (Nat.le_max_right ..) hmagic'
  rw [hargs] at htrap hreturn
  refine ⟨fun reason mem₂ hcode => ?_, fun words mem₂ hcode hwords => ?_⟩
  · obtain ⟨words', hraw⟩ := Func.callUncheckedRaw_spec
      ⟨funcTy, vmctx, runTrampoline framePointer pc code insts⟩
      ⟨Func.copyArguments asRaw junk values bytes params, mem.words⟩ hstack
      (htrap reason mem₂ hcode)
    exact ⟨_, _, Func.callUnchecked_error hstorage.len_eq rfl hraw⟩
  · obtain ⟨words', hraw⟩ := Func.callUncheckedRaw_spec
      ⟨funcTy, vmctx, runTrampoline framePointer pc code insts⟩
      ⟨Func.copyArguments asRaw junk values bytes params, mem.words⟩ hstack
      (hreturn words mem₂ hcode hwords.length_eq.symm)
    obtain ⟨results', hcopy, hspec⟩ := Func.copyResults_words values mem₂.bytes hresultTypes hwords
      hresults (hresults ▸ Nat.le_max_right ..)
    exact ⟨results', _, _, Func.callUnchecked_ok hstorage.len_eq rfl hraw hcopy, hspec⟩

/-- A function that returns what it is given. -/
theorem call_transfers_values_identity : ∃ insts, compileArrayToWasmTrampoline true .I64 ⟨8⟩ 0
      ⟨[.i32, .f64], [.i32, .f64]⟩ = .ok insts
    ∧ ∃ results' storage' mem', Func.callUnchecked true (fun _ => 4096) id (fun _ => 255) ⟨8⟩
        MAX_WASM_STACK ⟨⟨[.i32, .f64], [.i32, .f64]⟩, 0,
          runTrampoline 0 0 (fun _ args mem => (.ok (args.drop 2), mem)) insts⟩
        .new ⟨fun _ => 0, fun _ => VMCONTEXT_MAGIC⟩ [.i32 5, .f64 7] [.i32 0, .i32 0]
          = .ok (.ok (), results', storage', mem')
      ∧ results'.map Val.bits = [5, 7] ∧ List.Forall₂ Val.HasType results' [.i32, .f64] := by
  have htypes : ∀ ty ∈ [WasmValType.i32, .f64], ty.IsNumeric := by
    simp [WasmValType.IsNumeric]
  have hcompile : ∃ insts, compileArrayToWasmTrampoline true .I64 ⟨8⟩ 0 ⟨[.i32, .f64], [.i32, .f64]⟩
      = .ok insts := compileArrayToWasmTrampoline_ok htypes htypes (by decide) (by decide)
  obtain ⟨insts, hinsts⟩ := hcompile
  have hmagic : (⟨fun _ => 0, fun _ => VMCONTEXT_MAGIC⟩ : HostMemory).words 0 = VMCONTEXT_MAGIC := rfl
  have hresults : [Val.i32 0, .i32 0].length = 2 := rfl
  obtain ⟨_, h⟩ := call_transfers_values hinsts htypes htypes .new hmagic le_rfl (fun _ => 4096) id
    (fun _ => 255) (.cons .i32 (.cons .f64 .nil)) hresults
  exact ⟨insts, hinsts, (h _).2 [5, 7] _ rfl (.cons (by decide) (.cons (by decide) .nil))⟩

end K23VM
