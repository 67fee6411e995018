import Mathlib.Algebra.Order.Ring.Nat
import Mathlib.Data.Nat.ModEq
import Mathlib.Tactic.Ring

/-!
# Little-endian words in byte memory

A memory of bytes, in which words of any number of bytes are stored and loaded with the lowest byte
first.  A load sees the low bytes of the word that was stored where it loads from, and nothing of a store
elsewhere.
-/

namespace K23VM

/-- The bytes by their addresses. -/
abbrev ByteMemory := ℕ → UInt8

namespace ByteMemory

/-- The byte of a word at a position, counted from the lowest. -/
def byteOf (v i : ℕ) : UInt8 := UInt8.ofNat (v / 256 ^ i)

def load (mem : ByteMemory) (addr : ℕ) : ℕ → ℕ
  | 0 => 0
  | n + 1 => (mem addr).toNat + 256 * load mem (addr + 1) n

def store (mem : ByteMemory) (addr n v : ℕ) : ByteMemory := fun a =>
  if addr ≤ a ∧ a < addr + n then byteOf v (a - addr) else mem a

variable {mem mem' : ByteMemory} {addr addr' m n v : ℕ}

theorem byteOf_toNat (v i : ℕ) : (byteOf v i).toNat = v / 256 ^ i % 256 := UInt8.toNat_ofNat'

theorem byteOf_succ (v i : ℕ) : byteOf v (i + 1) = byteOf (v / 256) i := by
  rw [byteOf, byteOf, pow_succ', Nat.div_div_eq_div_mul]

/-- A load of bytes that are those of a word. -/
theorem load_eq_mod : ∀ {n addr v : ℕ}, (∀ i < n, mem (addr + i) = byteOf v i) →
    mem.load addr n = v % 256 ^ n
  | 0, _, v, _ => by rw [load, pow_zero, Nat.mod_one]
  | n + 1, addr, v, h => by
    have hhead : (mem addr).toNat = v % 256 := by
      have h0 := h 0 (Nat.succ_pos n)
      rw [Nat.add_zero] at h0
      rw [h0, byteOf_toNat, pow_zero, Nat.div_one]
    have htail : mem.load (addr + 1) n = v / 256 % 256 ^ n := by
      refine load_eq_mod fun i hi => ?_
      rw [← byteOf_succ, ← h (i + 1) (Nat.succ_lt_succ hi), Nat.add_right_comm, Nat.add_assoc]
    rw [load, hhead, htail, pow_succ', Nat.mod_mul]

theorem load_congr : ∀ {n addr : ℕ}, (∀ i < n, mem (addr + i) = mem' (addr + i)) →
    mem.load addr n = mem'.load addr n
  | 0, _, _ => rfl
  | n + 1, addr, h => by
    have htail : mem.load (addr + 1) n = mem'.load (addr + 1) n := by
      refine load_congr fun i hi => ?_
      have hi := h (i + 1) (Nat.succ_lt_succ hi)
      rwa [Nat.add_comm i 1, ← Nat.add_assoc] at hi
    have hhead := h 0 (Nat.succ_pos n)
    rw [Nat.add_zero] at hhead
    rw [load, load, hhead, htail]

theorem load_lt (mem : ByteMemory) : ∀ addr n : ℕ, mem.load addr n < 256 ^ n
  | _, 0 => Nat.one_pos
  | addr, n + 1 => by
    have hhead := (mem addr).toNat_lt
    have htail := load_lt mem (addr + 1) n
    rw [load, pow_succ]
    omega

/-- The low bytes of a load are a load of fewer bytes. -/
theorem load_mod (mem : ByteMemory) : ∀ {addr n m : ℕ}, n ≤ m →
    mem.load addr m % 256 ^ n = mem.load addr n
  | _, 0, _, _ => by rw [pow_zero, Nat.mod_one, load]
  | addr, n + 1, m + 1, h => by
    have hhead := (mem addr).toNat_lt
    have hmod : ((mem addr).toNat + 256 * mem.load (addr + 1) m) % 256 = (mem addr).toNat := by omega
    have hdiv : ((mem addr).toNat + 256 * mem.load (addr + 1) m) / 256 = mem.load (addr + 1) m := by
      omega
    rw [load, load, ← load_mod mem (Nat.le_of_succ_le_succ h), pow_succ', Nat.mod_mul, hmod, hdiv]

/-- A load at the address of a store has the low bytes of what was stored. -/
theorem load_store (h : n ≤ m) : (mem.store addr m v).load addr n = v % 256 ^ n := by
  refine load_eq_mod fun i hi => ?_
  rw [store, if_pos ⟨Nat.le_add_right addr i, Nat.add_lt_add_left (hi.trans_le h) addr⟩,
    Nat.add_sub_cancel_left]

/-- A load elsewhere does not see a store. -/
theorem load_store_of_disjoint (h : addr + n ≤ addr' ∨ addr' + m ≤ addr) :
    (mem.store addr' m v).load addr n = mem.load addr n := by
  refine load_congr fun i hi => ?_
  rw [store, if_neg]
  omega

/-! ## Slots -/

/-- Store words of the given sizes in slots, from an address on. -/
def storeSlots (mem : ByteMemory) (addr slot : ℕ) : List (ℕ × ℕ) → ByteMemory
  | [] => mem
  | (n, v) :: items => storeSlots (mem.store addr n v) (addr + slot) slot items

variable {slot : ℕ}

theorem load_storeSlots_before : ∀ {items : List (ℕ × ℕ)} {mem : ByteMemory} {addr' : ℕ},
    addr + n ≤ addr' → (mem.storeSlots addr' slot items).load addr n = mem.load addr n
  | [], _, _, _ => rfl
  | (m, v) :: items, mem, addr', h => by
    rw [storeSlots, load_storeSlots_before (h.trans (Nat.le_add_right addr' slot)),
      load_store_of_disjoint (.inl h)]

/-- A load from a slot has the low bytes of the word that was stored there. -/
theorem load_storeSlots : ∀ {items : List (ℕ × ℕ)} (mem : ByteMemory) (addr : ℕ) {i : ℕ},
    (∀ e ∈ items, e.1 ≤ slot) → items[i]? = some (m, v) → n ≤ m →
    (mem.storeSlots addr slot items).load (addr + i * slot) n = v % 256 ^ n
  | (m', v') :: items, mem, addr, 0, hslot, hi, hle => by
    obtain ⟨rfl, rfl⟩ := Prod.mk.inj (Option.some_inj.1 hi)
    have hm := hslot (m', v') List.mem_cons_self
    rw [storeSlots, Nat.zero_mul, Nat.add_zero, load_storeSlots_before, load_store hle]
    exact Nat.add_le_add_left (hle.trans hm) addr
  | (m', v') :: items, mem, addr, i + 1, hslot, hi, hle => by
    rw [storeSlots, Nat.succ_mul, Nat.add_comm (i * slot), ← Nat.add_assoc]
    exact load_storeSlots _ _ (fun e he => hslot e (List.mem_cons_of_mem _ he)) hi hle

end ByteMemory

end K23VM
