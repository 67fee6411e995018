import K23VM.Errors
import K23VM.Lib.Rounding
import K23VM.Lib.Word

/-!
# Mapped memory

An `Mmap` is a reserved range of addresses, of which some ranges have been made accessible.  The
system calls are a parameter: they may fail, and where they succeed they do what they are asked.
-/

namespace K23VM

/-- The host: its page size and which system calls succeed. -/
structure Host where
  pageSize : ℕ
  mmapOk : ℕ → Bool
  mprotectOk : ℕ → ℕ → Bool

namespace Host

variable (host : Host)

def usizeIsMultipleOfHostPageSize (bytes : ℕ) : Bool := bytes % host.pageSize == 0

def roundU64UpToHostPages (bytes : ℕ) : Except Fault ℕ := do
  let pageSizeMinusOne ← checkedSub host.pageSize 1
  if bytes + pageSizeMinusOne < 2 ^ 64 then
    .ok ((bytes + pageSizeMinusOne) &&& (2 ^ 64 - 1 - pageSizeMinusOne))
  else
    panicking "too large to be rounded up to a multiple of the host page size"

def roundUsizeUpToHostPages (bytes : ℕ) : Except Fault ℕ := host.roundU64UpToHostPages bytes

theorem roundUsizeUpToHostPages_eq {host : Host} {k bytes : ℕ} (hp : host.pageSize = 2 ^ k)
    (hk : k < 64) (h : bytes + (2 ^ k - 1) < 2 ^ 64) :
    host.roundUsizeUpToHostPages bytes = .ok (roundUp (2 ^ k) bytes) := by
  have hpos : 1 ≤ 2 ^ k := Nat.one_le_two_pow
  have hmask : 2 ^ 64 - 1 - (2 ^ k - 1) = 2 ^ 64 - 2 ^ k := by omega
  unfold roundUsizeUpToHostPages roundU64UpToHostPages checkedSub
  simp only [hp, if_pos hpos, bind, Except.bind, if_pos h, hmask]
  rw [land_two_pow_sub hk.le h]
  rfl

end Host

structure Mmap where
  len : ℕ
  /-- The ranges made accessible, as start and length. -/
  ranges : List (ℕ × ℕ)
  deriving DecidableEq, Repr

namespace Mmap

/-- Whether the byte can be read and written. -/
def accessible (m : Mmap) (i : ℕ) : Bool := m.ranges.any fun r => r.1 ≤ i && i < r.1 + r.2

def withReserve (host : Host) (size : ℕ) : Fallible Error Mmap := do
  assertThat (host.usizeIsMultipleOfHostPageSize size)
    "assertion failed: usize_is_multiple_of_host_page_size(size)"
  assertThat (0 < size) "assertion failed: size > 0"
  if host.mmapOk size then pure ⟨size, []⟩ else throw .mmapFailed

def makeAccessible (host : Host) (m : Mmap) (start len : ℕ) : Fallible Error Mmap := do
  assertThat (start + len ≤ m.len) "assertion failed: start + len <= self.memory.len()"
  assertThat (start % host.pageSize = 0) "changing of protections isn't page-aligned"
  if host.mprotectOk start len then pure { m with ranges := (start, len) :: m.ranges }
  else throw .mmapFailed

end Mmap

end K23VM
