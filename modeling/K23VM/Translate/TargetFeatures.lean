import Mathlib.Data.Nat.Notation
import Mathlib.Tactic.SplitIfs
import K23VM.Lib.Fault

/-!
# The target features section

A byte, and then the names of features, each behind a `+` and its length.  A section that is not of this
form makes the reader panic.
-/

namespace K23VM

namespace Wasmparser

/-- Read an unsigned LEB128 number of at most 64 bits; its bytes so far stand for the lowest `shift`
bits. -/
def readVarU64 (shift : ℕ) : List UInt8 → Option (ℕ × List UInt8)
  | [] => none
  | byte :: rest =>
    if 57 ≤ shift ∧ byte.toNat >>> (64 - shift) ≠ 0 then none
    else if byte < 0x80 then some (byte.toNat <<< shift, rest)
    else do
      let (n, rest) ← readVarU64 (shift + 7) rest
      some ((byte.toNat - 0x80) <<< shift + n, rest)

/-- Read a number of bytes. -/
def readBytes (len : ℕ) (r : List UInt8) : Option (List UInt8 × List UInt8) :=
  if len ≤ r.length then some (r.take len, r.drop len) else none

/-- `core::str::from_utf8`. -/
def fromUtf8 (bytes : List UInt8) : Option String := String.fromUTF8? bytes.toByteArray

inductive WasmFeature where
  | threads | bulkMemory | exceptions | multiValue | mutableGlobal | saturatingFloatToInt
  | signExtension | simd | tailCall | referenceTypes | gc | memory64 | relaxedSimd | extendedConst
  | multiMemory | sharedEverythingThreads
  deriving DecidableEq, Repr

/-- The feature of a name; an unknown one is only reported. -/
def WasmFeature.ofName : String → Option WasmFeature
  | "atomics" => some .threads
  | "bulk-memory" => some .bulkMemory
  | "exception-handling" => some .exceptions
  | "multivalue" => some .multiValue
  | "mutable-globals" => some .mutableGlobal
  | "nontrapping-fptoint" => some .saturatingFloatToInt
  | "sign-ext" => some .signExtension
  | "simd128" => some .simd
  | "tail-call" => some .tailCall
  | "reference-types" => some .referenceTypes
  | "gc" => some .gc
  | "memory64" => some .memory64
  | "relaxed-simd" => some .relaxedSimd
  | "extended-const" => some .extendedConst
  | "multimemory" => some .multiMemory
  | "shared-everything" => some .sharedEverythingThreads
  | _ => none

theorem readVarU64_length : ∀ {shift : ℕ} {r rest : List UInt8} {n : ℕ},
    readVarU64 shift r = some (n, rest) → rest.length < r.length
  | _, [], _, _, h => by cases h
  | shift, byte :: r, rest, n, h => by
    unfold readVarU64 at h
    split_ifs at h
    · cases h
      exact Nat.lt_succ_self _
    · obtain ⟨⟨m, rest'⟩, hm, h⟩ := Option.bind_eq_some_iff.1 h
      cases h
      exact Nat.lt_trans (readVarU64_length hm) (Nat.lt_succ_self _)

theorem readBytes_eq_some {len : ℕ} {r bytes rest : List UInt8} :
    readBytes len r = some (bytes, rest) ↔ r = bytes ++ rest ∧ bytes.length = len := by
  unfold readBytes
  constructor
  · intro h
    split_ifs at h with hlen
    cases h
    exact ⟨(List.take_append_drop len r).symm, List.length_take_of_le hlen⟩
  · rintro ⟨rfl, rfl⟩
    rw [if_pos (by simp), List.take_left, List.drop_left]

end Wasmparser

open Wasmparser

/-- One feature, with the `+` before it and its length, and what is behind it. -/
def readFeature : List UInt8 → Except Fault (String × List UInt8)
  | [] => panicking "called `Result::unwrap()` on an `Err` value"
  | plus :: r => do
    assertThat (plus = 0x2b) "only the `+` prefix is supported"
    let (len, r) ← unwrap "called `Result::unwrap()` on an `Err` value" (readVarU64 0 r)
    let (feature, r) ← unwrap "called `Result::unwrap()` on an `Err` value" (readBytes len r)
    let feature ← unwrap "called `Result::unwrap()` on an `Err` value" (fromUtf8 feature)
    pure (feature, r)

theorem readFeature_eq_ok {r rest : List UInt8} {feature : String} :
    readFeature r = .ok (feature, rest) ↔ ∃ r' name : List UInt8,
      r = 0x2b :: r' ∧ readVarU64 0 r' = some (name.length, name ++ rest)
        ∧ fromUtf8 name = some feature := by
  constructor
  · intro h
    cases r with
    | nil => cases h
    | cons plus r =>
      unfold readFeature at h
      obtain ⟨_, hplus, h⟩ := bind_eq_ok.1 h
      obtain ⟨⟨len, r'⟩, hlen, h⟩ := bind_eq_ok.1 h
      obtain ⟨⟨name, rest'⟩, hname, h⟩ := bind_eq_ok.1 h
      obtain ⟨feature', hfeature, h⟩ := bind_eq_ok.1 h
      cases h
      obtain ⟨rfl, rfl⟩ := readBytes_eq_some.1 (unwrap_eq_ok.1 hname)
      have hplus' : plus = 0x2b := of_decide_eq_true (ite_panicking_eq_ok.1 hplus).1
      exact ⟨r, name, by rw [hplus'], unwrap_eq_ok.1 hlen, unwrap_eq_ok.1 hfeature⟩
  · rintro ⟨r', name, rfl, hlen, hname⟩
    unfold readFeature
    refine bind_eq_ok.2 ⟨(), rfl, bind_eq_ok.2 ⟨_, unwrap_eq_ok.2 hlen, ?_⟩⟩
    refine bind_eq_ok.2 ⟨_, unwrap_eq_ok.2 (readBytes_eq_some.2 ⟨rfl, rfl⟩), ?_⟩
    exact bind_eq_ok.2 ⟨_, unwrap_eq_ok.2 hname, rfl⟩

theorem readFeature_length {r rest : List UInt8} {feature : String}
    (h : readFeature r = .ok (feature, rest)) : rest.length < r.length := by
  obtain ⟨r', name, rfl, hlen, -⟩ := readFeature_eq_ok.1 h
  have h' := readVarU64_length hlen
  rw [List.length_append] at h'
  rw [List.length_cons]
  omega

/-- `required_features.insert`, for the name of a feature. -/
def insertFeature (features : List WasmFeature) (name : String) : List WasmFeature :=
  match WasmFeature.ofName name with
  | some f => if f ∈ features then features else features ++ [f]
  | none => features

/-- Read the features that are left, and add them to the ones before. -/
def readFeatures (features : List WasmFeature) (r : List UInt8) : Except Fault (List WasmFeature) :=
  if r = [] then pure features
  else
    match h : readFeature r with
    | .error e => .error e
    | .ok (feature, rest) =>
      have := readFeature_length h
      readFeatures (insertFeature features feature) rest
termination_by r.length

def parseTargetFeatureSection : List UInt8 → Except Fault (List WasmFeature)
  | [] => panicking "called `Result::unwrap()` on an `Err` value"
  | _count :: r => readFeatures [] r

end K23VM
