import K23VM.Proofs.RegistryRuns

/-!
# Equality of registered types

Registered types are compared by their entries, which the members of a rec group share.
-/

namespace K23VM

open TypeRegistryInner

/-- The handles that `get_type` returns for two indices are equal exactly where the indices are, and
then they hash equally and are the same type; a clone is equal to what it was cloned from. -/
def EqIdentifies (debug : Bool) (reg : TypeRegistryInner) (i j : ℕ) : Prop :=
  ∃ reg₁ a reg₂ b eq, reg.getType debug i = .ok (reg₁, some a)
    ∧ reg₁.getType debug j = .ok (reg₂, some b)
    ∧ a.eq debug true b = .ok eq ∧ (eq = true ↔ i = j)
    ∧ (eq = true → a.hash = b.hash ∧ a.deref = b.deref)
    ∧ a.eq debug true a.clone = .ok true ∧ b.eq debug true b.clone = .ok true

section Eq

variable {debug : Bool} {a b : RegisteredType}

theorem eq_clone (a : RegisteredType) : a.eq debug true a.clone = .ok true := by
  cases debug <;> simp [RegisteredType.eq, RegisteredType.clone, pure, Except.pure, bind, Except.bind]

/-- In a build with debug assertions, the comparison of different entries fails where the types are
the same data. -/
theorem eq_of_entry_ne (h : a.entry ≠ b.entry) :
    a.eq debug true b = .ok false ↔ (debug = true → a.ty ≠ b.ty) := by
  cases debug <;> by_cases hty : a.ty = b.ty <;>
    simp [RegisteredType.eq, h, hty, assertThat, panicking, pure, Except.pure, bind, Except.bind]

theorem eq_of_entry_eq (h : a.entry = b.entry) (eq : Bool) (heq : a.eq debug true b = .ok eq) :
    eq = true := by
  cases debug <;> by_cases hty : a.ty = b.ty <;>
    simp [RegisteredType.eq, h, hty, assertThat, panicking, pure, Except.pure, bind,
      Except.bind] at heq
  all_goals exact heq

end Eq

variable {debug : Bool} {π : SlabPolicy} {s : EngineState}

/-- The handle that `get_type` returns for a live index is that of its owner. -/
theorem getType_live (debug : Bool) (reg : TypeRegistryInner) {i e : ℕ} {ty : WasmSubType}
    (hget : reg.types.get i = some ty) (howner : reg.typeToRecGroup i = some e) :
    reg.getType debug i = .ok (reg.incrRefCount e, some ⟨e, ty, i⟩) := by
  have hcount : decide ((reg.incrRefCount e).count e ≠ 0) = true := by
    rw [incrRefCount, count_setCount, if_pos rfl]
    simp
  unfold getType
  rw [hget]
  simp only [howner, unwrap_some, hcount, debugAssert_true, bind, Except.bind]
  rfl

theorem EngineInv.get_owner (h : EngineInv s []) {i : ℕ} (hi : i ∈ s.reg.types.ids) :
    ∃ ty e, s.reg.types.get i = some ty ∧ s.reg.typeToRecGroup i = some e := by
  obtain ⟨ty, hty⟩ := Option.isSome_iff_exists.1 (Slab.mem_ids_iff.1 hi)
  obtain ⟨e, he⟩ := Option.isSome_iff_exists.1 ((h.inv.slab i).1 hi)
  exact ⟨ty, e, hty, he⟩

theorem EngineInv.eqIdentifies_iff (hinv : EngineInv s []) {i j : ℕ}
    (hi : i ∈ s.reg.types.ids) (hj : j ∈ s.reg.types.ids) :
    EqIdentifies debug s.reg i j ↔
      i = j ∨ s.reg.typeToRecGroup i ≠ s.reg.typeToRecGroup j
        ∧ (debug = true → s.reg.types.get i ≠ s.reg.types.get j) := by
  obtain ⟨ty, e, hty, he⟩ := hinv.get_owner hi
  obtain ⟨ty', f, hty', hf⟩ := hinv.get_owner hj
  have hgeti := getType_live debug s.reg hty he
  have hgetj := getType_live debug (s.reg.incrRefCount e) hty' hf
  rw [he, hf, hty, hty', ne_eq, ne_eq, Option.some_inj, Option.some_inj]
  constructor
  · rintro ⟨reg₁, a, reg₂, b, eq, ha, hb, heq, hiff, -, -⟩
    rw [hgeti] at ha
    obtain ⟨rfl, hsome⟩ := Prod.mk.inj (Except.ok.inj ha)
    obtain rfl := Option.some_inj.1 hsome
    rw [hgetj] at hb
    obtain ⟨-, hsome⟩ := Prod.mk.inj (Except.ok.inj hb)
    obtain rfl := Option.some_inj.1 hsome
    by_cases hij : i = j
    · exact .inl hij
    · have hne : e ≠ f := fun hef => hij (hiff.1 (eq_of_entry_eq hef eq heq))
      obtain rfl : eq = false := by
        cases eq
        · rfl
        · exact absurd (hiff.1 rfl) hij
      exact .inr ⟨hne, (eq_of_entry_ne hne).1 heq⟩
  · rintro (rfl | ⟨hne, hdebug⟩)
    · obtain rfl := Option.some_inj.1 (hty.symm.trans hty')
      obtain rfl := Option.some_inj.1 (he.symm.trans hf)
      exact ⟨_, _, _, _, true, hgeti, hgetj, eq_clone _, by simp, fun _ => ⟨rfl, rfl⟩, eq_clone _,
        eq_clone _⟩
    · have hij : i ≠ j := by
        rintro rfl
        exact hne (Option.some_inj.1 (he.symm.trans hf))
      exact ⟨_, _, _, _, false, hgeti, hgetj, (eq_of_entry_ne hne).2 hdebug, by simp [hij], by simp,
        eq_clone _, eq_clone _⟩

/-- In every state that an engine reaches, the comparison of two registered types identifies them
exactly where they are one type or belong to different rec groups; with debug assertions, types of
different groups have to differ as data too. -/
theorem registeredType_eq_iff (h : EngineState.Reachable debug π s) {i j : ℕ}
    (hi : i ∈ s.reg.types.ids) (hj : j ∈ s.reg.types.ids) :
    EqIdentifies debug s.reg i j ↔
      i = j ∨ s.reg.typeToRecGroup i ≠ s.reg.typeToRecGroup j
        ∧ (debug = true → s.reg.types.get i ≠ s.reg.types.get j) :=
  (reachable_inv h).eqIdentifies_iff hi hj

/-- A function type and a struct type in one rec group. -/
def funcWithStruct : ModuleTypes where
  recGroups := [(0, 2)]
  wasmTypes := [⟨true, none, ⟨.func ⟨[], []⟩, false⟩⟩, ⟨true, none, ⟨.struct ⟨[]⟩, false⟩⟩]

theorem funcWithStruct_wf : funcWithStruct.WF := by
  refine ⟨by simp [Consecutive, funcWithStruct], ?_⟩
  intro g hg i hi hi' t ht r hr
  obtain rfl := List.mem_singleton.1 hg
  have hcases : i = 0 ∨ i = 1 := by
    simp only at hi'
    omega
  rcases hcases with rfl | rfl <;> obtain rfl := Option.some_inj.1 ht <;> cases hr

theorem funcWithStruct_registered (debug : Bool) :
    ∃ s, EngineState.Reachable debug .lowest s ∧ s.reg.types.ids = [1, 0]
      ∧ s.reg.typeToRecGroup 0 = s.reg.typeToRecGroup 1 := by
  obtain ⟨s, hs⟩ : ∃ s, EngineState.new.run debug .lowest [.registerModuleTypes funcWithStruct]
      = .ok s := by cases debug <;> exact ⟨_, rfl⟩
  refine ⟨s, EngineState.reachable_of_run .new (by simp [RegistryOp.WF, funcWithStruct_wf]) hs, ?_⟩
  cases debug <;> obtain rfl := Except.ok.inj hs <;> exact ⟨rfl, rfl⟩

theorem not_eqIdentifies_of_registered (debug : Bool) :
    ∃ s, EngineState.Reachable debug .lowest s ∧ 0 ∈ s.reg.types.ids ∧ 1 ∈ s.reg.types.ids
      ∧ ¬ EqIdentifies debug s.reg 0 1 := by
  obtain ⟨s, hs, hids, hgroup⟩ := funcWithStruct_registered debug
  have h0 : 0 ∈ s.reg.types.ids := by simp [hids]
  have h1 : 1 ∈ s.reg.types.ids := by simp [hids]
  refine ⟨s, hs, h0, h1, fun heq => ?_⟩
  rcases ((reachable_inv hs).eqIdentifies_iff h0 h1).1 heq with h01 | ⟨hne, -⟩
  · cases h01
  · exact hne hgroup

/-- Two members of a rec group are not told apart, in a debug build or a release build. -/
theorem not_eqIdentifies_funcWithStruct :
    (∃ s, EngineState.Reachable true .lowest s ∧ 0 ∈ s.reg.types.ids ∧ 1 ∈ s.reg.types.ids
        ∧ ¬ EqIdentifies true s.reg 0 1)
      ∧ ∃ s, EngineState.Reachable false .lowest s ∧ 0 ∈ s.reg.types.ids ∧ 1 ∈ s.reg.types.ids
        ∧ ¬ EqIdentifies false s.reg 0 1 :=
  ⟨not_eqIdentifies_of_registered true, not_eqIdentifies_of_registered false⟩

theorem registeredType_eq_iff_funcWithStruct :
    ∃ s, EngineState.Reachable true .lowest s
      ∧ (EqIdentifies true s.reg 0 1 ↔
        0 = 1 ∨ s.reg.typeToRecGroup 0 ≠ s.reg.typeToRecGroup 1
          ∧ (true = true → s.reg.types.get 0 ≠ s.reg.types.get 1)) := by
  obtain ⟨s, hs, hids, -⟩ := funcWithStruct_registered true
  exact ⟨s, hs, registeredType_eq_iff hs (by simp [hids]) (by simp [hids])⟩

end K23VM
