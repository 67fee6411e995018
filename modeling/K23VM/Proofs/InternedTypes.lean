import K23VM.RegistryRuns
import K23VM.Proofs.ModuleTypes

/-!
# Interned types are well formed and distinct

What the builder makes of a type section is well formed, `BuilderOk.wf`, and because equal rec
groups have the same id, no two of its types are equal, `BuilderOk.isoEq_self`.
-/

namespace K23VM

open Wasmparser

section Ranges

variable {v : ValidatorTypes}

theorem consecutive_rangesFrom : ∀ (gs : List ℕ) (n : ℕ),
    Consecutive n (rangesFrom v n gs) (n + (internedIds v gs).length)
  | [], n => rfl
  | g :: gs, n => by
    refine ⟨rfl, Nat.le_add_right _ _, ?_⟩
    have := consecutive_rangesFrom gs (n + (v.recGroupElements g).length)
    rwa [Nat.add_assoc, ← List.length_append] at this

theorem mem_rangesFrom : ∀ {gs : List ℕ} {n : ℕ} {r : ℕ × ℕ}, r ∈ rangesFrom v n gs →
    ∃ pre g post, gs = pre ++ g :: post ∧ r.1 = n + (internedIds v pre).length
      ∧ r.2 = r.1 + (v.recGroupElements g).length
  | [], _, _, h => by cases h
  | g :: gs, n, r, h => by
    rcases List.mem_cons.1 h with rfl | h
    · exact ⟨[], g, gs, rfl, rfl, rfl⟩
    · obtain ⟨pre, g', post, rfl, h₁, h₂⟩ := mem_rangesFrom h
      refine ⟨g :: pre, g', post, rfl, ?_, h₂⟩
      rw [h₁]
      simp [internedIds, Nat.add_assoc]

end Ranges

section Interned

variable {v : ValidatorTypes} {b : ModuleTypesBuilder} {all gs : List ℕ}

/-- The references of an interned type are to types of its own and earlier groups. -/
theorem InternedType.refs {pre : List ℕ} {x : ℕ} {ty : WasmSubType} (h : InternedType v pre x ty)
    (hrefs : ∀ r ∈ (v.subType x).indices, ∃ y, r = .id y) {r : CanonicalizedTypeIndex}
    (hr : r ∈ references ty) : ∃ k y, r = .module k ∧ (internedIds v pre)[k]? = some y := by
  obtain ⟨c, hconv, hseen⟩ := h
  have hc := WasmparserTypeConverter.convertSubType_converted (f := pure) (G := id) hconv
  obtain ⟨ks, hks, htr⟩ := hc.trace_eq
  rw [← trace_eq, htr] at hr
  obtain ⟨k, hk, rfl⟩ := List.mem_map.1 hr
  obtain ⟨u, hu, hlk⟩ := exists_of_mem_mapM hks hk
  obtain ⟨y, rfl⟩ := hrefs u hu
  exact ⟨k, y, rfl, (hseen y k).1 (unwrap_eq_ok.1 hlk)⟩

/-- The type at a place of a group. -/
theorem BuilderOk.getElem? (hok : BuilderOk v b gs) {pre post : List ℕ} {g i : ℕ}
    (hgs : gs = pre ++ g :: post) (hi : (internedIds v pre).length ≤ i)
    (hi' : i < (internedIds v pre).length + (v.recGroupElements g).length) :
    ∃ x ty, (v.recGroupElements g)[i - (internedIds v pre).length]? = some x
      ∧ b.types.wasmTypes[i]? = some ty ∧ InternedType v (pre ++ [g]) x ty := by
  have hlt : i - (internedIds v pre).length < (v.recGroupElements g).length := by omega
  have hx := List.getElem?_eq_getElem hlt
  obtain ⟨ty, hty, hint⟩ := hok.types pre g post hgs _ _ hx
  rw [Nat.add_sub_cancel' hi] at hty
  exact ⟨_, ty, hx, hty, hint⟩

theorem BuilderOk.wf (hok : BuilderOk v b gs)
    (hrefs : ∀ g ∈ all, ∀ x ∈ v.recGroupElements g, ∀ r ∈ (v.subType x).indices, ∃ y, r = .id y)
    (hgs : ∀ g ∈ gs, g ∈ all) : b.types.WF := by
  refine ⟨?_, fun range hr i hi hi' t ht r hmem => ?_⟩
  · rw [hok.recGroups, hok.length]
    simpa using consecutive_rangesFrom (v := v) gs 0
  · rw [hok.recGroups] at hr
    obtain ⟨pre, g, post, hsplit, h₁, h₂⟩ := mem_rangesFrom hr
    rw [Nat.zero_add] at h₁
    obtain ⟨x, ty, hx, hty, hint⟩ := hok.getElem? (i := i) hsplit (by omega) (by omega)
    obtain rfl := Option.some_inj.1 (ht.symm.trans hty)
    have hg : g ∈ all := hgs g (by simp [hsplit])
    obtain ⟨k, y, rfl, hk⟩ := hint.refs (hrefs g hg x (List.mem_of_getElem? hx)) hmem
    refine ⟨k, rfl, ?_⟩
    have hlt := (List.getElem?_eq_some_iff.1 hk).1
    rw [internedIds_append, List.length_append, internedIds_singleton] at hlt
    omega

/-- What a reference of a group that starts at `start` is compared as. -/
def relabel (ids : List ℕ) (start : ℕ) :
    CanonicalizedTypeIndex → Except Fault CanonicalizedTypeIndex
  | .module k =>
    if start ≤ k then .ok (.recGroup (k - start))
    else do pure (.shared (← unwrap "index out of bounds" ids[k]?))
  | r => .ok r

theorem relabel_inside {ids : List ℕ} {start k : ℕ} (h : start ≤ k) :
    relabel ids start (.module k) = .ok (.recGroup (k - start)) := by
  rw [relabel, if_pos h]

theorem relabel_outside {ids : List ℕ} {start k y : ℕ} (h : k < start) (hy : ids[k]? = some y) :
    relabel ids start (.module k) = .ok (.shared y) := by
  rw [relabel, if_neg (Nat.not_le.2 h), hy]
  rfl

/-- An interned type with its references relabelled is the parser's type as it is compared with
others. -/
theorem InternedType.relative {pre post : List ℕ} {g x : ℕ} {ty k : WasmSubType}
    (h : InternedType v (pre ++ [g]) x ty) (hv : v.Canonical all) (hgs : ∀ g ∈ gs, g ∈ all)
    (hnd : gs.Nodup) (hsplit : gs = pre ++ g :: post) (hx : x ∈ v.recGroupElements g)
    (hk : traceMut (relabel (internedIds v gs) (internedIds v pre).length) ty = .ok k) :
    k.toParser
      = (v.subType x).mapIndex (ValidatorTypes.relativeIndex (v.recGroupElements g)) := by
  obtain ⟨c, hconv, hseen⟩ := h
  have hg : g ∈ all := hgs g (by simp [hsplit])
  refine (WasmparserTypeConverter.convertSubType_converted hconv).toParser_eq ?_ k hk
  intro r hr i j hi hj
  obtain ⟨y, rfl⟩ := hv.refs g hg x hx r hr
  have hy := (hseen y i).1 (unwrap_eq_ok.1 hi)
  rw [internedIds_append, internedIds_singleton] at hy
  by_cases hle : (internedIds v pre).length ≤ i
  · rw [relabel_inside hle] at hj
    obtain rfl := Except.ok.inj hj
    rw [List.getElem?_append_right hle] at hy
    have hmem := List.mem_of_getElem? hy
    obtain ⟨hlt, hget⟩ := List.getElem?_eq_some_iff.1 hy
    have hidx := (hv.nodup g hg).idxOf_getElem _ hlt
    rw [hget] at hidx
    rw [ValidatorTypes.relativeIndex, if_pos hmem, hidx]
    rfl
  · have hlt : i < (internedIds v pre).length := Nat.lt_of_not_le hle
    rw [List.getElem?_append_left hlt] at hy
    have hy' : (internedIds v gs)[i]? = some y := by
      rw [hsplit, internedIds_append, List.getElem?_append_left hlt, hy]
    rw [relabel_outside hlt hy'] at hj
    obtain rfl := Except.ok.inj hj
    have hnot : y ∉ v.recGroupElements g := by
      intro hm
      have hpre : ∀ h ∈ pre, h ∈ all := fun h hh => hgs h (by simp [hsplit, hh])
      have := (mem_internedIds_iff hv.idOf hpre hg hm).1 (List.mem_of_getElem? hy)
      rw [hsplit] at hnd
      exact absurd rfl ((List.nodup_append.1 hnd).2.2 g this g List.mem_cons_self)
    rw [ValidatorTypes.relativeIndex, if_neg hnot]
    rfl

/-- The references of an interned type can be relabelled. -/
theorem InternedType.exists_relabel {pre post : List ℕ} {g x : ℕ} {ty : WasmSubType}
    (h : InternedType v (pre ++ [g]) x ty) (hsplit : gs = pre ++ g :: post)
    (hrefs : ∀ r ∈ (v.subType x).indices, ∃ y, r = .id y) :
    ∃ k, traceMut (relabel (internedIds v gs) (internedIds v pre).length) ty = .ok k := by
  have hrel : ∀ r ∈ references ty,
      ∃ r', relabel (internedIds v gs) (internedIds v pre).length r = .ok r' := by
    intro r hr
    obtain ⟨k, y, rfl, hk⟩ := h.refs hrefs hr
    by_cases hle : (internedIds v pre).length ≤ k
    · exact ⟨_, relabel_inside hle⟩
    · have hlt := Nat.lt_of_not_le hle
      rw [internedIds_append, List.getElem?_append_left hlt] at hk
      refine ⟨_, relabel_outside hlt (y := y) ?_⟩
      rw [hsplit, internedIds_append, List.getElem?_append_left hlt, hk]
  obtain ⟨g, -, hg⟩ := exists_traceMut hrel
  exact ⟨_, hg⟩

/-- No two interned types are equal. -/
theorem BuilderOk.isoEq_self (hok : BuilderOk v b gs) (hv : v.Canonical all)
    (hgs : ∀ g ∈ gs, g ∈ all) (hnd : gs.Nodup) {i j : ℕ} (h : IsoEq b.types b.types i j) :
    i = j := by
  induction h with
  | mk ga gb p hga hgb hlen hp hshape hinside houtside ih =>
    rw [hok.recGroups] at hga hgb
    obtain ⟨preA, gA, postA, hA, hA₁, hA₂⟩ := mem_rangesFrom hga
    obtain ⟨preB, gB, postB, hB, hB₁, hB₂⟩ := mem_rangesFrom hgb
    rw [Nat.zero_add] at hA₁ hB₁
    have hmA : gA ∈ all := hgs gA (by simp [hA])
    have hmB : gB ∈ all := hgs gB (by simp [hB])
    have hrel : v.relativeGroup gA = v.relativeGroup gB := by
      refine List.ext_getElem? fun q => ?_
      rw [ValidatorTypes.relativeGroup, ValidatorTypes.relativeGroup, List.getElem?_map,
        List.getElem?_map]
      by_cases hq : q < ga.2 - ga.1
      · obtain ⟨x, s, hx, hs, hsint⟩ := hok.getElem? (i := ga.1 + q) hA (by omega) (by omega)
        obtain ⟨y, t, hy, ht, htint⟩ := hok.getElem? (i := gb.1 + q) hB (by omega) (by omega)
        rw [hA₁, Nat.add_sub_cancel_left] at hx
        rw [hB₁, Nat.add_sub_cancel_left] at hy
        have hxm := List.mem_of_getElem? hx
        have hym := List.mem_of_getElem? hy
        obtain ⟨ks, hks⟩ := hsint.exists_relabel hA (hv.refs gA hmA x hxm)
        obtain ⟨kt, hkt⟩ := htint.exists_relabel hB (hv.refs gB hmB y hym)
        have hkeys : ks = kt := by
          refine (traceMut_eq_iff hks hkt).2 ⟨hshape q hq s t hs ht, ?_⟩
          rw [mapM_references hks, mapM_references hkt]
          refine congrArg _ (mapM_eq_mapM (mapM_references hks) (mapM_references hkt)
            (length_references_of_sameShape (hshape q hq s t hs ht)) fun r u w hu hw => ?_)
          obtain ⟨i, y', rfl, hi⟩ :=
            hsint.refs (hv.refs gA hmA x hxm) (List.mem_of_getElem? hu)
          obtain ⟨j, z, rfl, hj⟩ := htint.refs (hv.refs gB hmB y hym) (List.mem_of_getElem? hw)
          obtain ⟨hiff, hpos⟩ := hinside q hq s t hs ht r i j hu hw
          by_cases hin : ga.1 ≤ i
          · rw [relabel_inside (by omega), relabel_inside (by omega), ← hA₁, ← hB₁, hpos hin]
          · have hij := ih q hq s t hs ht r i j hu hw (Nat.lt_of_not_le hin)
            have hlt : i < (internedIds v preA).length := by omega
            rw [internedIds_append, List.getElem?_append_left hlt] at hi
            have hy' : (internedIds v gs)[i]? = some y' := by
              rw [hA, internedIds_append, List.getElem?_append_left hlt, hi]
            have hlt' : ¬ gb.1 ≤ j := fun hle => hin (hiff.2 hle)
            rw [relabel_outside hlt hy', ← hij, relabel_outside (by omega) hy']
        have hrs := hsint.relative hv hgs hnd hA hxm hks
        have hrt := htint.relative hv hgs hnd hB hym hkt
        rw [hx, hy, Option.map_some, Option.map_some, ← hrs, ← hrt, hkeys]
      · rw [List.getElem?_eq_none (by omega), List.getElem?_eq_none (by omega)]
        rfl
    obtain rfl := hv.canonical gA hmA gB hmB hrel
    have hpre : preA = preB := by
      have hidx : gs.idxOf gA = preA.length := by
        rw [hA, List.idxOf_append_of_notMem, List.idxOf_cons_self, Nat.add_zero]
        intro hm
        rw [hA] at hnd
        exact absurd rfl ((List.nodup_append.1 hnd).2.2 gA hm gA List.mem_cons_self)
      have hidx' : gs.idxOf gA = preB.length := by
        rw [hB, List.idxOf_append_of_notMem, List.idxOf_cons_self, Nat.add_zero]
        intro hm
        rw [hB] at hnd
        exact absurd rfl ((List.nodup_append.1 hnd).2.2 gA hm gA List.mem_cons_self)
      exact (List.append_inj (hA.symm.trans hB) (hidx.symm.trans hidx')).1
    rw [hA₁, hB₁, hpre]

end Interned

end K23VM
