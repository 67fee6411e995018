import K23VM.Proofs.RecGroups

/-!
# The index spaces of a type section

A section is interned as it should be exactly where no declared group is empty,
`translateTypeSection_interns_iff`: each iteration finds the next group through the type that it declares
first, and an empty group declares none.
-/

namespace K23VM

open Wasmparser

/-! ## Ranges -/

theorem Consecutive.start_le : ∀ {l : List (ℕ × ℕ)} {a b : ℕ}, Consecutive a l b →
    ∀ r ∈ l, a ≤ r.1
  | [], _, _, _, _, hr => by cases hr
  | s :: l, a, b, ⟨hs, hle, h⟩, r, hr => by
    rcases List.mem_cons.1 hr with rfl | hr
    · exact hs.ge
    · have := h.start_le r hr
      omega

/-- Ranges that follow each other ascend and are disjoint. -/
theorem Consecutive.pairwise : ∀ {l : List (ℕ × ℕ)} {a b : ℕ}, Consecutive a l b →
    l.Pairwise fun r s => r.2 ≤ s.1
  | [], _, _, _ => .nil
  | _ :: _, _, _, ⟨_, _, h⟩ => .cons h.start_le h.pairwise

/-! ## Interning -/

/-- The types of the section are functions, arrays and structs that refer in their fields, parameters and
results to types before them. -/
def TypesConvert (v : ValidatorTypes) (all : List ℕ) : Prop :=
  ∀ g ∈ all, BackwardOnly v g
    ∧ ∀ x ∈ v.recGroupElements g, ¬ (v.subType x).compositeType.inner.IsCont

/-- The section is interned: each declared type has its interned index, in order; types have the same one
where they have the same id; the ranges of the rec groups follow each other and cover the interned types;
and a type refers to interned types below the end of its range. -/
def Interns (debug : Bool) (v : ValidatorTypes) (all : List ℕ) : Prop :=
  ∃ b types, translateTypeSection debug v all.length = .ok (b, types)
    ∧ types.map some = v.coreTypes.map (b.seenTypes.lookup ·)
    ∧ (∀ (i j : ℕ) x y, v.coreTypes[i]? = some x → v.coreTypes[j]? = some y →
      (types[i]? = types[j]? ↔ x = y))
    ∧ b.types.recGroups.Pairwise (fun r s => r.2 ≤ s.1)
    ∧ b.types.WF

section TypeSection

variable {debug : Bool} {v : ValidatorTypes} {all : List ℕ}

/-- A declared group is interned, or was. -/
theorem internRecGroup_exists (debug : Bool) {b : ModuleTypesBuilder} {done rest : List ℕ} {g : ℕ}
    (hok : BuilderOk v b (firsts done)) (hid : b.validatorId = v.id) (hv : v.Valid all)
    (hall : all = done ++ g :: rest) (hne : v.recGroupElements g ≠ []) (hconv : TypesConvert v all)
    (moduleTypes : List ℕ) : ∃ r, b.internRecGroup debug moduleTypes v g = .ok r := by
  have hmem : g ∈ all := by simp [hall]
  unfold ModuleTypesBuilder.internRecGroup
  rw [hid, decide_eq_true rfl, assertThat_true]
  rcases hl : b.seenRecGroups.lookup g with _ | k
  · have hg : g ∉ done := by
      intro hg
      obtain ⟨k, hk⟩ := List.mem_iff_getElem?.1 (mem_firsts.2 hg)
      rw [(hok.seenRecGroups g k).2 hk] at hl
      cases hl
    obtain ⟨hback, hcont⟩ := hconv g hmem
    obtain ⟨b', k, -, h, -⟩ := (hok.next hid hv hall hg hcont).converts_iff.2 ⟨fun _ => hne, hback⟩
    exact ⟨(b', k), h⟩
  · exact ⟨(b, k), rfl⟩

/-- A section without empty groups is interned. -/
theorem translateRecGroups_exists (debug : Bool) (hv : v.Valid all) (hconv : TypesConvert v all)
    (hne : ∀ g ∈ all, v.recGroupElements g ≠ []) :
    ∀ {rest done : List ℕ} {b : ModuleTypesBuilder} {moduleTypes : List ℕ}, all = done ++ rest →
      BuilderOk v b (firsts done) → b.validatorId = v.id →
      ∃ r, translateRecGroups debug v rest.length b moduleTypes (internedIds v done).length = .ok r
  | [], _, b, moduleTypes, _, _, _ => ⟨(b, moduleTypes), rfl⟩
  | g :: rest, done, b, moduleTypes, hall, hok, hid => by
    have hmem : g ∈ all := by simp [hall]
    obtain ⟨x, xs, hx⟩ := List.exists_cons_of_ne_nil (hne g hmem)
    have hcore : v.coreTypes[(internedIds v done).length]? = some x := by
      rw [hv.coreTypes, hall]
      show (internedIds v (done ++ g :: rest))[_]? = _
      rw [internedIds_append, List.getElem?_append_right le_rfl, Nat.sub_self]
      show (List.flatMap _ _)[0]? = _
      rw [List.flatMap_cons, hx]
      rfl
    have hidOf : v.recGroupIdOf x = g := hv.idOf g hmem x (by rw [hx]; exact List.mem_cons_self)
    have hfirst : (v.recGroupElements g).idxOf? x = some 0 := by
      rw [hx]
      simp [List.idxOf?, List.findIdx?_cons]
    obtain ⟨⟨b₁, k⟩, hint⟩ := internRecGroup_exists debug hok hid hv hall (hne g hmem) hconv moduleTypes
    have hgs : ∀ h ∈ firsts done, h ∈ all := fun h hh => by simp [hall, mem_firsts.1 hh]
    obtain ⟨hok₁, helems⟩ := internRecGroup_ok hv.idOf hv.nodup hgs hmem hok (nodup_firsts done) hint
    rw [← firsts_append_singleton] at hok₁
    have hsplit : all = done ++ [g] ++ rest := by simp [hall]
    have hlen : (internedIds v (done ++ [g])).length = (internedIds v done).length
        + (groupIndices v (if g ∈ firsts done then firsts done else firsts done ++ [g]) g).length := by
      rw [internedIds_append, List.length_append, internedIds_singleton, groupIndices,
        List.length_range']
    obtain ⟨r, hr⟩ := translateRecGroups_exists debug hv hconv hne hsplit hok₁
      ((internRecGroup_validatorId hint).trans hid)
    rw [hlen] at hr
    refine ⟨r, bind_eq_ok.2 ⟨x, by rw [hcore]; rfl, ?_⟩⟩
    dsimp only
    rw [hidOf, hfirst, decide_eq_true rfl, debugAssert_true]
    exact bind_eq_ok.2 ⟨(), rfl, bind_eq_ok.2 ⟨(b₁, k), hint, bind_eq_ok.2 ⟨_, helems, hr⟩⟩⟩

/-- The interned indices of a group are those of its members. -/
theorem map_groupIndices {b : ModuleTypesBuilder} {gs : List ℕ} {g : ℕ} (hok : BuilderOk v b gs)
    (hg : g ∈ gs) : (groupIndices v gs g).map some
      = (v.recGroupElements g).map (b.seenTypes.lookup ·) := by
  refine List.ext_getElem? fun q => ?_
  rw [List.getElem?_map, List.getElem?_map]
  unfold groupIndices
  by_cases hq : q < (v.recGroupElements g).length
  · have hx := List.getElem?_eq_getElem hq
    have hlookup := (hok.seenTypes (v.recGroupElements g)[q] (startOf v gs g + q)).2
      ((getElem?_internedIds hg hq).trans hx)
    simp [hq, hlookup]
  · simp [hq]

/-- What is interned is right. -/
theorem interns_of_eq_ok (hv : v.Valid all) {b : ModuleTypesBuilder} {types : List ℕ}
    (h : translateTypeSection debug v all.length = .ok (b, types)) : Interns debug v all := by
  obtain ⟨-, hok, htypes⟩ := translateTypeSection_ok hv.coreTypes hv.idOf hv.nodup h
  have hmap : types.map some = v.coreTypes.map (b.seenTypes.lookup ·) := by
    rw [htypes, hv.coreTypes, List.map_flatMap, List.map_flatMap]
    exact List.flatMap_congr fun g hg => map_groupIndices hok (mem_firsts.2 hg)
  have hrefs : ∀ g ∈ all, ∀ x ∈ v.recGroupElements g, ∀ r ∈ (v.subType x).indices, ∃ y, r = .id y := by
    intro g hg x hx r hr
    obtain ⟨pre, post, hsplit⟩ := List.append_of_mem hg
    obtain ⟨y, -, rfl⟩ := hv.refs pre g post hsplit x hx r hr
    exact ⟨y, rfl⟩
  have hwf := hok.wf hrefs fun g hg => mem_firsts.1 hg
  refine ⟨b, types, h, hmap, fun i j x y hx hy => ?_, hwf.consecutive.pairwise, hwf⟩
  -- a declared type has the index at which its id was interned
  have hentry : ∀ (i : ℕ) x, v.coreTypes[i]? = some x →
      ∃ k : ℕ, types[i]? = some k ∧ (internedIds v (firsts all))[k]? = some x := by
    intro i x hx
    have hi := congrArg (·[i]?) hmap
    simp only [List.getElem?_map, hx, Option.map_some] at hi
    obtain ⟨k, hk, hlookup⟩ := Option.map_eq_some_iff.1 hi
    exact ⟨k, hk, (hok.seenTypes x k).1 hlookup.symm⟩
  obtain ⟨k, hk, hkx⟩ := hentry i x hx
  obtain ⟨l, hl, hly⟩ := hentry j y hy
  rw [hk, hl, Option.some_inj]
  constructor
  · rintro rfl
    exact Option.some.inj (hkx.symm.trans hly)
  · rintro rfl
    exact Option.some.inj (((hok.seenTypes x k).2 hkx).symm.trans ((hok.seenTypes x l).2 hly))

end TypeSection

/-! ## Interned sections -/

/-- A validated type section whose types convert is interned, for every shape of its groups, exactly where
none of them is empty. -/
theorem translateTypeSection_interns_iff {debug : Bool} {v : ValidatorTypes} {all : List ℕ}
    (hv : v.Valid all) (hconv : TypesConvert v all) :
    Interns debug v all ↔ ∀ g ∈ all, v.recGroupElements g ≠ [] := by
  constructor
  · rintro ⟨b, types, h, -⟩
    exact (translateTypeSection_ok hv.coreTypes hv.idOf hv.nodup h).1
  · intro hne
    obtain ⟨⟨b, types⟩, h⟩ := translateRecGroups_exists debug hv hconv hne
      (List.nil_append all).symm (builderOk_new v) rfl
    exact interns_of_eq_ok hv h

section Example

/-- A section of one empty group. -/
def emptyGroup : ValidatorTypes := ⟨0, [], fun _ => 0, fun _ => [], fun _ => structTo 0⟩

/-- There is no type to find the group by. -/
theorem not_interns_emptyGroup : emptyGroup.Valid [0] ∧ TypesConvert emptyGroup [0]
    ∧ ¬ Interns false emptyGroup [0] := by
  refine ⟨⟨fun _ _ _ _ x hx => ?_, rfl, fun _ _ x hx => ?_, fun _ _ => List.nodup_nil⟩,
    fun g _ => ⟨fun i x hx => ?_, fun x hx => ?_⟩, ?_⟩
  · cases hx
  · cases hx
  · cases hx
  · cases hx
  · rintro ⟨b, types, h, -⟩
    cases h

/-- A section of one group that refers backward. -/
theorem translateTypeSection_interns_iff_func : Interns true structToFunc [0] := by
  have hconv : TypesConvert structToFunc [0] := by
    intro g hg
    obtain rfl := List.mem_singleton.1 hg
    exact ⟨backwardOnly_structToFunc, noCont_structToFunc⟩
  refine (translateTypeSection_interns_iff valid_structToFunc hconv).2 fun g _ h => ?_
  cases h

end Example

end K23VM
