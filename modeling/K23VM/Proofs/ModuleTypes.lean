import K23VM.Translate.ModuleTypes
import K23VM.Proofs.TypeConvert
import Mathlib.Data.List.Basic

/-!
# The interned types of a type section

The interned rec groups are the declared ones without repetitions, in the order they first occur,
and `module.types` gives a declared type its place in the first group equal to its own:
`translateTypeSection_ok`.
-/

namespace K23VM

open Wasmparser

/-- The groups in the order they first occur. -/
def firsts : List ℕ → List ℕ := List.foldl (fun acc g => if g ∈ acc then acc else acc ++ [g]) []

theorem firsts_append_singleton (l : List ℕ) (g : ℕ) :
    firsts (l ++ [g]) = if g ∈ firsts l then firsts l else firsts l ++ [g] := by
  rw [firsts, List.foldl_append]
  rfl

theorem mem_firsts {l : List ℕ} {g : ℕ} : g ∈ firsts l ↔ g ∈ l := by
  induction l using List.reverseRecOn with
  | nil => rfl
  | append_singleton l h ih =>
    rw [firsts_append_singleton]
    split_ifs with hm
    · rw [ih, List.mem_append, List.mem_singleton]
      constructor
      · exact .inl
      · rintro (hg | rfl)
        · exact hg
        · exact ih.1 hm
    · rw [List.mem_append, List.mem_append, ih]

theorem nodup_firsts (l : List ℕ) : (firsts l).Nodup := by
  induction l using List.reverseRecOn with
  | nil => exact List.nodup_nil
  | append_singleton l g ih =>
    rw [firsts_append_singleton]
    split_ifs with hm
    · exact ih
    · exact List.nodup_append.2 ⟨ih, List.nodup_singleton g, by
        rintro a ha b hb rfl
        exact hm (List.mem_singleton.1 hb ▸ ha)⟩

theorem firsts_isPrefix_append (l m : List ℕ) : firsts l <+: firsts (l ++ m) := by
  induction m using List.reverseRecOn with
  | nil => simp
  | append_singleton m g ih =>
    rw [← List.append_assoc, firsts_append_singleton]
    split_ifs
    · exact ih
    · exact ih.trans (List.prefix_append _ _)

theorem firsts_of_nodup {l : List ℕ} (h : l.Nodup) : firsts l = l := by
  induction l using List.reverseRecOn with
  | nil => rfl
  | append_singleton l g ih =>
    obtain ⟨hl, -, hd⟩ := List.nodup_append.1 h
    rw [firsts_append_singleton, ih hl, if_neg]
    exact fun hm => hd g hm g List.mem_cons_self rfl

section Ids

variable (v : ValidatorTypes)

/-- The ids of the members of groups, in order; a place in this list is an interned index. -/
def internedIds (gs : List ℕ) : List ℕ := gs.flatMap v.recGroupElements

/-- Where the members of a group begin. -/
def startOf (gs : List ℕ) (g : ℕ) : ℕ := (internedIds v (gs.take (gs.idxOf g))).length

/-- The interned indices of a group. -/
def groupIndices (gs : List ℕ) (g : ℕ) : List ℕ :=
  List.range' (startOf v gs g) (v.recGroupElements g).length

/-- The ranges of groups that follow each other. -/
def rangesFrom : ℕ → List ℕ → List (ℕ × ℕ)
  | _, [] => []
  | n, g :: gs => (n, n + (v.recGroupElements g).length)
    :: rangesFrom (n + (v.recGroupElements g).length) gs

variable {v}

theorem internedIds_append (gs hs : List ℕ) :
    internedIds v (gs ++ hs) = internedIds v gs ++ internedIds v hs :=
  List.flatMap_append

theorem internedIds_singleton (g : ℕ) : internedIds v [g] = v.recGroupElements g := by
  simp [internedIds]

theorem rangesFrom_append : ∀ (gs hs : List ℕ) (n : ℕ), rangesFrom v n (gs ++ hs)
    = rangesFrom v n gs ++ rangesFrom v (n + (internedIds v gs).length) hs
  | [], hs, n => rfl
  | g :: gs, hs, n => by
    rw [List.cons_append, rangesFrom, rangesFrom_append gs hs]
    simp [rangesFrom, internedIds, Nat.add_assoc]

theorem length_rangesFrom : ∀ (gs : List ℕ) (n : ℕ), (rangesFrom v n gs).length = gs.length
  | [], _ => rfl
  | _ :: gs, n => by simp [rangesFrom, length_rangesFrom gs]

theorem startOf_of_isPrefix {gs hs : List ℕ} (h : gs <+: hs) {g : ℕ} (hg : g ∈ gs) :
    startOf v hs g = startOf v gs g := by
  obtain ⟨t, rfl⟩ := h
  rw [startOf, startOf, List.idxOf_append_of_mem hg,
    List.take_append_of_le_length (List.idxOf_le_length)]

/-- The range of an interned group. -/
theorem getElem?_rangesFrom {gs : List ℕ} {k g : ℕ} (hnd : gs.Nodup) (hg : gs[k]? = some g) :
    (rangesFrom v 0 gs)[k]?
      = some (startOf v gs g, startOf v gs g + (v.recGroupElements g).length) := by
  obtain ⟨hk, rfl⟩ := List.getElem?_eq_some_iff.1 hg
  have hidx : gs.idxOf gs[k] = k := hnd.idxOf_getElem k hk
  have hsplit : gs = gs.take k ++ gs[k] :: gs.drop (k + 1) := by simp
  rw [startOf, hidx]
  conv_lhs => rw [hsplit]
  rw [rangesFrom_append, List.getElem?_append_right (by rw [length_rangesFrom]; simp)]
  simp [length_rangesFrom, rangesFrom, Nat.min_eq_left hk.le]

theorem getElem?_internedIds {gs : List ℕ} {g q : ℕ} (hg : g ∈ gs)
    (hq : q < (v.recGroupElements g).length) :
    (internedIds v gs)[startOf v gs g + q]? = (v.recGroupElements g)[q]? := by
  have hk := List.idxOf_lt_length_iff.2 hg
  have hsplit : gs = gs.take (gs.idxOf g) ++ g :: gs.drop (gs.idxOf g + 1) := by
    conv_lhs => rw [← List.take_append_drop (gs.idxOf g) gs, List.drop_eq_getElem_cons hk]
    simp
  conv_lhs => rw [hsplit]
  rw [internedIds_append, startOf, ← hsplit, List.getElem?_append_right (by omega),
    Nat.add_sub_cancel_left]
  simp [internedIds, List.getElem?_append_left hq]

end Ids

/-! ## The builder -/

open ModuleTypesBuilder

/-- A converted type of the group `g`, when the groups up to `g` are `gs`. -/
def InternedType (v : ValidatorTypes) (gs : List ℕ) (x : ℕ) (ty : WasmSubType) : Prop :=
  ∃ c : WasmparserTypeConverter, c.convertSubType (v.subType x) = .ok ty
    ∧ ∀ y j, c.seenTypes.lookup y = some j ↔ (internedIds v gs)[j]? = some y

/-- The builder after the groups `gs` were interned. -/
structure BuilderOk (v : ValidatorTypes) (b : ModuleTypesBuilder) (gs : List ℕ) : Prop where
  inProgress : b.recGroupInProgress = none
  recGroups : b.types.recGroups = rangesFrom v 0 gs
  length : b.types.wasmTypes.length = (internedIds v gs).length
  seenTypes : ∀ x k, b.seenTypes.lookup x = some k ↔ (internedIds v gs)[k]? = some x
  seenRecGroups : ∀ g k, b.seenRecGroups.lookup g = some k ↔ gs[k]? = some g
  types : ∀ pre g post, gs = pre ++ g :: post → ∀ q x, (v.recGroupElements g)[q]? = some x →
    ∃ ty, b.types.wasmTypes[(internedIds v pre).length + q]? = some ty
      ∧ InternedType v (pre ++ [g]) x ty

theorem builderOk_new (v : ValidatorTypes) : BuilderOk v (.new v) [] where
  inProgress := rfl
  recGroups := rfl
  length := rfl
  seenTypes := by simp [new, internedIds]
  seenRecGroups := by simp [new]
  types := by simp

theorem reserveTypes_ok {debug : Bool} : ∀ {elems : List ℕ} {next : ℕ} {seen seen' : List (ℕ × ℕ)},
    reserveTypes debug next seen elems = .ok seen' → elems.Nodup →
    ∀ x, seen'.lookup x = if x ∈ elems then some (next + elems.idxOf x) else seen.lookup x
  | [], _, seen, seen', h, _, x => by
    obtain rfl := Except.ok.inj h
    simp
  | id :: elems, next, seen, seen', h, hnd, x => by
    obtain ⟨-, -, h⟩ := bind_eq_ok.1 h
    obtain ⟨hid, hnd⟩ := List.nodup_cons.1 hnd
    rw [reserveTypes_ok h hnd]
    by_cases hx : x = id
    · subst hx
      simp [hid]
    · by_cases hm : x ∈ elems
      · have := List.idxOf_cons_ne elems (Ne.symm hx)
        simp only [hm, if_true, List.mem_cons, or_true, this, Option.some.injEq]
        omega
      · simp [hm, hx, List.lookup_cons, show (x == id) = false from by simpa using hx]

theorem defineTypes_ok {debug : Bool} {moduleTypes : List ℕ} {v : ValidatorTypes} :
    ∀ {elems : List ℕ} {b b' : ModuleTypesBuilder}, defineTypes debug moduleTypes v b elems = .ok b' →
    ∃ tys, b' = { b with types := { b.types with wasmTypes := b.types.wasmTypes ++ tys } }
      ∧ List.Forall₂ (fun x ty => ∃ c : WasmparserTypeConverter, c.seenTypes = b.seenTypes
        ∧ c.convertSubType (v.subType x) = .ok ty) elems tys
  | [], b, b', h => by
    obtain rfl := Except.ok.inj h
    exact ⟨[], by simp, .nil⟩
  | id :: elems, b, b', h => by
    obtain ⟨ty, hty, h⟩ := bind_eq_ok.1 h
    obtain ⟨b₁, hb₁, h⟩ := bind_eq_ok.1 h
    obtain ⟨-, -, hb₁⟩ := bind_eq_ok.1 hb₁
    obtain ⟨-, -, hb₁⟩ := bind_eq_ok.1 hb₁
    obtain rfl := Except.ok.inj hb₁
    obtain ⟨tys, rfl, htys⟩ := defineTypes_ok h
    exact ⟨ty :: tys, by simp, .cons ⟨_, rfl, hty⟩ htys⟩

theorem getElem?_append_iff {ids elems : List ℕ} (hnd : elems.Nodup)
    (hfresh : ∀ x ∈ elems, x ∉ ids) (x k : ℕ) : (ids ++ elems)[k]? = some x ↔
      if x ∈ elems then k = ids.length + elems.idxOf x else ids[k]? = some x := by
  split_ifs with hx
  · constructor
    · intro hk
      rcases Nat.lt_or_ge k ids.length with hlt | hge
      · rw [List.getElem?_append_left hlt] at hk
        exact absurd (List.mem_of_getElem? hk) (hfresh x hx)
      · rw [List.getElem?_append_right hge] at hk
        obtain ⟨hlt, rfl⟩ := List.getElem?_eq_some_iff.1 hk
        rw [hnd.idxOf_getElem]
        omega
    · rintro rfl
      rw [List.getElem?_append_right (by omega), Nat.add_sub_cancel_left]
      exact List.getElem?_idxOf hx
  · rcases Nat.lt_or_ge k ids.length with hlt | hge
    · rw [List.getElem?_append_left hlt]
    · rw [List.getElem?_append_right hge, List.getElem?_eq_none hge]
      constructor
      · exact fun hk => absurd (List.mem_of_getElem? hk) hx
      · exact fun hk => absurd hk (by simp)

/-- A new group is interned after those already there. -/
theorem defineNewRecGroup_ok {debug : Bool} {moduleTypes gs : List ℕ} {v : ValidatorTypes}
    {b b' : ModuleTypesBuilder} {g k : ℕ} (hok : BuilderOk v b gs)
    (hnd : (v.recGroupElements g).Nodup)
    (hfresh : ∀ x ∈ v.recGroupElements g, x ∉ internedIds v gs) (hg : g ∉ gs)
    (h : b.defineNewRecGroup debug moduleTypes v g = .ok (b', k)) :
    BuilderOk v b' (gs ++ [g]) ∧ k = gs.length := by
  obtain ⟨b₁, h₁, h⟩ := bind_eq_ok.1 h
  obtain ⟨b₂, h₂, h⟩ := bind_eq_ok.1 h
  obtain ⟨-, -, h₁⟩ := bind_eq_ok.1 h₁
  obtain ⟨-, -, h₁⟩ := bind_eq_ok.1 h₁
  obtain ⟨seen, hseen, h₁⟩ := bind_eq_ok.1 h₁
  obtain rfl := Except.ok.inj h₁
  obtain ⟨tys, rfl, htys⟩ := defineTypes_ok h₂
  obtain ⟨grp, hgrp, h⟩ := bind_eq_ok.1 h
  obtain rfl := Option.some_inj.1 (unwrap_eq_ok.1 hgrp)
  obtain ⟨-, -, h⟩ := bind_eq_ok.1 h
  obtain ⟨-, -, h⟩ := bind_eq_ok.1 h
  obtain ⟨-, -, h⟩ := bind_eq_ok.1 h
  obtain ⟨rfl, rfl⟩ := Prod.mk.inj (Except.ok.inj h)
  have hlen : b.types.recGroups.length = gs.length := by rw [hok.recGroups, length_rangesFrom]
  have hids : internedIds v (gs ++ [g]) = internedIds v gs ++ v.recGroupElements g := by
    rw [internedIds_append, internedIds_singleton]
  have hseen' : ∀ x k, seen.lookup x = some k ↔ (internedIds v (gs ++ [g]))[k]? = some x := by
    intro x k
    rw [hids, getElem?_append_iff hnd hfresh, reserveTypes_ok hseen hnd, ← hok.length]
    split_ifs
    · rw [Option.some_inj, eq_comm]
    · exact hok.seenTypes x k
  refine ⟨⟨rfl, ?_, ?_, hseen', ?_, ?_⟩, hlen⟩
  · rw [rangesFrom_append, ← hok.recGroups, Nat.zero_add, ← hok.length]
    rfl
  · simp only [List.length_append, hids, hok.length, htys.length_eq]
  · intro h k
    rw [List.lookup_cons, getElem?_append_iff (List.nodup_singleton g)
      (by intro x hx; rwa [List.mem_singleton.1 hx]), hlen]
    by_cases hh : h = g
    · subst hh
      simp [eq_comm]
    · simp [hh, hok.seenRecGroups, show (h == g) = false from by simpa using hh]
  · intro pre g' post heq q x hx
    have hold : ∀ n : ℕ, n < b.types.wasmTypes.length →
        (b.types.wasmTypes ++ tys)[n]? = b.types.wasmTypes[n]? := fun n hn =>
      List.getElem?_append_left hn
    rcases List.eq_nil_or_concat' post with rfl | ⟨post', y, rfl⟩
    · obtain ⟨rfl, hgg⟩ := List.append_inj' heq rfl
      obtain rfl := (List.cons.inj hgg).1
      obtain ⟨ty, hty, c, hc, hconv⟩ := forall₂_getElem? htys hx
      refine ⟨ty, ?_, c, hconv, ?_⟩
      · rw [← hok.length, List.getElem?_append_right (Nat.le_add_right _ _),
          Nat.add_sub_cancel_left, hty]
      · rw [hc]
        exact hseen'
    · rw [← List.cons_append, ← List.append_assoc] at heq
      obtain ⟨rfl, -⟩ := List.append_inj' heq rfl
      obtain ⟨ty, hty, hint⟩ := hok.types pre g' post' rfl q x hx
      refine ⟨ty, ?_, hint⟩
      rw [hold _ (List.getElem?_eq_some_iff.1 hty).1, hty]

/-! ## The type section -/

section TypeSection

variable {debug : Bool} {v : ValidatorTypes} {all : List ℕ}

theorem mem_internedIds_iff (hv : ∀ g ∈ all, ∀ x ∈ v.recGroupElements g, v.recGroupIdOf x = g)
    {gs : List ℕ} (hgs : ∀ g ∈ gs, g ∈ all) {g x : ℕ} (hg : g ∈ all)
    (hx : x ∈ v.recGroupElements g) : x ∈ internedIds v gs ↔ g ∈ gs := by
  rw [internedIds, List.mem_flatMap]
  constructor
  · rintro ⟨h, hh, hxh⟩
    rwa [← hv g hg x hx, hv h (hgs h hh) x hxh]
  · exact fun h => ⟨g, h, hx⟩

/-- One group of the type section. -/
theorem internRecGroup_ok {gs moduleTypes : List ℕ} {b b' : ModuleTypesBuilder} {g k : ℕ}
    (hv : ∀ g ∈ all, ∀ x ∈ v.recGroupElements g, v.recGroupIdOf x = g)
    (hnd : ∀ g ∈ all, (v.recGroupElements g).Nodup) (hgs : ∀ g ∈ gs, g ∈ all) (hg : g ∈ all)
    (hok : BuilderOk v b gs) (hgnd : gs.Nodup)
    (h : b.internRecGroup debug moduleTypes v g = .ok (b', k)) :
    BuilderOk v b' (if g ∈ gs then gs else gs ++ [g])
      ∧ b'.types.recGroupElements k
        = .ok (groupIndices v (if g ∈ gs then gs else gs ++ [g]) g) := by
  have helems : ∀ {hs : List ℕ}, BuilderOk v b' hs → hs.Nodup → hs[k]? = some g →
      b'.types.recGroupElements k = .ok (groupIndices v hs g) := by
    intro hs hok' hnd' hk
    rw [ModuleTypes.recGroupElements, hok'.recGroups, getElem?_rangesFrom hnd' hk]
    simp only [unwrap_some, bind, Except.bind, pure, Except.pure, groupIndices,
      Nat.add_sub_cancel_left]
  obtain ⟨-, -, h⟩ := bind_eq_ok.1 h
  rcases hl : b.seenRecGroups.lookup g with _ | k'
  · have hgn : g ∉ gs := by
      intro hm
      obtain ⟨k', hk'⟩ := List.mem_iff_getElem?.1 hm
      rw [(hok.seenRecGroups g k').2 hk'] at hl
      cases hl
    simp only [hl] at h
    have hfresh : ∀ x ∈ v.recGroupElements g, x ∉ internedIds v gs := fun x hx hm =>
      hgn ((mem_internedIds_iff hv hgs hg hx).1 hm)
    obtain ⟨hok', rfl⟩ := defineNewRecGroup_ok hok (hnd g hg) hfresh hgn h
    rw [if_neg hgn]
    refine ⟨hok', helems hok' ?_ (by simp)⟩
    rw [List.nodup_append]
    exact ⟨hgnd, List.nodup_singleton g, fun a ha b hb hab =>
      hgn (List.mem_singleton.1 hb ▸ hab ▸ ha)⟩
  · simp only [hl] at h
    obtain ⟨rfl, rfl⟩ := Prod.mk.inj (Except.ok.inj h)
    have hk := (hok.seenRecGroups g k').1 hl
    rw [if_pos (List.mem_of_getElem? hk)]
    exact ⟨hok, helems hok hgnd hk⟩

theorem groupIndices_append {done : List ℕ} (g : ℕ) {h : ℕ} (hh : h ∈ done) :
    groupIndices v (firsts (done ++ [g])) h = groupIndices v (firsts done) h := by
  rw [groupIndices, groupIndices, startOf_of_isPrefix (firsts_isPrefix_append done [g]) (mem_firsts.2 hh)]

/-- The rest of the type section is interned, unless a declared group is empty. -/
theorem translateRecGroups_ok
    (hv : ∀ g ∈ all, ∀ x ∈ v.recGroupElements g, v.recGroupIdOf x = g)
    (hnd : ∀ g ∈ all, (v.recGroupElements g).Nodup) :
    ∀ {count : ℕ} {done rest : List ℕ} {b b' : ModuleTypesBuilder} {types' : List ℕ},
    translateRecGroups debug v count b (done.flatMap (groupIndices v (firsts done)))
      (internedIds v done).length = .ok (b', types') →
    v.coreTypes = internedIds v (done ++ rest) → (∀ g ∈ done ++ rest, g ∈ all) →
    (∀ g ∈ rest, v.recGroupElements g ≠ []) → BuilderOk v b (firsts done) →
    count ≤ rest.length ∧ BuilderOk v b' (firsts (done ++ rest.take count))
      ∧ types' = (done ++ rest.take count).flatMap
        (groupIndices v (firsts (done ++ rest.take count)))
  | 0, done, rest, b, b', types', h, _, _, _, hok => by
    obtain ⟨rfl, rfl⟩ := Prod.mk.inj (Except.ok.inj h)
    simpa using hok
  | count + 1, done, [], b, b', types', h, hcore, _, _, _ => by
    obtain ⟨id, hid, -⟩ := bind_eq_ok.1 h
    rw [unwrap_eq_ok, hcore, List.append_nil, List.getElem?_eq_none le_rfl] at hid
    cases hid
  | count + 1, done, g :: rest, b, b', types', h, hcore, hall, hne, hok => by
    obtain ⟨id, hid, h⟩ := bind_eq_ok.1 h
    obtain ⟨-, -, h⟩ := bind_eq_ok.1 h
    obtain ⟨⟨b₁, k⟩, hint, h⟩ := bind_eq_ok.1 h
    obtain ⟨elems, helems, h⟩ := bind_eq_ok.1 h
    have hg : g ∈ all := hall g (by simp)
    have hidg : v.recGroupIdOf id = g := by
      obtain ⟨x, xs, hx⟩ := List.exists_cons_of_ne_nil (hne g List.mem_cons_self)
      rw [unwrap_eq_ok, hcore, internedIds_append, List.getElem?_append_right le_rfl,
        Nat.sub_self] at hid
      simp only [internedIds, List.flatMap_cons, hx, List.cons_append, List.getElem?_cons_zero,
        Option.some.injEq] at hid
      exact hid ▸ hv g hg x (by simp [hx])
    rw [hidg] at hint
    have hgs : ∀ g ∈ firsts done, g ∈ all := fun g hm =>
      hall g (List.mem_append_left _ (mem_firsts.1 hm))
    obtain ⟨hok₁, helems₁⟩ := internRecGroup_ok hv hnd hgs hg hok (nodup_firsts done) hint
    rw [← firsts_append_singleton] at hok₁ helems₁
    obtain rfl := Except.ok.inj (helems₁.symm.trans helems)
    have htypes : done.flatMap (groupIndices v (firsts done))
        ++ groupIndices v (firsts (done ++ [g])) g
        = (done ++ [g]).flatMap (groupIndices v (firsts (done ++ [g]))) := by
      rw [List.flatMap_append, List.flatMap_singleton]
      exact congrArg₂ _ (List.flatMap_congr fun h hh => (groupIndices_append g hh).symm) rfl
    have hlen : (internedIds v done).length + (groupIndices v (firsts (done ++ [g])) g).length
        = (internedIds v (done ++ [g])).length := by
      rw [internedIds_append, List.length_append, internedIds_singleton, groupIndices,
        List.length_range']
    rw [htypes, hlen] at h
    have hsplit : done ++ g :: rest = done ++ [g] ++ rest := by simp
    obtain ⟨hle, hok', htypes'⟩ := translateRecGroups_ok hv hnd h (hsplit ▸ hcore)
      (hsplit ▸ hall) (fun g hm => hne g (List.mem_cons_of_mem _ hm)) hok₁
    rw [List.append_assoc] at hok' htypes'
    exact ⟨Nat.succ_le_succ hle, hok', htypes'⟩

/-- A type section that is translated has no empty group; its groups are interned in the order they
first occur. -/
theorem translateTypeSection_ok {b : ModuleTypesBuilder} {types : List ℕ}
    (hcoreTypes : v.coreTypes = internedIds v all)
    (hidOf : ∀ g ∈ all, ∀ x ∈ v.recGroupElements g, v.recGroupIdOf x = g)
    (hnd : ∀ g ∈ all, (v.recGroupElements g).Nodup)
    (h : translateTypeSection debug v all.length = .ok (b, types)) :
    (∀ g ∈ all, v.recGroupElements g ≠ []) ∧ BuilderOk v b (firsts all)
      ∧ types = all.flatMap (groupIndices v (firsts all)) := by
  let ne := all.filter fun g => v.recGroupElements g ≠ []
  have hids : internedIds v all = internedIds v ne := by
    simp only [internedIds, ne]
    clear_value ne
    clear h hcoreTypes hidOf hnd
    induction all with
    | nil => rfl
    | cons g gs ih =>
      rw [List.flatMap_cons, List.filter_cons, ih]
      split_ifs with hg
      · rw [List.flatMap_cons]
      · rw [show v.recGroupElements g = [] by simpa using hg, List.nil_append]
  have hcore : v.coreTypes = internedIds v ([] ++ ne) := by
    rw [hcoreTypes, List.nil_append, hids]
  have hrun : translateRecGroups debug v all.length (.new v)
      (([] : List ℕ).flatMap (groupIndices v (firsts []))) (internedIds v []).length
      = .ok (b, types) := h
  obtain ⟨hle, hok, htypes⟩ := translateRecGroups_ok hidOf hnd hrun hcore
    (fun g hg => (List.mem_filter.1 hg).1) (fun g hg => by simpa using (List.mem_filter.1 hg).2)
    (builderOk_new v)
  have hall : ne = all := List.filter_eq_self.2 fun g hg => by
    by_contra hne
    have hlt : ne.length < all.length :=
      List.length_filter_lt_length_iff_exists.2 ⟨g, hg, hne⟩
    omega
  rw [hall] at hok htypes
  simp only [List.nil_append, List.take_length] at hok htypes
  refine ⟨fun g hg => ?_, hok, htypes⟩
  rw [← hall] at hg
  simpa using (List.mem_filter.1 hg).2

/-- Leaving out repeated groups leaves out types. -/
theorem length_firsts (hne : ∀ g ∈ all, v.recGroupElements g ≠ []) :
    (internedIds v (firsts all)).length ≤ (internedIds v all).length
      ∧ ((internedIds v (firsts all)).length = (internedIds v all).length → all.Nodup) := by
  induction all using List.reverseRecOn with
  | nil => exact ⟨le_rfl, fun _ => List.nodup_nil⟩
  | append_singleton l g ih =>
    obtain ⟨hle, heq⟩ := ih fun h hh => hne h (List.mem_append_left _ hh)
    have hpos : 0 < (v.recGroupElements g).length :=
      List.length_pos_iff.2 (hne g (List.mem_append_right _ List.mem_cons_self))
    rw [firsts_append_singleton, internedIds_append, List.length_append, internedIds_singleton]
    split_ifs with hm
    · exact ⟨by omega, fun h => by omega⟩
    · rw [internedIds_append, List.length_append, internedIds_singleton]
      refine ⟨by omega, fun h => ?_⟩
      rw [List.nodup_append]
      exact ⟨heq (by omega), List.nodup_singleton g, fun a ha b hb hab =>
        hm (mem_firsts.2 (List.mem_singleton.1 hb ▸ hab ▸ ha))⟩

/-- A declared type has its own index as interned index exactly where no group up to its own
repeats an earlier one. -/
theorem startOf_firsts_eq_iff {before after : List ℕ} {g : ℕ}
    (hne : ∀ h ∈ before ++ g :: after, v.recGroupElements h ≠ []) :
    startOf v (firsts (before ++ g :: after)) g = (internedIds v before).length
      ↔ (before ++ [g]).Nodup := by
  have hpre : firsts (before ++ [g]) <+: firsts (before ++ g :: after) := by
    have := firsts_isPrefix_append (before ++ [g]) after
    rwa [List.append_assoc] at this
  rw [startOf_of_isPrefix hpre (mem_firsts.2 (by simp)), firsts_append_singleton]
  have hne' : ∀ h ∈ before, v.recGroupElements h ≠ [] := fun h hh =>
    hne h (List.mem_append_left _ hh)
  have hlen := length_firsts hne'
  split_ifs with hm
  · have hk := List.idxOf_lt_length_iff.2 hm
    have hsplit := internedIds_append (v := v) ((firsts before).take ((firsts before).idxOf g))
      ((firsts before).drop ((firsts before).idxOf g))
    rw [List.take_append_drop, List.drop_eq_getElem_cons hk, List.getElem_idxOf hk] at hsplit
    have hpos : 0 < (v.recGroupElements g).length :=
      List.length_pos_iff.2 (hne g (by simp))
    have := congrArg List.length hsplit
    simp only [internedIds, List.length_append, List.flatMap_cons] at this hlen
    constructor
    · intro h
      simp only [startOf, internedIds] at h
      omega
    · intro hnd
      exact absurd rfl ((List.nodup_append.1 hnd).2.2 g (mem_firsts.1 hm) g List.mem_cons_self)
  · rw [startOf, List.idxOf_append_of_notMem hm]
    simp only [List.idxOf_cons_self, Nat.add_zero, List.take_left]
    constructor
    · intro h
      rw [List.nodup_append]
      exact ⟨hlen.2 h, List.nodup_singleton g, fun a ha b hb hab =>
        hm (mem_firsts.2 (List.mem_singleton.1 hb ▸ hab ▸ ha))⟩
    · intro hnd
      rw [firsts_of_nodup (List.nodup_append.1 hnd).1]

/-- The interned index of a declared type. -/
theorem getElem?_types (before after gs : List ℕ) {g q : ℕ}
    (hq : q < (v.recGroupElements g).length) :
    ((before ++ g :: after).flatMap (groupIndices v gs))[(internedIds v before).length + q]?
      = some (startOf v gs g + q) := by
  have hlen : (before.flatMap (groupIndices v gs)).length = (internedIds v before).length := by
    simp [internedIds, List.length_flatMap, groupIndices]
  rw [List.flatMap_append, ← hlen, List.getElem?_append_right (by omega), Nat.add_sub_cancel_left,
    List.flatMap_cons, List.getElem?_append_left (by simpa [groupIndices] using hq)]
  simp [groupIndices, hq]

end TypeSection

end K23VM
