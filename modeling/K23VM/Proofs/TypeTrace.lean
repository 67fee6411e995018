import K23VM.Proofs.References

/-!
# Tracing references

The code visits each reference of a type once, from left to right: `trace` reads the references,
`trace_eq`, and `traceMut` replaces each of them and changes nothing else, `traceMut_eq_ok`.
-/

namespace K23VM

class LawfulTypeTrace (α : Type) [TypeTrace α] [TypeReferences α] : Prop where
  trace_eq : ∀ a : α, trace a = references a
  traceMut_map : ∀ {f g} {a : α}, (∀ r ∈ references a, f r = .ok (g r)) →
    traceMut f a = .ok (mapReferences g a)
  visits : ∀ {f} {a b : α}, traceMut f a = .ok b → ∀ r ∈ references a, ∃ r', f r = .ok r'

export LawfulTypeTrace (trace_eq traceMut_map)

variable {α : Type} [TypeTrace α] [TypeReferences α]

/-! ## What a lawful traversal does -/

section Lawful

variable [LawfulTypeTrace α] [LawfulReferences α]
  {f g : CanonicalizedTypeIndex → Except Fault CanonicalizedTypeIndex} {a b c d : α}

omit [LawfulReferences α] in
theorem exists_traceMut (h : ∀ r ∈ references a, ∃ r', f r = .ok r') :
    ∃ g, (∀ r ∈ references a, f r = .ok (g r)) ∧ traceMut f a = .ok (mapReferences g a) := by
  have : Nonempty CanonicalizedTypeIndex := ⟨.module 0⟩
  choose! g hg using h
  exact ⟨g, hg, traceMut_map hg⟩

/-- `traceMut` replaces each reference and changes nothing else, and has a result exactly where each
reference can be replaced. -/
theorem traceMut_eq_ok : traceMut f a = .ok b ↔ Replaced (fun r r' => f r = .ok r') a b := by
  constructor
  · intro h
    obtain ⟨g, hg, hmap⟩ := exists_traceMut (LawfulTypeTrace.visits h)
    obtain rfl := Except.ok.inj (h.symm.trans hmap)
    exact replaced_map hg
  · intro h
    obtain ⟨g, hg, hmap⟩ := exists_traceMut fun r hr =>
      (forall₂_exists h.related hr).imp fun _ hx => hx.2
    rw [hmap, (replaced_map hg).unique h fun r _ j k hj hk => Except.ok.inj (hj.symm.trans hk)]

theorem shape_traceMut (h : traceMut f a = .ok b) : SameShape b a := (traceMut_eq_ok.1 h).shape

theorem mapM_references (h : traceMut f a = .ok b) : (references a).mapM f = .ok (references b) :=
  mapM_eq_ok_iff.2 (traceMut_eq_ok.1 h).related

theorem traceMut_eq_iff (hc : traceMut f a = .ok c) (hd : traceMut g b = .ok d) :
    c = d ↔ SameShape a b ∧ (references a).mapM f = (references b).mapM g := by
  have hsc := shape_traceMut hc
  have hsd := shape_traceMut hd
  rw [mapM_references hc, mapM_references hd, Except.ok.injEq]
  constructor
  · rintro rfl
    exact ⟨hsc.symm.trans hsd, rfl⟩
  · rintro ⟨hs, ht⟩
    exact LawfulReferences.ext (hsc.trans (hs.trans hsd.symm)) ht

theorem traceMut_mono (hb : traceMut f a = .ok b)
    (h : ∀ i ∈ references a, ∀ j, f i = .ok j → g i = .ok j) : traceMut g a = .ok b :=
  traceMut_eq_ok.2 ((traceMut_eq_ok.1 hb).imp h)

end Lawful

/-! ## Containers -/

instance : LawfulTypeTrace CanonicalizedTypeIndex where
  trace_eq _ := rfl
  traceMut_map h := h _ List.mem_cons_self
  visits h r hr := by
    obtain rfl := List.mem_singleton.1 hr
    exact ⟨_, h⟩

theorem trace_cons {β : Type} [TypeTrace β] (x : β) (xs : List β) : trace (x :: xs) = trace x ++ trace xs := by
  simp [trace]

theorem traceMut_cons_eq_ok {β : Type} [TypeTrace β] {f} {x : β} {xs l : List β} :
    traceMut f (x :: xs) = .ok l ↔
      ∃ y ys, traceMut f x = .ok y ∧ traceMut f xs = .ok ys ∧ l = y :: ys := by
  simp only [traceMut, List.mapM_cons]
  constructor
  · intro h
    obtain ⟨y, hy, h⟩ := bind_eq_ok.1 h
    obtain ⟨ys, hys, h⟩ := bind_eq_ok.1 h
    exact ⟨y, ys, hy, hys, (Except.ok.inj h).symm⟩
  · rintro ⟨y, ys, hy, hys, rfl⟩
    rw [hy]
    simp only [bind, Except.bind]
    rw [hys]
    rfl

instance [LawfulTypeTrace α] : LawfulTypeTrace (List α) where
  trace_eq l := List.flatMap_congr fun a _ => trace_eq a
  traceMut_map {f g l} h := by
    refine mapM_eq_ok_iff.2 (List.forall₂_map_right_iff.2 (List.forall₂_same.2 fun a ha => ?_))
    exact traceMut_map fun r hr => h r (List.mem_flatMap.2 ⟨a, ha, hr⟩)
  visits {f l m} h r hr := by
    obtain ⟨a, ha, hr⟩ := List.mem_flatMap.1 hr
    obtain ⟨b, -, hb⟩ := forall₂_exists (mapM_eq_ok_iff.1 h) ha
    exact LawfulTypeTrace.visits hb r hr

instance [LawfulTypeTrace α] : LawfulTypeTrace (Option α) where
  trace_eq o := List.flatMap_congr fun a _ => trace_eq a
  traceMut_map {f g o} h := by
    cases o with
    | none => rfl
    | some a =>
      have ha : traceMut f a = .ok (mapReferences g a) :=
        traceMut_map fun r hr => h r (List.mem_flatMap.2 ⟨a, List.mem_cons_self, hr⟩)
      exact bind_eq_ok.2 ⟨_, ha, rfl⟩
  visits {f o p} h r hr := by
    cases o with
    | none => cases hr
    | some a =>
      obtain ⟨b, hb, -⟩ := bind_eq_ok.1 h
      have hr' : r ∈ references a := by simpa [references] using hr
      exact LawfulTypeTrace.visits hb r hr'

/-! ## Records and enumerations -/

section Parts

variable {β γ : Type} [TypeTrace β] [TypeReferences β] [TypeTrace γ] [TypeReferences γ]

/-- A type with one part that has references is traversed lawfully where the part is. -/
theorem lawfulTypeTrace_of_part [LawfulTypeTrace α] (part : β → α) (set : β → α → β)
    (htrace : ∀ b, trace b = trace (part b)) (hrefs : ∀ b, references b = references (part b))
    (hmut : ∀ f b, traceMut f b = traceMut f (part b) >>= fun a => pure (set b a))
    (hmap : ∀ g b, mapReferences g b = set b (mapReferences g (part b))) : LawfulTypeTrace β where
  trace_eq b := by rw [htrace, hrefs, trace_eq]
  traceMut_map {f g b} h := by
    rw [hrefs] at h
    rw [hmut, hmap, traceMut_map h]
    rfl
  visits {f b c} h r hr := by
    rw [hmut] at h
    obtain ⟨a, ha, -⟩ := bind_eq_ok.1 h
    exact LawfulTypeTrace.visits ha r (hrefs b ▸ hr)

/-- The same with two parts, the first visited before the second. -/
theorem lawfulTypeTrace_of_parts [LawfulTypeTrace α] [LawfulTypeTrace γ] (fst : β → α) (snd : β → γ)
    (set : β → α → γ → β) (htrace : ∀ b, trace b = trace (fst b) ++ trace (snd b))
    (hrefs : ∀ b, references b = references (fst b) ++ references (snd b))
    (hmut : ∀ f b, traceMut f b = traceMut f (fst b) >>= fun a => traceMut f (snd b) >>= fun c =>
      pure (set b a c))
    (hmap : ∀ g b, mapReferences g b = set b (mapReferences g (fst b)) (mapReferences g (snd b))) :
    LawfulTypeTrace β where
  trace_eq b := by rw [htrace, hrefs, trace_eq, trace_eq]
  traceMut_map {f g b} h := by
    rw [hrefs] at h
    rw [hmut, hmap, traceMut_map fun r hr => h r (List.mem_append_left _ hr),
      show traceMut f (snd b) = _ from traceMut_map fun r hr => h r (List.mem_append_right _ hr)]
    rfl
  visits {f b c} h r hr := by
    rw [hmut] at h
    obtain ⟨a, ha, h⟩ := bind_eq_ok.1 h
    obtain ⟨a', ha', -⟩ := bind_eq_ok.1 h
    rw [hrefs] at hr
    rcases List.mem_append.1 hr with hr | hr
    · exact LawfulTypeTrace.visits ha r hr
    · exact LawfulTypeTrace.visits ha' r hr

end Parts

/-! ## The types of a module -/

instance : LawfulTypeTrace WasmHeapType where
  trace_eq t := by
    obtain ⟨shared, ty⟩ := t
    cases ty <;> rfl
  traceMut_map {f g t} h := by
    obtain ⟨shared, ty⟩ := t
    cases ty with
    | concreteFunc r | concreteArray r | concreteStruct r =>
      exact bind_eq_ok.2 ⟨_, h r List.mem_cons_self, rfl⟩
    | _ => rfl
  visits {f t u} h r hr := by
    obtain ⟨shared, ty⟩ := t
    cases ty with
    | concreteFunc r' | concreteArray r' | concreteStruct r' =>
      obtain rfl := List.mem_singleton.1 hr
      obtain ⟨r', hr', -⟩ := bind_eq_ok.1 h
      exact ⟨r', hr'⟩
    | _ => cases hr

instance : LawfulTypeTrace WasmRefType :=
  lawfulTypeTrace_of_part (fun t => t.heapType) (fun t h => { t with heapType := h })
    (fun _ => rfl) (fun _ => rfl) (fun _ _ => rfl) fun _ _ => rfl

instance : LawfulTypeTrace WasmValType where
  trace_eq t := by
    cases t with
    | ref ty => exact trace_eq ty
    | _ => rfl
  traceMut_map {f g t} h := by
    cases t with
    | ref ty => exact bind_eq_ok.2 ⟨_, traceMut_map h, rfl⟩
    | _ => rfl
  visits {f t u} h r hr := by
    cases t with
    | ref ty =>
      obtain ⟨ty', hty, -⟩ := bind_eq_ok.1 h
      exact LawfulTypeTrace.visits hty r hr
    | _ => cases hr

instance : LawfulTypeTrace WasmStorageType where
  trace_eq t := by
    cases t with
    | val ty => exact trace_eq ty
    | _ => rfl
  traceMut_map {f g t} h := by
    cases t with
    | val ty => exact bind_eq_ok.2 ⟨_, traceMut_map h, rfl⟩
    | _ => rfl
  visits {f t u} h r hr := by
    cases t with
    | val ty =>
      obtain ⟨ty', hty, -⟩ := bind_eq_ok.1 h
      exact LawfulTypeTrace.visits hty r hr
    | _ => cases hr

instance : LawfulTypeTrace WasmFieldType :=
  lawfulTypeTrace_of_part (fun t => t.elementType) (fun t e => { t with elementType := e })
    (fun _ => rfl) (fun _ => rfl) (fun _ _ => rfl) fun _ _ => rfl

instance : LawfulTypeTrace WasmArrayType :=
  lawfulTypeTrace_of_part (fun t => t.field) (fun _ f => ⟨f⟩)
    (fun _ => rfl) (fun _ => rfl) (fun _ _ => rfl) fun _ _ => rfl

instance : LawfulTypeTrace WasmStructType :=
  lawfulTypeTrace_of_part (fun t => t.fields) (fun _ f => ⟨f⟩)
    (fun _ => rfl) (fun _ => rfl) (fun _ _ => rfl) fun _ _ => rfl

instance : LawfulTypeTrace WasmFuncType :=
  lawfulTypeTrace_of_parts (fun t => t.params) (fun t => t.results) (fun _ p r => ⟨p, r⟩)
    (fun _ => rfl) (fun _ => rfl) (fun _ _ => rfl) fun _ _ => rfl

instance : LawfulTypeTrace WasmCompositeType where
  trace_eq t := by
    obtain ⟨inner, shared⟩ := t
    cases inner with
    | func ty => exact trace_eq ty
    | array ty => exact trace_eq ty
    | struct ty => exact trace_eq ty
  traceMut_map {f g t} h := by
    obtain ⟨inner, shared⟩ := t
    cases inner with
    | func ty => exact bind_eq_ok.2 ⟨_, traceMut_map h, rfl⟩
    | array ty => exact bind_eq_ok.2 ⟨_, traceMut_map h, rfl⟩
    | struct ty => exact bind_eq_ok.2 ⟨_, traceMut_map h, rfl⟩
  visits {f t u} h r hr := by
    obtain ⟨inner, shared⟩ := t
    cases inner with
    | func ty | array ty | struct ty =>
      obtain ⟨ty', hty, -⟩ := bind_eq_ok.1 h
      exact LawfulTypeTrace.visits hty r hr

instance : LawfulTypeTrace WasmSubType :=
  lawfulTypeTrace_of_parts (fun t => t.supertype) (fun t => t.compositeType)
    (fun t s c => { t with supertype := s, compositeType := c })
    (fun _ => rfl) (fun _ => rfl) (fun _ _ => rfl) fun _ _ => rfl

instance : LawfulTypeTrace WasmRecGroup :=
  lawfulTypeTrace_of_part (fun g => g.types) (fun _ t => ⟨t⟩)
    (fun _ => rfl) (fun _ => rfl) (fun _ _ => rfl) fun _ _ => rfl

end K23VM
