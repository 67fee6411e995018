import Mathlib.Data.List.Forall2
import K23VM.Lib.Fault

/-!
# Lists of fallible computations

`List.mapM` has a result exactly where the computation has one on every element.
-/

namespace K23VM

theorem mapM_ok_length {ε β γ : Type} {f : β → Except ε γ} : ∀ {l : List β} {l' : List γ},
    l.mapM f = .ok l' → l'.length = l.length
  | [], l', h => by
    obtain rfl := Except.ok.inj h
    rfl
  | x :: xs, l', h => by
    rw [List.mapM_cons] at h
    obtain ⟨y, -, h⟩ := bind_eq_ok.1 h
    obtain ⟨ys, hys, h⟩ := bind_eq_ok.1 h
    obtain rfl := Except.ok.inj h
    simp [mapM_ok_length hys]

theorem mapM_append_eq_ok {ε β γ : Type} {f : β → Except ε γ} {l m : List β} {n : List γ} :
    (l ++ m).mapM f = .ok n ↔ ∃ l' m', l.mapM f = .ok l' ∧ m.mapM f = .ok m' ∧ n = l' ++ m' := by
  rw [List.mapM_append]
  constructor
  · intro h
    obtain ⟨l', hl, h⟩ := bind_eq_ok.1 h
    obtain ⟨m', hm, h⟩ := bind_eq_ok.1 h
    exact ⟨l', m', hl, hm, (Except.ok.inj h).symm⟩
  · rintro ⟨l', m', hl, hm, rfl⟩
    simp [hl, hm, bind, Except.bind, pure, Except.pure]

theorem mapM_eq_ok_iff {ε β γ : Type} {f : β → Except ε γ} : ∀ {l : List β} {l' : List γ},
    l.mapM f = .ok l' ↔ List.Forall₂ (fun x y => f x = .ok y) l l'
  | [], l' => by
    constructor
    · intro h
      obtain rfl := Except.ok.inj h
      exact .nil
    · rintro ⟨⟩
      rfl
  | x :: xs, l' => by
    rw [List.mapM_cons]
    constructor
    · intro h
      obtain ⟨y, hy, h⟩ := bind_eq_ok.1 h
      obtain ⟨ys, hys, h⟩ := bind_eq_ok.1 h
      obtain rfl := Except.ok.inj h
      exact .cons hy (mapM_eq_ok_iff.1 hys)
    · rintro (_ | ⟨hy, hys⟩)
      rw [hy, mapM_eq_ok_iff.2 hys]
      rfl

theorem forall₂_getElem? {β γ : Type} {R : β → γ → Prop} {l : List β} {m : List γ}
    (h : List.Forall₂ R l m) {r : ℕ} {x : β} (hx : l[r]? = some x) :
    ∃ y, m[r]? = some y ∧ R x y := by
  induction h generalizing r with
  | nil => cases hx
  | cons hxy _ ih =>
    cases r with
    | zero =>
      obtain rfl := Option.some_inj.1 hx
      exact ⟨_, rfl, hxy⟩
    | succ r => exact ih hx

theorem forall₂_append_left {β γ : Type} {R : β → γ → Prop} {l l' : List β} {m : List γ}
    (h : List.Forall₂ R (l ++ l') m) :
    ∃ m₁ m₂, m = m₁ ++ m₂ ∧ List.Forall₂ R l m₁ ∧ List.Forall₂ R l' m₂ := by
  refine ⟨m.take l.length, m.drop l.length, (List.take_append_drop _ _).symm, ?_, ?_⟩
  · have htake := List.forall₂_take l.length h
    rwa [List.take_left] at htake
  · have hdrop := List.forall₂_drop l.length h
    rwa [List.drop_left] at hdrop

theorem forall₂_imp_mem {β γ : Type} {R S : β → γ → Prop} : ∀ {l : List β} {m : List γ},
    List.Forall₂ R l m → (∀ x ∈ l, ∀ y ∈ m, R x y → S x y) → List.Forall₂ S l m
  | _, _, .nil, _ => .nil
  | _, _, .cons hxy h, hi => .cons (hi _ List.mem_cons_self _ List.mem_cons_self hxy)
    (forall₂_imp_mem h fun x hx y hy =>
      hi x (List.mem_cons_of_mem _ hx) y (List.mem_cons_of_mem _ hy))

theorem forall₂_exists {β γ : Type} {R : β → γ → Prop} : ∀ {l : List β} {m : List γ},
    List.Forall₂ R l m → ∀ {x : β}, x ∈ l → ∃ y ∈ m, R x y
  | _, _, .cons hxy h, x, hx => by
    rcases List.mem_cons.1 hx with rfl | hx
    · exact ⟨_, List.mem_cons_self, hxy⟩
    · obtain ⟨y, hy, hR⟩ := forall₂_exists h hx
      exact ⟨y, List.mem_cons_of_mem _ hy, hR⟩

theorem forall₂_exists_left {β γ : Type} {R : β → γ → Prop} {l : List β} {m : List γ}
    (h : List.Forall₂ R l m) {y : γ} (hy : y ∈ m) : ∃ x ∈ l, R x y :=
  forall₂_exists h.flip hy

/-- Two relations from one list, where the second goes through the first. -/
theorem forall₂_factor {β γ δ : Type} {R : β → γ → Prop} {S : β → δ → Prop} {T : γ → δ → Prop} :
    ∀ {l : List β} {m : List γ} {n : List δ}, List.Forall₂ R l m → List.Forall₂ S l n →
    (∀ x ∈ l, ∀ y z, R x y → S x z → T y z) → List.Forall₂ T m n
  | _, _, _, .nil, .nil, _ => .nil
  | _, _, _, .cons hxy hR, .cons hxz hS, h => .cons (h _ List.mem_cons_self _ _ hxy hxz)
    (forall₂_factor hR hS fun x hx => h x (List.mem_cons_of_mem _ hx))

theorem forall₂_comp {β γ δ : Type} {R : β → γ → Prop} {S : γ → δ → Prop} {T : β → δ → Prop} :
    ∀ {l : List β} {m : List γ} {n : List δ}, List.Forall₂ R l m → List.Forall₂ S m n →
    (∀ x ∈ l, ∀ y z, R x y → S y z → T x z) → List.Forall₂ T l n
  | _, _, _, .nil, .nil, _ => .nil
  | _, _, _, .cons hxy hR, .cons hyz hS, h => .cons (h _ List.mem_cons_self _ _ hxy hyz)
    (forall₂_comp hR hS fun x hx => h x (List.mem_cons_of_mem _ hx))

theorem mapM_getElem? {ε β γ : Type} {f : β → Except ε γ} {l : List β} {l' : List γ}
    (h : l.mapM f = .ok l') {r : ℕ} {x : β} (hx : l[r]? = some x) :
    ∃ y, l'[r]? = some y ∧ f x = .ok y :=
  forall₂_getElem? (mapM_eq_ok_iff.1 h) hx

/-- Results on two lists agree where the computations agree place by place. -/
theorem mapM_eq_mapM {ε β γ : Type} {f g : β → Except ε γ} {l m : List β} {l' m' : List γ}
    (hl : l.mapM f = .ok l') (hm : m.mapM g = .ok m') (hlen : l.length = m.length)
    (h : ∀ (r : ℕ) x y, l[r]? = some x → m[r]? = some y → f x = g y) : l' = m' := by
  rw [mapM_eq_ok_iff] at hl hm
  induction hl generalizing m m' with
  | nil =>
    obtain rfl := List.length_eq_zero_iff.1 hlen.symm
    cases hm
    rfl
  | cons hxy _ ih =>
    cases hm with
    | nil => cases hlen
    | cons hxy' hm =>
      have h0 := h 0 _ _ rfl rfl
      rw [hxy, hxy'] at h0
      rw [Except.ok.inj h0, ih hm (by simpa using hlen) fun r x y => h (r + 1) x y]

theorem exists_of_mem_mapM {ε β γ : Type} {f : β → Except ε γ} {l : List β} {l' : List γ}
    (h : l.mapM f = .ok l') {y : γ} (hy : y ∈ l') : ∃ x ∈ l, f x = .ok y := by
  rw [mapM_eq_ok_iff] at h
  induction h with
  | nil => cases hy
  | cons hxy _ ih =>
    rcases List.mem_cons.1 hy with rfl | hy
    · exact ⟨_, List.mem_cons_self, hxy⟩
    · obtain ⟨x, hx, hf⟩ := ih hy
      exact ⟨x, List.mem_cons_of_mem _ hx, hf⟩

theorem exists_of_mapM_error {ε β γ : Type} {f : β → Except ε γ} {e : ε} : ∀ {l : List β},
    l.mapM f = .error e → ∃ x ∈ l, f x = .error e
  | [], h => by cases h
  | x :: xs, h => by
    rw [List.mapM_cons] at h
    rcases bind_eq_error.1 h with hx | ⟨y, -, h⟩
    · exact ⟨x, List.mem_cons_self, hx⟩
    · rcases bind_eq_error.1 h with hxs | ⟨ys, -, h⟩
      · obtain ⟨z, hz, hf⟩ := exists_of_mapM_error hxs
        exact ⟨z, List.mem_cons_of_mem _ hz, hf⟩
      · cases h

theorem mapM_replicate_eq_ok {ε β γ : Type} {f : β → Except ε γ} {x : β} {y : γ} (h : f x = .ok y) :
    ∀ n : ℕ, (List.replicate n x).mapM f = .ok (List.replicate n y)
  | 0 => rfl
  | n + 1 => by
    rw [List.replicate_succ, List.mapM_cons, h, mapM_replicate_eq_ok h n]
    rfl

theorem exists_mapM_ok {ε β γ : Type} {f : β → Except ε γ} : ∀ {l : List β},
    (∀ x ∈ l, ∃ y, f x = .ok y) → ∃ l', l.mapM f = .ok l'
  | [], _ => ⟨[], rfl⟩
  | x :: xs, h => by
    obtain ⟨y, hy⟩ := h x List.mem_cons_self
    obtain ⟨ys, hys⟩ := exists_mapM_ok fun z hz => h z (List.mem_cons_of_mem _ hz)
    exact ⟨y :: ys, mapM_eq_ok_iff.2 (.cons hy (mapM_eq_ok_iff.1 hys))⟩

theorem mapM_comp {ε β γ δ : Type} {f : β → Except ε γ} {g : γ → Except ε δ}
    {h : β → Except ε δ} {l : List β} {m : List γ} {n : List δ} (hf : l.mapM f = .ok m)
    (hg : m.mapM g = .ok n)
    (hh : ∀ x ∈ l, ∀ y z, f x = .ok y → g y = .ok z → h x = .ok z) : l.mapM h = .ok n :=
  mapM_eq_ok_iff.2 (forall₂_comp (mapM_eq_ok_iff.1 hf) (mapM_eq_ok_iff.1 hg) hh)

theorem fallible_mapM_eq_ok {ε α β : Type} {f : α → Fallible ε β} : ∀ {l : List α} {l' : List β},
    l.mapM f = (.ok (.ok l') : Except Fault (Except ε (List β))) →
    List.Forall₂ (fun x y => f x = (.ok (.ok y) : Except Fault (Except ε β))) l l'
  | [], l', h => by
    obtain rfl := Except.ok.inj (Except.ok.inj h)
    exact .nil
  | x :: l, l', h => by
    rw [List.mapM_cons] at h
    obtain ⟨y, hy, h⟩ := fallible_bind_eq_ok.1 h
    obtain ⟨ys, hys, h⟩ := fallible_bind_eq_ok.1 h
    obtain rfl := Except.ok.inj (Except.ok.inj h)
    exact .cons hy (fallible_mapM_eq_ok hys)

/-- Either all elements satisfy `p`, or there is a first that does not. -/
theorem forall_or_first {α : Type} (p : α → Prop) : ∀ l : List α,
    (∀ a ∈ l, p a) ∨ ∃ pre a post, l = pre ++ a :: post ∧ (∀ b ∈ pre, p b) ∧ ¬ p a
  | [] => .inl (by simp)
  | a :: l => by
    by_cases ha : p a
    · rcases forall_or_first p l with h | ⟨pre, b, post, rfl, hpre, hb⟩
      · exact .inl (List.forall_mem_cons.2 ⟨ha, h⟩)
      · exact .inr ⟨a :: pre, b, post, rfl, List.forall_mem_cons.2 ⟨ha, hpre⟩, hb⟩
    · exact .inr ⟨[], a, l, rfl, by simp, ha⟩

end K23VM
