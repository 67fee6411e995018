import K23VM.Lib.Rounding
import K23VM.Runtime.MmapVec

/-!
# Lengths, capacities and accessible bytes

What an extension does, `extend_cases`: it panics where the number of elements would reach the number
of bytes of the mapping, and makes as many bytes accessible as there are elements, rounded up to pages.
So the elements are accessible exactly as long as they are bytes or fit into one page,
`mmapVec_backed_iff`, and a vector cannot be filled, `mmapVec_copies_iff`.
-/

namespace K23VM

/-! ## Rounding -/

section Host

variable {host : Host} {k : ℕ}

/-- There is room to round up below a word that is a multiple of the page size. -/
theorem add_page_lt {n c : ℕ} (hk : k < 64) (hd : 2 ^ k ∣ c) (hc : c < 2 ^ 64) (h : n ≤ c) :
    n + (2 ^ k - 1) < 2 ^ 64 := by
  have hd' : 2 ^ k ∣ 2 ^ 64 - c := Nat.dvd_sub (Nat.pow_dvd_pow 2 hk.le) hd
  have := Nat.le_of_dvd (by omega) hd'
  have := Nat.two_pow_pos k
  omega

end Host

namespace MmapVec

variable {T : Type}

/-! ## Extensions -/

/-- The accessible bytes are those of the number of elements, rounded up to pages. -/
structure Inv (k : ℕ) (v : MmapVec T) : Prop where
  dvd : 2 ^ k ∣ v.mmap.len
  lt : v.mmap.len < 2 ^ 64
  len_le : v.len ≤ v.mmap.len
  accessible : ∀ i, v.mmap.accessible i = true ↔ i < roundUp (2 ^ k) v.len

/-- The vector can be extended: the elements are fewer than the bytes of the mapping, and the protection
of the next pages can be changed. -/
def Extends (host : Host) (k : ℕ) (v : MmapVec T) (count : ℕ) : Prop :=
  v.len + count < v.mmap.len
    ∧ (roundUp (2 ^ k) v.len < roundUp (2 ^ k) (v.len + count) →
      host.mprotectOk (roundUp (2 ^ k) v.len)
        (roundUp (2 ^ k) (v.len + count) - roundUp (2 ^ k) v.len) = true)

/-- The vector after an extension. -/
structure Extended (k : ℕ) (v : MmapVec T) (count : ℕ) (elem : ℕ → Option T) (v' : MmapVec T) :
    Prop where
  inv : v'.Inv k
  len : v'.len = v.len + count
  capacity : v'.mmap.len = v.mmap.len
  slice : v'.slice = v.slice ++ (List.range count).map elem

section Extend

variable {debug : Bool} {host : Host} {k : ℕ} {v : MmapVec T}

theorem accessible_eq (hp : host.pageSize = 2 ^ k) (hk : k < 64) (hd : 2 ^ k ∣ v.mmap.len)
    (hlt : v.mmap.len < 2 ^ 64) (hle : v.len ≤ v.mmap.len) :
    v.accessible debug host = .ok (roundUp (2 ^ k) v.len) := by
  unfold MmapVec.accessible
  rw [Host.roundUsizeUpToHostPages_eq hp hk (add_page_lt hk hd hlt hle)]
  show (debugAssert debug (decide (roundUp (2 ^ k) v.len ≤ v.mmap.len)) _ >>= fun _ => _) = _
  rw [decide_eq_true (roundUp_le (Nat.two_pow_pos k) hd hle), debugAssert_true]
  rfl

/-- The bytes behind the accessible ones become accessible. -/
theorem accessible_cons {m : Mmap} {a b : ℕ} (ha : ∀ i, m.accessible i = true ↔ i < a) (hab : a ≤ b)
    (i : ℕ) : ({ m with ranges := (a, b - a) :: m.ranges } : Mmap).accessible i = true ↔ i < b := by
  have h := ha i
  unfold Mmap.accessible at h ⊢
  rw [List.any_cons, Bool.or_eq_true, h]
  simp only [Bool.and_eq_true, decide_eq_true_eq]
  omega

theorem slice_extended {v' : MmapVec T} {count : ℕ} {elem : ℕ → Option T}
    (hlen : v'.len = v.len + count) (hcells : v'.cells = fun i =>
      if v.len ≤ i ∧ i < v.len + count then elem (i - v.len) else v.cells i) :
    v'.slice = v.slice ++ (List.range count).map elem := by
  unfold slice
  rw [hlen, hcells, List.range_add, List.map_append, List.map_map]
  congr 1
  · refine List.map_congr_left fun i hi => ?_
    have := List.mem_range.1 hi
    exact if_neg (by omega)
  · refine List.map_congr_left fun i hi => ?_
    have := List.mem_range.1 hi
    show (if v.len ≤ v.len + i ∧ v.len + i < v.len + count then _ else _) = _
    rw [if_pos (by omega), Nat.add_sub_cancel_left]

/-- An extension succeeds, fails and leaves the vector as it was, or panics. -/
theorem extend_cases (debug : Bool) (hp : host.pageSize = 2 ^ k) (hk : k < 64) (h : v.Inv k) (count : ℕ)
    (elem : ℕ → Option T) :
    (v.Extends host k count ∧ ∃ v', v.extend debug host count elem = .ok (.ok (), v')
        ∧ Extended k v count elem v')
      ∨ (¬ v.Extends host k count ∧ v.len + count < v.mmap.len
        ∧ v.extend debug host count elem = .ok (.error .mmapFailed, v))
      ∨ (¬ v.len + count < v.mmap.len ∧ ∃ e, v.extend debug host count elem = .error e) := by
  obtain ⟨hd, hlt, hle, hacc⟩ := h
  unfold extend tryGrow Extends
  rw [accessible_eq hp hk hd hlt hle]
  by_cases hcap : v.len + count < v.mmap.len
  · have hadd : addOrPanic v.len count = .ok (v.len + count) := if_pos (by omega)
    have hnew : ({ v with len := v.len + count } : MmapVec T).accessible debug host
        = .ok (roundUp (2 ^ k) (v.len + count)) := accessible_eq hp hk hd hlt hcap.le
    have hround := roundUp_le (Nat.two_pow_pos k) hd hcap.le
    simp only [bind, Except.bind, hadd, if_pos hcap, hnew]
    by_cases hgrow : roundUp (2 ^ k) v.len < roundUp (2 ^ k) (v.len + count)
    · have hmake : (v.mmap.makeAccessible host (roundUp (2 ^ k) v.len)
          (roundUp (2 ^ k) (v.len + count) - roundUp (2 ^ k) v.len)).run
          = if host.mprotectOk (roundUp (2 ^ k) v.len)
              (roundUp (2 ^ k) (v.len + count) - roundUp (2 ^ k) v.len)
            then .ok (.ok { v.mmap with ranges := (roundUp (2 ^ k) v.len,
              roundUp (2 ^ k) (v.len + count) - roundUp (2 ^ k) v.len) :: v.mmap.ranges })
            else .ok (.error .mmapFailed) := by
        unfold Mmap.makeAccessible
        have hmod : roundUp (2 ^ k) v.len % host.pageSize = 0 := by
          rw [hp]
          exact Nat.mod_eq_zero_of_dvd (dvd_roundUp _ _)
        rw [decide_eq_true (by omega), decide_eq_true hmod]
        simp only [assertThat_true, fallible_lift_ok_bind]
        split_ifs <;> rfl
      simp only [if_pos hgrow, hmake]
      by_cases hok : host.mprotectOk (roundUp (2 ^ k) v.len)
          (roundUp (2 ^ k) (v.len + count) - roundUp (2 ^ k) v.len) = true
      · simp only [if_pos hok]
        refine .inl ⟨⟨hcap, fun _ => hok⟩, _, rfl, ⟨hd, hlt, hcap.le, ?_⟩, rfl, rfl,
          slice_extended rfl rfl⟩
        exact accessible_cons hacc hgrow.le
      · simp only [if_neg hok]
        exact .inr (.inl ⟨fun h => hok (h.2 hgrow), hcap, rfl⟩)
    · simp only [if_neg hgrow]
      have hsame : roundUp (2 ^ k) (v.len + count) = roundUp (2 ^ k) v.len :=
        Nat.le_antisymm (by omega) (roundUp_mono (Nat.two_pow_pos k) (by omega))
      refine .inl ⟨⟨hcap, fun h => absurd h hgrow⟩, _, rfl, ⟨hd, hlt, hcap.le, fun i => ?_⟩, rfl, rfl,
        slice_extended rfl rfl⟩
      show v.mmap.accessible i = true ↔ i < roundUp (2 ^ k) (v.len + count)
      rw [hsame]
      exact hacc i
  · refine .inr (.inr ⟨hcap, ?_⟩)
    unfold addOrPanic
    split_ifs
    · simp only [bind, Except.bind, if_neg hcap]
      exact ⟨_, rfl⟩
    · exact ⟨_, rfl⟩

end Extend

/-! ## Runs -/

/-- The operations on a vector. -/
inductive Op (T : Type) where
  | extendFromSlice (other : List T)
  | extendWith (count : ℕ) (elem : T)

def Op.count : Op T → ℕ
  | .extendFromSlice other => other.length
  | .extendWith count _ => count

def Op.elem : Op T → ℕ → Option T
  | .extendFromSlice other => (other[·]?)
  | .extendWith _ elem => fun _ => some elem

/-- The elements that an operation adds. -/
def Op.added : Op T → List T
  | .extendFromSlice other => other
  | .extendWith count elem => List.replicate count elem

def Op.apply (debug : Bool) (host : Host) (v : MmapVec T) :
    Op T → Except Fault (Except Error Unit × MmapVec T)
  | .extendFromSlice other => v.tryExtendFromSlice debug host other
  | .extendWith count elem => v.tryExtendWith debug host count elem

/-- The vector after an operation; a panic unwinds through the guard, which restores the length. -/
def after (debug : Bool) (host : Host) (v : MmapVec T) (op : Op T) : MmapVec T :=
  match op.apply debug host v with
  | .ok (_, v') => v'
  | .error _ => v

/-- The vector before the first operation and after each of them. -/
def states (debug : Bool) (host : Host) : MmapVec T → List (Op T) → List (MmapVec T)
  | v, [] => [v]
  | v, op :: ops => v :: states debug host (v.after debug host op) ops

/-- A vector as it is made. -/
def IsStart (host : Host) (v : MmapVec T) : Prop :=
  v = new ∨ ∃ capacity < 2 ^ 64,
    withReserved host capacity = (.ok (.ok v) : Except Fault (Except Error _))

theorem Op.apply_eq (debug : Bool) (host : Host) (v : MmapVec T) (op : Op T) :
    op.apply debug host v = v.extend debug host op.count op.elem := by
  cases op <;> rfl

theorem Op.map_elem (op : Op T) : (List.range op.count).map op.elem = op.added.map some := by
  cases op with
  | extendFromSlice other =>
    refine List.ext_getElem? fun i => ?_
    show ((List.range other.length).map (other[·]?))[i]? = (other.map some)[i]?
    by_cases hi : i < other.length
    · simp [hi]
    · simp [hi]
  | extendWith count elem => simp [Op.count, Op.elem, Op.added, List.map_const']

section Runs

variable {debug : Bool} {host : Host} {k : ℕ} {v : MmapVec T}

/-- A vector in a mapping of which nothing is accessible yet. -/
def mapped (T : Type) (capacity : ℕ) : MmapVec T := ⟨⟨capacity, []⟩, 0, fun _ => none⟩

theorem inv_mapped {capacity : ℕ} (hd : 2 ^ k ∣ capacity) (hlt : capacity < 2 ^ 64) :
    (mapped T capacity).Inv k where
  dvd := hd
  lt := hlt
  len_le := Nat.zero_le _
  accessible i := by
    unfold mapped
    simp [Mmap.accessible, Nat.two_pow_pos k]

/-- A mapping is made where the system call succeeds. -/
theorem withReserved_eq (T : Type) (hp : host.pageSize = 2 ^ k) {capacity : ℕ} (hd : 2 ^ k ∣ capacity)
    (hpos : 0 < capacity) : (withReserved host capacity : Fallible Error (MmapVec T))
      = if host.mmapOk capacity then (.ok (.ok (mapped T capacity)) : Except Fault (Except Error _))
        else .ok (.error .mmapFailed) := by
  have hmul : host.usizeIsMultipleOfHostPageSize capacity = true := by
    unfold Host.usizeIsMultipleOfHostPageSize
    rw [hp, Nat.mod_eq_zero_of_dvd hd]
    rfl
  unfold withReserved Mmap.withReserve
  rw [hmul, decide_eq_true hpos]
  split_ifs <;> rfl

/-- The length of a mapping is a positive multiple of the page size. -/
theorem withReserved_eq_ok (hp : host.pageSize = 2 ^ k) {capacity : ℕ}
    (h : withReserved host capacity = (.ok (.ok v) : Except Fault (Except Error _))) :
    2 ^ k ∣ capacity ∧ v = mapped T capacity := by
  obtain ⟨mmap, hm, h⟩ := fallible_bind_eq_ok.1 h
  obtain rfl := Except.ok.inj (Except.ok.inj h)
  unfold Mmap.withReserve at hm
  obtain ⟨_, hmul, hm⟩ := fallible_bind_eq_ok.1 hm
  obtain ⟨-, -, hm⟩ := fallible_bind_eq_ok.1 hm
  have hmul := fallible_lift_eq_ok hmul
  unfold Host.usizeIsMultipleOfHostPageSize at hmul
  split_ifs at hm
  · obtain rfl := Except.ok.inj (Except.ok.inj hm)
    refine ⟨?_, rfl⟩
    by_contra hd
    rw [hp, beq_false_of_ne (mt Nat.dvd_of_mod_eq_zero hd)] at hmul
    cases hmul
  · cases hm

theorem inv_of_isStart (hp : host.pageSize = 2 ^ k) (h : v.IsStart host) :
    v.Inv k ∧ v.len = 0 := by
  rcases h with rfl | ⟨capacity, hlt, h⟩
  · exact ⟨inv_mapped (Nat.dvd_zero _) (Nat.two_pow_pos 64), rfl⟩
  · obtain ⟨hd, rfl⟩ := withReserved_eq_ok hp h
    exact ⟨inv_mapped hd hlt, rfl⟩

/-- An operation extends the vector, or leaves it as it was. -/
theorem after_cases (debug : Bool) (hp : host.pageSize = 2 ^ k) (hk : k < 64) (h : v.Inv k) (op : Op T) :
    v.Extends host k op.count ∧ Extended k v op.count op.elem (v.after debug host op)
      ∨ ¬ v.Extends host k op.count ∧ v.after debug host op = v := by
  unfold after
  rw [op.apply_eq]
  rcases extend_cases debug hp hk h op.count op.elem with
    ⟨hext, v', hv', he⟩ | ⟨hnot, -, hv'⟩ | ⟨hcap, e, hv'⟩ <;> rw [hv']
  · exact .inl ⟨hext, he⟩
  · exact .inr ⟨hnot, rfl⟩
  · exact .inr ⟨fun hext => hcap hext.1, rfl⟩

theorem inv_after (debug : Bool) (hp : host.pageSize = 2 ^ k) (hk : k < 64) (h : v.Inv k) (op : Op T) :
    (v.after debug host op).Inv k := by
  rcases after_cases debug hp hk h op with ⟨-, he⟩ | ⟨-, he⟩
  · exact he.inv
  · rwa [he]

end Runs

/-! ## Contents -/

/-- What the vector holds. -/
def Contents (v : MmapVec T) (c : List T) : Prop := v.slice = c.map some

/-- A vector of the elements can be made, and holds them. -/
def FromSliceCopies (debug : Bool) (host : Host) (s : List T) : Prop :=
  ∃ v, fromSlice debug host s = (.ok (.ok v) : Except Fault (Except Error _)) ∧ v.Contents s

/-- The elements can be appended to the contents of the vector. -/
def ExtendCopies (debug : Bool) (host : Host) (v : MmapVec T) (c t : List T) : Prop :=
  ∃ v', v.tryExtendFromSlice debug host t = .ok (.ok (), v') ∧ v'.Contents (c ++ t)

section Contents

variable {debug : Bool} {host : Host} {k : ℕ} {v : MmapVec T} {c : List T}

theorem Contents.len_eq (h : v.Contents c) : v.len = c.length := by
  unfold Contents slice at h
  simpa using congrArg List.length h

theorem contents_nil (h : v.len = 0) : v.Contents [] := by
  unfold Contents slice
  rw [h]
  rfl

theorem Contents.extended (h : v.Contents c) (op : Op T) {v' : MmapVec T}
    (he : Extended k v op.count op.elem v') : v'.Contents (c ++ op.added) := by
  unfold Contents at *
  rw [he.slice, h, op.map_elem, List.map_append]

/-- In each state of a run the vector holds some elements. -/
theorem exists_contents (debug : Bool) (hp : host.pageSize = 2 ^ k) (hk : k < 64) :
    ∀ {ops : List (Op T)} {v : MmapVec T} {c : List T}, v.Inv k → v.Contents c →
      ∀ v' ∈ states debug host v ops, v'.Inv k ∧ ∃ c', v'.Contents c'
  | [], v, c, h, hc, v', hv' => by
    obtain rfl := List.mem_singleton.1 hv'
    exact ⟨h, c, hc⟩
  | op :: ops, v, c, h, hc, v', hv' => by
    rcases List.mem_cons.1 hv' with rfl | hv'
    · exact ⟨h, c, hc⟩
    have hinv := inv_after debug hp hk h op
    rcases after_cases debug hp hk h op with ⟨-, he⟩ | ⟨-, he⟩
    · exact exists_contents debug hp hk hinv (hc.extended op he) v' hv'
    · rw [he] at hv'
      exact exists_contents debug hp hk h hc v' hv'

/-- Elements can be appended where they leave a byte of the mapping unused. -/
theorem extendCopies_iff (debug : Bool) (hp : host.pageSize = 2 ^ k) (hk : k < 64)
    (hprotect : ∀ start len, host.mprotectOk start len = true) (h : v.Inv k) (hc : v.Contents c)
    (t : List T) : ExtendCopies debug host v c t ↔ c.length + t.length < v.mmap.len := by
  unfold ExtendCopies tryExtendFromSlice
  rw [← hc.len_eq]
  rcases extend_cases debug hp hk h t.length (Op.extendFromSlice t).elem with
    ⟨hext, v', hv', he⟩ | ⟨hnot, hcap, -⟩ | ⟨hcap, e, hv'⟩
  · exact iff_of_true ⟨v', hv', hc.extended (.extendFromSlice t) he⟩ hext.1
  · exact absurd ⟨hcap, fun _ => hprotect _ _⟩ hnot
  · refine iff_of_false ?_ hcap
    rintro ⟨v', h, -⟩
    cases hv'.symm.trans h

/-- A vector of the elements can be made where they do not fill their pages. -/
theorem fromSliceCopies_iff (debug : Bool) (hp : host.pageSize = 2 ^ k) (hk : k < 64)
    (hmap : ∀ size, host.mmapOk size = true)
    (hprotect : ∀ start len, host.mprotectOk start len = true) {s : List T}
    (hs : s.length + (2 ^ k - 1) < 2 ^ 64) :
    FromSliceCopies debug host s ↔ s = [] ∨ ¬ 2 ^ k ∣ s.length := by
  have hpos : 0 < 2 ^ k := Nat.two_pow_pos k
  rcases s with _ | ⟨a, s⟩
  · exact iff_of_true ⟨.new, rfl, contents_nil rfl⟩ (.inl rfl)
  generalize hs' : a :: s = l at *
  have hlen : 0 < l.length := by simp [← hs']
  have hempty : l.isEmpty = false := by simp [← hs']
  have hround := roundUp_lt hpos l.length
  have hinv : (mapped T (roundUp (2 ^ k) l.length)).Inv k :=
    inv_mapped (dvd_roundUp _ _) (by omega)
  have hreserve := withReserved_eq T hp (dvd_roundUp (2 ^ k) l.length) (roundUp_pos hpos hlen)
  have hcopies := extendCopies_iff debug hp hk hprotect hinv (contents_nil rfl) l
  have hlt : l.length < roundUp (2 ^ k) l.length ↔ ¬ 2 ^ k ∣ l.length := by
    rw [← roundUp_eq_self_iff hpos]
    exact ⟨fun h => h.ne', fun h => Nat.lt_of_le_of_ne (le_roundUp hpos _) (Ne.symm h)⟩
  rw [if_pos (hmap _)] at hreserve
  rw [or_iff_right (List.ne_nil_of_length_pos hlen), ← hlt]
  refine Iff.trans ?_ (hcopies.trans (by rw [List.length_nil, Nat.zero_add]; rfl))
  unfold FromSliceCopies fromSlice ExtendCopies
  simp only [hempty, Bool.false_eq_true, if_false, Host.roundUsizeUpToHostPages_eq hp hk hs, fallible_lift_ok_bind,
    hreserve, fallible_ok_bind]
  rcases (mapped T (roundUp (2 ^ k) l.length)).tryExtendFromSlice debug host l with e | ⟨e | _, v⟩
  · refine iff_of_false ?_ ?_ <;> rintro ⟨_, h, -⟩ <;> cases h
  · refine iff_of_false ?_ ?_ <;> rintro ⟨_, h, -⟩ <;> cases h
  · constructor
    · rintro ⟨v', h, hv'⟩
      obtain rfl := Except.ok.inj (Except.ok.inj h)
      exact ⟨v, rfl, hv'⟩
    · rintro ⟨v', h, hv'⟩
      obtain rfl := (Prod.mk.inj (Except.ok.inj h)).2
      exact ⟨v, rfl, hv'⟩

end Contents

/-! ## Accessible elements -/

/-- The elements, of `size` bytes each, are within the bytes that were made accessible, and these are
within the mapping. -/
def Backed (size : ℕ) (v : MmapVec T) : Prop :=
  ∃ bytes, (∀ i, v.mmap.accessible i = true ↔ i < bytes) ∧ v.len * size ≤ bytes
    ∧ bytes ≤ v.mmap.len

/-- So many elements are bytes, or fit into one page. -/
def Small (host : Host) (size count : ℕ) : Prop := size ≤ 1 ∨ count * size ≤ host.pageSize

/-- Each operation that extends the vector leaves it with few elements. -/
def StepsSmall (debug : Bool) (host : Host) (k size : ℕ) : MmapVec T → List (Op T) → Prop
  | _, [] => True
  | v, op :: ops => (v.Extends host k op.count → Small host size (v.len + op.count))
    ∧ StepsSmall debug host k size (v.after debug host op) ops

section Backed

variable {debug : Bool} {host : Host} {k size : ℕ} {v : MmapVec T}

theorem Inv.backed_iff (size : ℕ) (hp : host.pageSize = 2 ^ k) (h : v.Inv k) :
    v.Backed size ↔ Small host size v.len := by
  have hpos : 0 < 2 ^ k := Nat.two_pow_pos k
  unfold Small
  rw [hp, ← mul_le_roundUp_iff hpos]
  constructor
  · rintro ⟨bytes, hacc, hle, -⟩
    refine hle.trans (Nat.le_of_not_lt fun hlt => ?_)
    exact absurd ((h.accessible _).1 ((hacc _).2 hlt)) (Nat.lt_irrefl _)
  · exact fun hle => ⟨_, h.accessible, hle, roundUp_le hpos h.dvd h.len_le⟩

/-- The elements are within the mapping and accessible exactly where they are backed. -/
theorem Inv.forall_accessible_iff (h : v.Inv k) :
    (∀ i < v.len * size, i < v.mmap.len ∧ v.mmap.accessible i = true) ↔ v.Backed size := by
  have hround := roundUp_le (Nat.two_pow_pos k) h.dvd h.len_le
  constructor
  · intro hall
    refine ⟨_, h.accessible, Nat.le_of_not_lt fun hlt => ?_, hround⟩
    exact absurd ((h.accessible _).1 (hall _ hlt).2) (Nat.lt_irrefl _)
  · rintro ⟨bytes, hacc, hle, hbytes⟩ i hi
    exact ⟨by omega, (hacc i).2 (by omega)⟩

theorem backed_states_iff (hp : host.pageSize = 2 ^ k) (hk : k < 64) :
    ∀ {ops : List (Op T)} {v : MmapVec T}, v.Inv k → v.Backed size →
      ((∀ v' ∈ states debug host v ops, v'.Backed size) ↔ StepsSmall debug host k size v ops)
  | [], v, _, hb => by simp [states, StepsSmall, hb]
  | op :: ops, v, h, hb => by
    unfold states StepsSmall
    rw [List.forall_mem_cons, and_iff_right hb]
    have hinv := inv_after debug hp hk h op
    have hmem : v.after debug host op ∈ states debug host (v.after debug host op) ops := by
      cases ops <;> exact List.mem_cons_self
    rcases after_cases debug hp hk h op with ⟨hext, he⟩ | ⟨hnot, he⟩
    · have hsmall := hinv.backed_iff size hp
      rw [he.len] at hsmall
      constructor
      · intro hall
        have hb' := hall _ hmem
        exact ⟨fun _ => hsmall.1 hb', (backed_states_iff hp hk hinv hb').1 hall⟩
      · rintro ⟨hstep, hrest⟩
        exact (backed_states_iff hp hk hinv (hsmall.2 (hstep hext))).2 hrest
    · rw [he, backed_states_iff hp hk h hb]
      exact ⟨fun h => ⟨fun hext => absurd hext hnot, h⟩, And.right⟩

end Backed

end MmapVec

/-! ## Tables -/

namespace Runtime

/-- The bytes of an element, a pointer. -/
def ELEMENT_SIZE : ℕ := 8

section Table

variable (debug : Bool) (host : Host) (desc : TableDesc) (actualMaximum : Option ℕ)

/-- A table is made with its minimum of elements, all of which can be accessed, or an error is
returned. -/
def TableBacked : Prop :=
  (∃ e, Table.tryNew debug host desc actualMaximum
      = (.ok (.error e) : Except Fault (Except Error _)))
    ∨ ∃ t, Table.tryNew debug host desc actualMaximum = (.ok (.ok t) : Except Fault (Except Error _))
      ∧ t.elements.len = desc.minimum
      ∧ ∀ i < t.elements.len * ELEMENT_SIZE, i < t.elements.mmap.len
        ∧ t.elements.mmap.accessible i = true

/-- The number of bytes that is reserved for a table, which is the number of its elements. -/
def reserved (k : ℕ) : ℕ := roundUp (2 ^ k) (min TABLE_MAX (actualMaximum.getD U64_MAX))

/-- The table is empty or cannot be mapped, or it has fewer elements than bytes are reserved and they
cannot be made accessible or fit into one page. -/
def TableSmall (k : ℕ) : Prop :=
  actualMaximum = some 0 ∨ host.mmapOk (reserved actualMaximum k) = false
    ∨ desc.minimum < reserved actualMaximum k
      ∧ (0 < desc.minimum ∧ host.mprotectOk 0 (roundUp (2 ^ k) desc.minimum) = false
        ∨ MmapVec.Small host ELEMENT_SIZE desc.minimum)

variable {debug host desc actualMaximum} {k : ℕ}

theorem reserveSize_eq_zero_iff :
    min TABLE_MAX (actualMaximum.getD U64_MAX) = 0 ↔ actualMaximum = some 0 := by
  rcases actualMaximum with _ | m
  · simp [TABLE_MAX, U64_MAX]
  · simp [TABLE_MAX]

theorem reserved_lt (hk : k < 64) : reserved actualMaximum k < 2 ^ 64 := by
  have hlt := roundUp_lt (Nat.two_pow_pos k) (min TABLE_MAX (actualMaximum.getD U64_MAX))
  have hmin : min TABLE_MAX (actualMaximum.getD U64_MAX) ≤ 2 ^ 10 := min_le_left _ _
  have hpow : 2 ^ k ≤ 2 ^ 63 := Nat.pow_le_pow_right (by decide) (by omega)
  unfold reserved
  omega

/-- A table that is not empty is a mapping that is extended by its minimum. -/
theorem tryNew_eq (hp : host.pageSize = 2 ^ k) (hk : k < 64) (h : actualMaximum ≠ some 0) :
    Table.tryNew debug host desc actualMaximum
      = if host.mmapOk (reserved actualMaximum k) then
          match (MmapVec.mapped _ (reserved actualMaximum k)).tryExtendWith debug host desc.minimum none
          with
          | .ok (.ok (), v) => (.ok (.ok ⟨v, actualMaximum⟩) : Except Fault (Except Error _))
          | .ok (.error e, _) => .ok (.error e)
          | .error e => .error e
        else .ok (.error .mmapFailed) := by
  have hmin : min TABLE_MAX (actualMaximum.getD U64_MAX) ≤ 2 ^ 10 := min_le_left _ _
  have hpow : 2 ^ k ≤ 2 ^ 63 := Nat.pow_le_pow_right (by decide) (by omega)
  have hround : host.roundUsizeUpToHostPages (min TABLE_MAX (actualMaximum.getD U64_MAX))
      = .ok (reserved actualMaximum k) := Host.roundUsizeUpToHostPages_eq hp hk (by omega)
  have hsize := mt reserveSize_eq_zero_iff.1 h
  have hpos : 0 < reserved actualMaximum k :=
    roundUp_pos (Nat.two_pow_pos k) (Nat.pos_of_ne_zero hsize)
  have hd : 2 ^ k ∣ reserved actualMaximum k := dvd_roundUp _ _
  unfold Table.tryNew
  simp only [if_neg hsize, hround, fallible_lift_ok_bind]
  rw [MmapVec.withReserved_eq _ hp hd hpos]
  split_ifs
  · rw [fallible_ok_bind]
    rcases MmapVec.tryExtendWith debug host _ desc.minimum none with e | ⟨_ | _, v⟩ <;> rfl
  · rfl

theorem tableBacked_iff (hp : host.pageSize = 2 ^ k) (hk : k < 64)
    (hvalid : ∀ m ∈ actualMaximum, desc.minimum ≤ m) :
    TableBacked debug host desc actualMaximum ↔ TableSmall host desc actualMaximum k := by
  unfold TableBacked TableSmall
  by_cases hzero : actualMaximum = some 0
  · subst hzero
    have hmin : desc.minimum = 0 := Nat.le_zero.1 (hvalid 0 rfl)
    refine iff_of_true (.inr ⟨⟨.new, some 0⟩, ?_, hmin.symm, fun i hi => ?_⟩) (.inl rfl)
    · unfold Table.tryNew
      rw [if_pos (by simp)]
      rfl
    · exact absurd hi (by simp [MmapVec.new])
  rw [or_iff_right hzero, tryNew_eq hp hk hzero]
  by_cases hok : host.mmapOk (reserved actualMaximum k) = true
  swap
  · rw [if_neg hok]
    exact iff_of_true (.inl ⟨.mmapFailed, rfl⟩) (.inl (by simpa using hok))
  have hmap : ¬ host.mmapOk (reserved actualMaximum k) = false := by simp [hok]
  rw [if_pos hok, or_iff_right hmap]
  have hinv : (MmapVec.mapped (Option ℕ) (reserved actualMaximum k)).Inv k :=
    MmapVec.inv_mapped (dvd_roundUp _ _) (reserved_lt hk)
  have hpos := Nat.two_pow_pos k
  unfold MmapVec.tryExtendWith
  rcases MmapVec.extend_cases debug hp hk hinv desc.minimum (fun _ => some none) with
    ⟨hext, v', hv', he⟩ | ⟨hnot, hcap, hv'⟩ | ⟨hcap, e, hv'⟩ <;> rw [hv']
  · have hlen : v'.len = desc.minimum := he.len.trans (Nat.zero_add _)
    have hsmall := he.inv.backed_iff ELEMENT_SIZE hp
    unfold MmapVec.Extends MmapVec.mapped at hext
    simp only [Nat.zero_add, roundUp_zero hpos, Nat.sub_zero] at hext
    have hprotect : ¬ (0 < desc.minimum ∧ host.mprotectOk 0 (roundUp (2 ^ k) desc.minimum) = false) := by
      rintro ⟨hmin, hfalse⟩
      rw [hext.2 (roundUp_pos hpos hmin)] at hfalse
      cases hfalse
    rw [hlen] at hsmall
    rw [and_iff_right hext.1, or_iff_right hprotect, ← hsmall]
    constructor
    · rintro (⟨e, h⟩ | ⟨t, h, -, hall⟩)
      · cases h
      · obtain rfl := Except.ok.inj (Except.ok.inj h)
        exact he.inv.forall_accessible_iff.1 hall
    · exact fun hb => .inr ⟨⟨v', actualMaximum⟩, rfl, hlen, he.inv.forall_accessible_iff.2 hb⟩
  · unfold MmapVec.Extends MmapVec.mapped at hnot
    unfold MmapVec.mapped at hcap
    simp only [Nat.zero_add, roundUp_zero hpos, Nat.sub_zero] at hnot hcap
    refine iff_of_true (.inl ⟨.mmapFailed, rfl⟩) ⟨hcap, .inl ⟨?_, ?_⟩⟩
    · refine Nat.pos_of_ne_zero fun hmin => hnot ⟨hcap, fun h => absurd h ?_⟩
      rw [hmin, roundUp_zero hpos]
      exact Nat.lt_irrefl 0
    · exact Bool.eq_false_of_not_eq_true fun h => hnot ⟨hcap, fun _ => h⟩
  · unfold MmapVec.mapped at hcap
    rw [Nat.zero_add] at hcap
    refine iff_of_false ?_ fun h => hcap h.1
    rintro (⟨e', h⟩ | ⟨t, h, -⟩) <;> cases h

end Table

end Runtime

/-! ## Backed vectors -/

/-- The elements of a vector can be accessed in every state of a run exactly where each extension leaves
it with bytes, or with elements that fit into one page; a table is made as declared exactly where its
elements fit into one page and are fewer than the bytes reserved for them, or where it is empty or an
error is returned. -/
theorem mmapVec_backed_iff (T : Type) (debug : Bool) {host : Host} {k : ℕ} (size : ℕ)
    (hp : host.pageSize = 2 ^ k) (hk : k < 64) :
    (∀ v : MmapVec T, v.IsStart host → ∀ ops,
      (∀ v' ∈ v.states debug host ops, v'.Backed size) ↔ v.StepsSmall debug host k size ops)
    ∧ ∀ desc actualMaximum, (∀ m ∈ actualMaximum, desc.minimum ≤ m) →
      (Runtime.TableBacked debug host desc actualMaximum
        ↔ Runtime.TableSmall host desc actualMaximum k) := by
  refine ⟨fun v hv ops => ?_, fun desc actualMaximum hvalid => Runtime.tableBacked_iff hp hk hvalid⟩
  obtain ⟨hinv, hlen⟩ := MmapVec.inv_of_isStart hp hv
  refine MmapVec.backed_states_iff hp hk hinv ((hinv.backed_iff size hp).2 (.inr ?_))
  rw [hlen, Nat.zero_mul]
  exact Nat.zero_le _

/-- Where the system calls succeed, a slice is copied exactly where it is empty or does not end with a
page, and elements are appended whenever they fit exactly where they do not fill the vector. -/
theorem mmapVec_copies_iff (debug : Bool) {host : Host} {k : ℕ} (hp : host.pageSize = 2 ^ k)
    (hk : k < 64) (hmap : ∀ size, host.mmapOk size = true)
    (hprotect : ∀ start len, host.mprotectOk start len = true) :
    (∀ s : List UInt8, s.length + (2 ^ k - 1) < 2 ^ 64 →
      (MmapVec.FromSliceCopies debug host s ↔ s = [] ∨ ¬ 2 ^ k ∣ s.length))
    ∧ ∀ v : MmapVec UInt8, v.IsStart host → ∀ ops, ∀ v' ∈ v.states debug host ops,
      ∃ c, v'.Contents c ∧ ∀ t,
        ((MmapVec.ExtendCopies debug host v' c t ↔ c.length + t.length ≤ v'.mmap.len)
          ↔ c.length + t.length ≠ v'.mmap.len) := by
  refine ⟨fun s hs => MmapVec.fromSliceCopies_iff debug hp hk hmap hprotect hs, ?_⟩
  intro v hv ops v' hv'
  obtain ⟨hinv, hlen⟩ := MmapVec.inv_of_isStart hp hv
  obtain ⟨hinv', c, hc⟩ := MmapVec.exists_contents debug hp hk hinv (MmapVec.contents_nil hlen) v' hv'
  refine ⟨c, hc, fun t => ?_⟩
  rw [MmapVec.extendCopies_iff debug hp hk hprotect hinv' hc, iff_def]
  omega

section Example

/-- A host with pages of four kilobytes. -/
def pageHost : Host := ⟨4096, fun _ => true, fun _ _ => true⟩

def tableOf (minimum : ℕ) : TableDesc where
  elementType := ⟨true, ⟨false, .func⟩⟩
  table64 := false
  minimum := minimum
  maximum := some minimum
  shared := false

/-- The elements of a table of 1000 do not fit into the one page that is made accessible, and a table of
4096 does not fit into the page that is reserved for it. -/
theorem not_tableBacked : ¬ Runtime.TableBacked true pageHost (tableOf 1000) (some 1000)
    ∧ ¬ Runtime.TableBacked true pageHost (tableOf 4096) (some 4096) := by
  have hp : pageHost.pageSize = 2 ^ 12 := rfl
  refine ⟨fun h => ?_, fun h => ?_⟩
  · have hs := (Runtime.tableBacked_iff hp (by decide) (by simp [tableOf])).1 h
    revert hs
    unfold Runtime.TableSmall MmapVec.Small
    decide
  · have hs := (Runtime.tableBacked_iff hp (by decide) (by simp [tableOf])).1 h
    revert hs
    unfold Runtime.TableSmall MmapVec.Small
    decide

/-- A table of 512 elements fills its page. -/
theorem mmapVec_backed_iff_page : Runtime.TableBacked true pageHost (tableOf 512) (some 512) := by
  have hp : pageHost.pageSize = 2 ^ 12 := rfl
  have hiff := (mmapVec_backed_iff ℕ true 8 hp (by decide)).2
  refine (hiff (tableOf 512) (some 512) (by simp [tableOf])).2 ?_
  unfold Runtime.TableSmall MmapVec.Small
  decide

/-- A slice of one page is not copied. -/
theorem not_fromSliceCopies :
    ¬ MmapVec.FromSliceCopies true pageHost (List.replicate 4096 (0 : UInt8)) := by
  have hp : pageHost.pageSize = 2 ^ 12 := rfl
  have hlen : (List.replicate 4096 (0 : UInt8)).length = 4096 := List.length_replicate
  intro h
  rw [MmapVec.fromSliceCopies_iff true hp (by decide) (fun _ => rfl) (fun _ _ => rfl)
    (by rw [hlen]; decide), hlen] at h
  rcases h with h | h
  · rw [h] at hlen
    cases hlen
  · exact h (by decide)

/-- Half a page is copied. -/
theorem mmapVec_copies_iff_half :
    MmapVec.FromSliceCopies true pageHost (List.replicate 2048 (0 : UInt8)) := by
  have hp : pageHost.pageSize = 2 ^ 12 := rfl
  have hlen : (List.replicate 2048 (0 : UInt8)).length = 2048 := List.length_replicate
  refine ((mmapVec_copies_iff true hp (by decide) (fun _ => rfl) fun _ _ => rfl).1 _ ?_).2 (.inr ?_)
  · rw [hlen]
    decide
  · rw [hlen]
    decide

end Example

end K23VM
