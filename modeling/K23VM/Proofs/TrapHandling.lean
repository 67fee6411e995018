import K23VM.TrapHandling

/-!
# The states of the live calls

While calls are live, `TLS` points to the state of the innermost one, and the states from it on are
those of the live calls.  The end of the outermost call leaves null in `TLS`, so this is also right
while no call is live exactly until then, `activations_restored_iff`.
-/

namespace K23VM

namespace Thread

variable {t : Thread} {p : ℕ} {state : CallThreadState}

/-! ## Pushing and popping -/

theorem prev_update {t' : Thread} {r : Option CallThreadState}
    (h : t'.states = Function.update t.states p r) :
    t'.prev = Function.update t.prev p (r.map CallThreadState.prev) := by
  funext q
  unfold Thread.prev
  rw [h]
  by_cases hq : q = p
  · subst hq
    simp
  · simp [hq]

theorem enter_eq (t : Thread) (p vmctx : ℕ) (vmoffsets : StaticVMOffsets) :
    t.enter p vmctx vmoffsets = .ok ⟨some p, Function.update t.states p
      (some { CallThreadState.new t.words vmctx vmoffsets with prev := t.tls.getD 0 }), t.words⟩ := by
  unfold enter push deref set
  simp [bind, Except.bind, pure, Except.pure, CallThreadState.new]

/-- Only the state that `TLS` points to can be popped. -/
theorem pop_eq (hp : t.states p = some state) (htls : t.tls = some p) :
    t.pop p = .ok ({ t with tls := some state.prev }.set p { state with prev := 0 }) := by
  unfold pop deref
  simp [hp, htls, bind, Except.bind, pure, Except.pure]

theorem leave_eq (hp : t.states p = some state) (htls : t.tls = some p) {ret : ℤ}
    {result : Except TrapReason Unit} (hret : ret = 0 ∧ result = .ok ()
      ∨ ret ≠ 0 ∧ ∃ reason, state.unwind = some reason ∧ result = .error reason) :
    t.leave p ret
      = .ok (result, ⟨some state.prev, Function.update t.states p none, state.drop t.words⟩) := by
  unfold leave
  rw [pop_eq hp htls]
  unfold deref set
  rcases hret with ⟨rfl, rfl⟩ | ⟨hret, reason, hreason, rfl⟩
  · simp [bind, Except.bind, pure, Except.pure, CallThreadState.drop]
  · simp [hret, hreason, bind, Except.bind, pure, Except.pure, CallThreadState.drop]

end Thread

/-! ## Steps -/

namespace ThreadEvent

/-- Whether a call of `catch_traps` ends. -/
def ends : ThreadEvent → Bool
  | .ret => true
  | .raiseTrap _ => true
  | .signal _ _ lookup => lookup.isSome
  | _ => false

/-- A new state lies in a frame of its own, and only what is live can end. -/
def Possible (live : List ℕ) : ThreadEvent → Prop
  | .catchTraps address _ _ => address ≠ 0 ∧ address ∉ live
  | event => event.ends = true → live ≠ []

/-- A list that grows by `x` with each call of `catch_traps`, and shrinks with its end. -/
def nest {α : Type} (event : ThreadEvent) (x : ℕ → α) (l : List α) : List α :=
  match event with
  | .catchTraps address _ _ => x address :: l
  | event => if event.ends then l.tail else l

/-- The states that are live after an event. -/
def liveAfter (event : ThreadEvent) (live : List ℕ) : List ℕ := event.nest id live

end ThreadEvent

namespace CallStack

/-- The states of the live calls are chained through their `prev` pointers. -/
structure Inv (s : CallStack) : Prop where
  chain : Chain s.thread.prev (s.thread.tls.getD 0) s.live
  nodup : s.live.Nodup

section Step

variable {s : CallStack} {p : ℕ} {live : List ℕ}

theorem inv_start (words : Words) : (start words).Inv := ⟨rfl, List.nodup_nil⟩

/-- The state of the innermost call. -/
theorem Inv.innermost (h : s.Inv) (hl : s.live = p :: live) :
    s.thread.tls = some p ∧ ∃ state, s.thread.states p = some state
      ∧ Chain s.thread.prev state.prev live := by
  have hc := h.chain
  rw [hl] at hc
  obtain ⟨hp, h0, r, hr, hc⟩ := hc
  constructor
  · rcases htls : s.thread.tls with _ | q
    · rw [htls] at hp
      exact absurd hp.symm h0
    · rw [htls] at hp
      exact congrArg some hp
  · obtain ⟨state, hs, rfl⟩ := Option.map_eq_some_iff.1 hr
    exact ⟨state, hs, hc⟩

theorem Inv.enter (h : s.Inv) (h0 : p ≠ 0) (hp : p ∉ s.live) (vmctx : ℕ)
    (vmoffsets : StaticVMOffsets) :
    ∃ thread, s.thread.enter p vmctx vmoffsets = .ok thread ∧ thread.tls = some p
      ∧ Inv { s with thread, live := p :: s.live } := by
  refine ⟨_, Thread.enter_eq .., rfl, ?_, List.nodup_cons.2 ⟨hp, h.nodup⟩⟩
  show Chain (Thread.prev _) p (p :: s.live)
  rw [Thread.prev_update (t := s.thread) rfl]
  exact h.chain.cons hp h0

/-- The innermost call ends with what it returned, or with the reason that is in its state. -/
theorem Inv.leave (h : s.Inv) (hl : s.live = p :: live) {state : CallThreadState}
    (hs : s.thread.states p = some state) {ret : ℤ} {result : Except TrapReason Unit}
    (hret : ret = 0 ∧ result = .ok ()
      ∨ ret ≠ 0 ∧ ∃ reason, state.unwind = some reason ∧ result = .error reason) :
    ∃ thread, s.thread.leave p ret = .ok (result, thread)
      ∧ thread.tls = some (live.head?.getD 0) ∧ ∀ r, Inv ⟨thread, live, r⟩ := by
  obtain ⟨htls, state', hs', hc⟩ := h.innermost hl
  obtain rfl := Option.some.inj (hs.symm.trans hs')
  have hnodup := h.nodup
  rw [hl, List.nodup_cons] at hnodup
  refine ⟨_, Thread.leave_eq hs htls hret, ?_, fun r => ⟨?_, hnodup.2⟩⟩
  · rcases live with _ | ⟨q, live⟩
    · exact congrArg some hc
    · exact congrArg some hc.1
  · show Chain (Thread.prev _) state.prev live
    rw [Thread.prev_update (t := s.thread) rfl]
    exact hc.update hnodup.1

/-- A trap is noted in the state of the innermost call. -/
theorem Inv.unwindWith (h : s.Inv) (hl : s.live = p :: live) (reason : TrapReason) :
    ∃ thread state, s.thread.unwindWith p reason = .ok (p, thread) ∧ Inv { s with thread }
      ∧ thread.states p = some state ∧ state.unwind = some reason := by
  obtain ⟨-, state, hs, -⟩ := h.innermost hl
  refine ⟨s.thread.set p { state with unwind := some reason }, _, ?_, ⟨?_, h.nodup⟩,
    Function.update_self .., rfl⟩
  · unfold Thread.unwindWith Thread.deref
    rw [hs]
    rfl
  · have hprev : (s.thread.set p { state with unwind := some reason }).prev = s.thread.prev := by
      rw [Thread.prev_update (t := s.thread) rfl, Function.update_eq_self_iff]
      unfold Thread.prev
      rw [hs]
      rfl
    show Chain (Thread.prev (s.thread.set p _)) (s.thread.tls.getD 0) s.live
    rw [hprev]
    exact h.chain

/-- A trap ends the innermost call. -/
theorem Inv.longjmp (h : s.Inv) (hl : s.live = p :: live) {state : CallThreadState}
    (hs : s.thread.states p = some state) {reason : TrapReason} (hr : state.unwind = some reason) :
    ∃ s', s.longjmp p = .ok s' ∧ s'.Inv ∧ s'.live = live
      ∧ s'.thread.tls = some (live.head?.getD 0) ∧ s'.result = some (.error reason) := by
  obtain ⟨thread, hthread, htls, hinv⟩ := h.leave hl hs (.inr ⟨one_ne_zero, reason, hr, rfl⟩)
  refine ⟨⟨thread, live, some (.error reason)⟩, ?_, hinv _, rfl, htls, rfl⟩
  unfold CallStack.longjmp
  rw [hthread, hl]
  simp [bind, Except.bind, pure, Except.pure]

/-- After an event, `TLS` points to the innermost call that is live, and is null where an end leaves none
live. -/
theorem Inv.step (h : s.Inv) (htls : s.thread.tls = s.live.head?) {event : ThreadEvent}
    (hp : event.Possible s.live) :
    ∃ s', s.step event = .ok s' ∧ s'.Inv ∧ s'.live = event.liveAfter s.live
      ∧ s'.thread.tls = if event.ends then some (s'.live.head?.getD 0) else s'.live.head? := by
  -- the innermost call, which ends with the reason
  have htrap : ∀ reason, s.live ≠ [] → ∃ p thread s', s.thread.tls = some p
      ∧ s.thread.unwindWith p reason = .ok (p, thread) ∧ CallStack.longjmp { s with thread } p = .ok s'
      ∧ s'.Inv ∧ s'.live = s.live.tail ∧ s'.thread.tls = some (s.live.tail.head?.getD 0) := by
    intro reason hne
    obtain ⟨p, live, hl⟩ := List.exists_cons_of_ne_nil hne
    obtain ⟨thread, state, hthread, hinv, hs, hr⟩ := h.unwindWith hl reason
    obtain ⟨s', hs', hinv', hlive, htls', -⟩ := hinv.longjmp hl hs hr
    have htail : s.live.tail = live := by rw [hl, List.tail_cons]
    rw [htail]
    exact ⟨p, thread, s', (h.innermost hl).1, hthread, hs', hinv', hlive, htls'⟩
  cases event with
  | catchTraps address vmctx vmoffsets =>
    obtain ⟨thread, hthread, htls', hinv⟩ := h.enter hp.1 hp.2 vmctx vmoffsets
    refine ⟨_, ?_, hinv, rfl, htls'⟩
    simp [CallStack.step, hthread, bind, Except.bind, pure, Except.pure]
  | store address value => exact ⟨_, rfl, ⟨h.chain, h.nodup⟩, rfl, htls⟩
  | ret =>
    obtain ⟨p, live, hl⟩ := List.exists_cons_of_ne_nil (hp rfl)
    obtain ⟨-, state, hs, -⟩ := h.innermost hl
    obtain ⟨thread, hthread, htls', hinv⟩ := h.leave hl hs (.inl ⟨rfl, rfl⟩)
    refine ⟨⟨thread, live, some (.ok ())⟩, ?_, hinv _, ?_, htls'⟩
    · simp [CallStack.step, hl, hthread, bind, Except.bind, pure, Except.pure]
    · rw [hl]
      rfl
  | raiseTrap trap =>
    obtain ⟨p, thread, s', hp', hthread, hs', hinv, hlive, htls'⟩ := htrap (.wasm trap) (hp rfl)
    refine ⟨s', ?_, hinv, hlive, ?_⟩
    · simp [CallStack.step, Thread.raiseTrap, hp', hthread, hs', bind, Except.bind]
    · rw [hlive]
      exact htls'
  | signal pc faultingAddr lookup =>
    rcases lookup with _ | trap
    · refine ⟨s, ?_, h, rfl, htls⟩
      rcases hl : s.live with _ | ⟨p, live⟩
      · rw [hl] at htls
        simp [CallStack.step, Thread.trapHandler, htls, bind, Except.bind, pure, Except.pure]
      · obtain ⟨hp', state, hs, -⟩ := h.innermost hl
        simp [CallStack.step, Thread.trapHandler, Thread.deref, hp', hs, bind, Except.bind, pure,
          Except.pure]
    · obtain ⟨p, thread, s', hp', hthread, hs', hinv, hlive, htls'⟩ :=
        htrap (.jit pc faultingAddr trap) (hp rfl)
      refine ⟨s', ?_, hinv, hlive, ?_⟩
      · obtain ⟨q, live, hl⟩ := List.exists_cons_of_ne_nil (hp rfl)
        obtain ⟨hq, state, hs, -⟩ := h.innermost hl
        obtain rfl := Option.some.inj (hq.symm.trans hp')
        simp [CallStack.step, Thread.trapHandler, Thread.deref, hp', hs, hthread, hs', bind,
          Except.bind, Functor.map, Except.map]
      · rw [hlive]
        exact htls'

end Step

/-! ## Runs -/

/-- `TLS` points to the innermost live call, whose state is valid, and is `None` where none is live; the
states from it on are those of the live calls. -/
structure Exact (s : CallStack) : Prop where
  tls : s.thread.tls = s.live.head?
  valid : ∀ p, s.thread.tls = some p → p ≠ 0 ∧ ∃ state, s.thread.states p = some state
  iter : ∀ p, s.thread.tls = some p → s.thread.iter s.live.length p = .ok s.live

/-- The run has no fault, `TLS` is exact in each of its states, and each end of a call gives it the value
that it had before that call; `saved` has these values for the live calls. -/
def Restored : List (Option ℕ) → CallStack → List ThreadEvent → Prop
  | _, s, [] => s.Exact
  | saved, s, event :: events =>
    s.Exact ∧ ∃ s', s.step event = .ok s'
      ∧ (event.ends = true → saved.head? = some s'.thread.tls)
      ∧ Restored (event.nest (fun _ => s.thread.tls) saved) s' events

/-- Each event of the run is possible where it happens. -/
def WellNested : List ℕ → List ThreadEvent → Prop
  | _, [] => True
  | live, event :: events => event.Possible live ∧ WellNested (event.liveAfter live) events

/-- No call ends as the last one that is live. -/
def OutermostStays : List ℕ → List ThreadEvent → Prop
  | _, [] => True
  | live, event :: events =>
    (event.ends = true → event.liveAfter live ≠ []) ∧ OutermostStays (event.liveAfter live) events

/-- What `TLS` was before each of the live calls. -/
def befores : List ℕ → List (Option ℕ)
  | [] => []
  | _ :: live => live.head? :: befores live

section Run

variable {s : CallStack}

theorem Inv.exact (h : s.Inv) (htls : s.thread.tls = s.live.head?) : s.Exact := by
  have hp : ∀ p, s.thread.tls = some p → ∃ live, s.live = p :: live := by
    intro p hp
    exact List.head?_eq_some_iff.1 (htls.symm.trans hp)
  have hne : ∀ p, s.thread.tls = some p → p ≠ 0 := by
    intro p h1
    obtain ⟨live, hl⟩ := hp p h1
    have hc := h.chain
    rw [hl] at hc
    exact hc.2.1
  refine ⟨htls, fun p h1 => ⟨hne p h1, ?_⟩, fun p h1 => ?_⟩
  · obtain ⟨live, hl⟩ := hp p h1
    obtain ⟨-, state, hs, -⟩ := h.innermost hl
    exact ⟨state, hs⟩
  · have hc := h.chain
    rw [h1] at hc
    exact hc.walk_eq (hne p h1)

theorem Restored.exact {saved : List (Option ℕ)} {events : List ThreadEvent}
    (h : Restored saved s events) : s.Exact := by
  cases events with
  | nil => exact h
  | cons event events => exact h.1

theorem nest_of_ends {α : Type} {event : ThreadEvent} (h : event.ends = true) (x : ℕ → α)
    (l : List α) : event.nest x l = l.tail := by
  cases event with
  | catchTraps => cases h
  | store => cases h
  | ret => rfl
  | raiseTrap => rfl
  | signal => exact if_pos h

theorem ne_nil_of_ends {event : ThreadEvent} {live : List ℕ} (h : event.Possible live)
    (he : event.ends = true) : live ≠ [] := by
  cases event with
  | catchTraps => cases he
  | _ => exact h he

theorem befores_nest (event : ThreadEvent) (live : List ℕ) :
    event.nest (fun _ => live.head?) (befores live) = befores (event.liveAfter live) := by
  unfold ThreadEvent.liveAfter
  by_cases h : event.ends = true
  · rw [nest_of_ends h, nest_of_ends h]
    cases live <;> rfl
  · cases event with
    | catchTraps => rfl
    | store => rfl
    | ret => exact absurd rfl h
    | raiseTrap => exact absurd rfl h
    | signal => exact (if_neg h).trans (congrArg befores (if_neg h).symm)

theorem restored_iff : ∀ {events : List ThreadEvent} {s : CallStack}, s.Inv →
    s.thread.tls = s.live.head? → WellNested s.live events →
      (Restored (befores s.live) s events ↔ OutermostStays s.live events)
  | [], s, h, htls, _ => iff_of_true (h.exact htls) trivial
  | event :: events, s, h, htls, hw => by
    obtain ⟨s', hs', hinv, hlive, htls'⟩ := h.step htls hw.1
    have hexact := h.exact htls
    unfold Restored OutermostStays
    rw [htls, befores_nest, ← hlive]
    by_cases hstay : event.ends = true → s'.live ≠ []
    · have htls'' : s'.thread.tls = s'.live.head? := by
        by_cases he : event.ends = true
        · obtain ⟨q, live, hl⟩ := List.exists_cons_of_ne_nil (hstay he)
          rw [htls', if_pos he, hl]
          rfl
        · rw [htls', if_neg he]
      have hsaved : event.ends = true → (befores s.live).head? = some s'.thread.tls := by
        intro he
        rw [htls'', hlive, ThreadEvent.liveAfter, nest_of_ends he]
        rcases hl : s.live with _ | ⟨p, live⟩
        · exact absurd hl (ne_nil_of_ends hw.1 he)
        · rfl
      have ih := restored_iff hinv htls'' (hlive ▸ hw.2)
      constructor
      · rintro ⟨-, s'', hs'', -, hrest⟩
        obtain rfl := Except.ok.inj (hs'.symm.trans hs'')
        exact ⟨hstay, ih.1 hrest⟩
      · exact fun hrest => ⟨hexact, s', hs', hsaved, ih.2 hrest.2⟩
    · refine iff_of_false ?_ fun hrest => hstay hrest.1
      rintro ⟨-, s'', hs'', -, hrest⟩
      obtain rfl := Except.ok.inj (hs'.symm.trans hs'')
      have hnone := hrest.exact.tls
      push Not at hstay
      rw [htls', if_pos hstay.1, hstay.2] at hnone
      cases hnone

end Run

end CallStack

/-! ## Restored calls -/

/-- From a thread without calls, `TLS` is exact and restored throughout a run exactly where no call ends
as the last one that is live. -/
theorem activations_restored_iff (words : Words) {events : List ThreadEvent}
    (h : CallStack.WellNested [] events) :
    CallStack.Restored [] (.start words) events ↔ CallStack.OutermostStays [] events :=
  CallStack.restored_iff (CallStack.inv_start words) rfl h

section Example

/-- A call that returns. -/
def oneCall : List ThreadEvent := [.catchTraps 16 1000 ⟨8⟩, .ret]

/-- Null is left in `TLS` where no call is live any more. -/
theorem not_restored_oneCall : ¬ CallStack.Restored [] (.start fun _ => 0) oneCall := by
  have hw : CallStack.WellNested [] oneCall := by simp [oneCall, CallStack.WellNested,
    ThreadEvent.Possible, ThreadEvent.liveAfter, ThreadEvent.nest]
  intro h
  have hs := (CallStack.restored_iff (CallStack.inv_start fun _ => 0) rfl hw).1 h
  exact hs.2.1 rfl rfl

/-- A call in a call traps, and the outer one goes on. -/
theorem activations_restored_iff_nested : CallStack.Restored [] (.start fun _ => 0)
    [.catchTraps 16 1000 ⟨8⟩, .catchTraps 8 1000 ⟨8⟩, .raiseTrap .integerOverflow] := by
  refine (activations_restored_iff _ ?_).2 ?_
  · simp [CallStack.WellNested, ThreadEvent.Possible, ThreadEvent.liveAfter, ThreadEvent.nest,
      ThreadEvent.ends]
  · simp [CallStack.OutermostStays, ThreadEvent.liveAfter, ThreadEvent.nest, ThreadEvent.ends]

end Example

end K23VM
