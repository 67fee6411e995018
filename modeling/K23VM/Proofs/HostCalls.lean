import K23VM.HostCalls
import K23VM.Proofs.TrapHandling

/-!
# What calls leave in memory

The guards of a call have the words that were there before it.  However calls are nested, and whatever is
stored while they run, the last call that began is the first one that ends, and puts its words back.
-/

namespace K23VM

/-- A call that has not ended: the words just before it, and where emitted code has stored since. -/
structure CallRecord where
  vmctx : ℕ
  offsets : StaticVMOffsets
  before : Words
  stored : List ℕ

namespace CallRecord

def stackLimitPtr (r : CallRecord) : ℕ := r.vmctx + r.offsets.vmctxStackLimit

/-- The words of the vmctx that the guards of a call have. -/
def bookkeeping (r : CallRecord) : List ℕ :=
  [r.stackLimitPtr, r.vmctx + r.offsets.vmctxLastWasmExitFp,
    r.vmctx + r.offsets.vmctxLastWasmExitPc, r.vmctx + r.offsets.vmctxLastWasmEntryFp]

/-- The bookkeeping words are what they were before the call, and so are all words where no emitted code
has stored. -/
def Restored (r : CallRecord) (words : Words) : Prop :=
  ∀ a, a ∈ r.bookkeeping ∨ a ∉ r.stored → words a = r.before a

def store (address : ℕ) (r : CallRecord) : CallRecord := { r with stored := address :: r.stored }

end CallRecord

namespace HostEvent

/-- The records of the calls that have not ended after an event. -/
def records (event : HostEvent) (words : Words) (records : List CallRecord) : List CallRecord :=
  match event with
  | .call _ _ vmctx offsets => ⟨vmctx, offsets, words, []⟩ :: records
  | .store address _ => records.map (CallRecord.store address)
  | _ => records.tail

/-- What an event does to the words: the host writes only bookkeeping words of the call, and the end of a
call restores them. -/
def Keeps (records : List CallRecord) (words words' : Words) : HostEvent → Prop
  | .call _ _ vmctx offsets => ∀ a ≠ vmctx + offsets.vmctxStackLimit, words' a = words a
  | .store address value => words' = Function.update words address value
  | _ => ∃ r, records.head? = some r ∧ r.Restored words' ∧ ∀ a ∉ r.bookkeeping, words' a = words a

/-- A call has room on the stack and a state in a frame of its own, and only what is live can end. -/
def Possible (live : List ℕ) : HostEvent → Prop
  | .call stackPointer address _ _ => MAX_WASM_STACK ≤ stackPointer ∧ address ≠ 0 ∧ address ∉ live
  | .store _ _ => True
  | _ => live ≠ []

/-- The states that are live after an event. -/
def liveAfter (event : HostEvent) (live : List ℕ) : List ℕ :=
  match event with
  | .call _ address _ _ => address :: live
  | .store _ _ => live
  | _ => live.tail

end HostEvent

/-! ## The end of a call -/

namespace CallStack

variable {s : CallStack} {p : ℕ} {live : List ℕ} {state : CallThreadState}

/-- The thread after the end of the call with the given state. -/
def ended (s : CallStack) (p : ℕ) (state : CallThreadState) : Thread :=
  ⟨some state.prev, Function.update s.thread.states p none, state.drop s.thread.words⟩

theorem Inv.ended (h : s.Inv) (hl : s.live = p :: live) (hs : s.thread.states p = some state)
    (r : Option (Except TrapReason Unit)) : Inv ⟨s.ended p state, live, r⟩ := by
  obtain ⟨thread, hthread, -, hinv⟩ := h.leave hl hs (.inl ⟨rfl, rfl⟩)
  rw [Thread.leave_eq hs (h.innermost hl).1 (.inl ⟨rfl, rfl⟩)] at hthread
  obtain ⟨-, rfl⟩ := Prod.mk.inj (Except.ok.inj hthread)
  exact hinv r

theorem Inv.step_ret (h : s.Inv) (hl : s.live = p :: live) (hs : s.thread.states p = some state) :
    s.step .ret = .ok ⟨s.ended p state, live, some (.ok ())⟩ := by
  have hleave := Thread.leave_eq hs (h.innermost hl).1 (.inl ⟨rfl, rfl⟩)
  simp only [CallStack.step, hl, hleave, bind, Except.bind, pure, Except.pure]
  rfl

theorem Inv.unwound (h : s.Inv) (hl : s.live = p :: live) (hs : s.thread.states p = some state)
    (reason : TrapReason) :
    ∃ thread, s.thread.unwindWith p reason = .ok (p, thread)
      ∧ CallStack.longjmp { s with thread } p
        = .ok ⟨s.ended p state, live, some (.error reason)⟩ := by
  refine ⟨s.thread.set p { state with unwind := some reason }, ?_, ?_⟩
  · unfold Thread.unwindWith Thread.deref
    rw [hs]
    rfl
  · have hleave := Thread.leave_eq (t := s.thread.set p { state with unwind := some reason })
      (Function.update_self ..) (h.innermost hl).1 (.inr ⟨one_ne_zero, reason, rfl, rfl⟩)
    simp only [CallStack.longjmp, hl, hleave, bind, Except.bind, pure, Except.pure]
    simp [Thread.set, CallStack.ended, CallThreadState.drop]

theorem Inv.step_raiseTrap (h : s.Inv) (hl : s.live = p :: live)
    (hs : s.thread.states p = some state) (trap : Trap) :
    s.step (.raiseTrap trap) = .ok ⟨s.ended p state, live, some (.error (.wasm trap))⟩ := by
  obtain ⟨thread, hthread, hjump⟩ := h.unwound hl hs (.wasm trap)
  simp [CallStack.step, Thread.raiseTrap, (h.innermost hl).1, hthread, hjump, bind, Except.bind]

theorem Inv.step_signal (h : s.Inv) (hl : s.live = p :: live)
    (hs : s.thread.states p = some state) (pc : ℕ) (faultingAddr : Option ℕ) (trap : Trap) :
    s.step (.signal pc faultingAddr (some trap))
      = .ok ⟨s.ended p state, live, some (.error (.jit pc faultingAddr trap))⟩ := by
  obtain ⟨thread, hthread, hjump⟩ := h.unwound hl hs (.jit pc faultingAddr trap)
  simp [CallStack.step, Thread.trapHandler, Thread.deref, (h.innermost hl).1, hs, hthread, hjump, bind,
    Except.bind, Functor.map, Except.map]

end CallStack

/-! ## What is saved -/

namespace CallRecord

variable {r : CallRecord} {state : CallThreadState} {words : Words} {a : ℕ}

/-- A state has the words that it found in the vmctx, where only the stack limit had changed. -/
def Saved (r : CallRecord) (state : CallThreadState) : Prop :=
  ∃ words, (∀ a ≠ r.stackLimitPtr, words a = r.before a)
    ∧ ∃ unwind prev, state = { CallThreadState.new words r.vmctx r.offsets with unwind, prev }

theorem Saved.drop_apply (h : r.Saved state) (words : Words) (ha : a ∈ r.bookkeeping)
    (hne : a ≠ r.stackLimitPtr) : state.drop words a = r.before a := by
  obtain ⟨found, hfound, unwind, prev, rfl⟩ := h
  rw [← hfound a hne]
  simp only [bookkeeping, List.mem_cons, List.not_mem_nil, or_false] at ha
  simp only [CallThreadState.drop, CallThreadState.new, Function.update_apply]
  rcases ha with rfl | rfl | rfl | rfl
  · exact absurd rfl hne
  all_goals
    split_ifs with h₁ h₂ h₃
    all_goals simp_all

theorem Saved.drop_of_notMem (h : r.Saved state) (words : Words) (ha : a ∉ r.bookkeeping) :
    state.drop words a = words a := by
  obtain ⟨found, hfound, unwind, prev, rfl⟩ := h
  simp only [bookkeeping, List.mem_cons, List.not_mem_nil, or_false, not_or] at ha
  simp only [CallThreadState.drop, CallThreadState.new]
  rw [Function.update_of_ne ha.2.2.2, Function.update_of_ne ha.2.2.1, Function.update_of_ne ha.2.1]

end CallRecord

/-- The states and the guards of the live calls have what was there before. -/
def CallsGuarded (states : ℕ → Option CallThreadState) :
    List ℕ → List WasmExecutionGuard → List CallRecord → Prop
  | [], [], [] => True
  | p :: live, guard :: guards, r :: records =>
    guard = ⟨r.stackLimitPtr, r.before r.stackLimitPtr⟩
      ∧ (∃ state, states p = some state ∧ r.Saved state) ∧ CallsGuarded states live guards records
  | _, _, _ => False

theorem CallsGuarded.congr {states states' : ℕ → Option CallThreadState} :
    ∀ {live : List ℕ} {guards : List WasmExecutionGuard} {records : List CallRecord},
    CallsGuarded states live guards records → (∀ p ∈ live, states' p = states p) →
    CallsGuarded states' live guards records
  | [], [], [], _, _ => trivial
  | p :: _, _ :: _, _ :: _, ⟨hguard, ⟨state, hs, hsaved⟩, h⟩, hsame =>
    ⟨hguard, ⟨state, (hsame p List.mem_cons_self).trans hs, hsaved⟩,
      h.congr fun q hq => hsame q (List.mem_cons_of_mem p hq)⟩

theorem CallsGuarded.map_store {states : ℕ → Option CallThreadState} (a : ℕ) :
    ∀ {live : List ℕ} {guards : List WasmExecutionGuard} {records : List CallRecord},
    CallsGuarded states live guards records →
    CallsGuarded states live guards (records.map (CallRecord.store a))
  | [], [], [], _ => trivial
  | _ :: _, _ :: _, _ :: _, ⟨hguard, hstate, h⟩ => ⟨hguard, hstate, h.map_store a⟩

theorem CallsGuarded.length_eq {states : ℕ → Option CallThreadState} :
    ∀ {live : List ℕ} {guards : List WasmExecutionGuard} {records : List CallRecord},
    CallsGuarded states live guards records → guards.length = live.length
  | [], [], [], _ => rfl
  | _ :: _, _ :: _, _ :: _, ⟨_, _, h⟩ => congrArg Nat.succ h.length_eq

/-- Since a call began, only its bookkeeping words and those that emitted code has stored to have changed;
what was stored during a call was stored during those around it. -/
def Since : Words → List CallRecord → Prop
  | _, [] => True
  | words, r :: records =>
    (∀ a ∉ r.bookkeeping, a ∉ r.stored → words a = r.before a)
      ∧ (∀ r' ∈ records, r.stored ⊆ r'.stored) ∧ Since r.before records

section Since

variable {words words' : Words} {r : CallRecord} {records : List CallRecord}

theorem Since.map_store (a : ℕ) : ∀ {words : Words} {records : List CallRecord},
    Since words records → Since words (records.map (CallRecord.store a))
  | _, [], _ => trivial
  | _, r :: _, ⟨hsame, hsub, h⟩ => by
    refine ⟨fun b hb hstored => hsame b hb fun hmem => ?_, fun r' hr' => ?_, h.map_store a⟩
    · exact hstored (List.mem_cons_of_mem a hmem)
    · obtain ⟨r'', hr'', rfl⟩ := List.mem_map.1 hr'
      exact List.cons_subset_cons a (hsub r'' hr'')

/-- Only the innermost call notes the words as they are now. -/
theorem Since.change (h : Since words records) (hsame : ∀ r, records.head? = some r →
    ∀ a ∉ r.bookkeeping, a ∉ r.stored → words' a = words a) : Since words' records := by
  cases records with
  | nil => trivial
  | cons r records =>
    exact ⟨fun a ha hstored => (hsame r rfl a ha hstored).trans (h.1 a ha hstored), h.2⟩

theorem Since.store (h : Since words records) (a v : ℕ) :
    Since (Function.update words a v) (records.map (CallRecord.store a)) := by
  refine (h.map_store a).change fun r hr b _ hstored => Function.update_of_ne ?_ ..
  rw [List.head?_map, Option.map_eq_some_iff] at hr
  obtain ⟨r', -, rfl⟩ := hr
  exact fun hb => hstored (hb ▸ List.mem_cons_self)

/-- The end of a call leaves to the calls around it what was stored since it began. -/
theorem Since.leave (h : Since words (r :: records)) (hr : r.Restored words') :
    Since words' records := by
  refine h.2.2.change fun r' hr' a _ hstored => hr a (.inr fun hmem => hstored ?_)
  exact h.2.1 r' (List.mem_of_mem_head? hr') hmem

end Since

/-! ## Steps -/

namespace HostStack

/-- Each live call has its state, its guard and its record. -/
structure Inv (s : HostStack) (records : List CallRecord) : Prop where
  stack : s.stack.Inv
  guarded : CallsGuarded s.stack.thread.states s.stack.live s.guards records
  since : Since s.words records

variable {s : HostStack} {records : List CallRecord}

theorem inv_start (words : Words) : (start words).Inv [] :=
  ⟨CallStack.inv_start words, trivial, trivial⟩

theorem Inv.call (h : s.Inv records) {stackPointer address : ℕ}
    (hstack : MAX_WASM_STACK ≤ stackPointer) (h0 : address ≠ 0) (hfresh : address ∉ s.stack.live)
    (vmctx : ℕ) (offsets : StaticVMOffsets) :
    ∃ s', s.step (.call stackPointer address vmctx offsets) = .ok s'
      ∧ s'.Inv (⟨vmctx, offsets, s.words, []⟩ :: records) ∧ s'.stack.live = address :: s.stack.live
      ∧ ∀ a ≠ vmctx + offsets.vmctxStackLimit, s'.words a = s.words a := by
  let words :=
    Function.update s.words (vmctx + offsets.vmctxStackLimit) (stackPointer - MAX_WASM_STACK)
  have hsame : ∀ a ≠ vmctx + offsets.vmctxStackLimit, words a = s.words a :=
    fun a ha => Function.update_of_ne ha ..
  have hinv : CallStack.Inv { s.stack with thread.words := words } := ⟨h.stack.chain, h.stack.nodup⟩
  obtain ⟨thread, hthread, -, hinv'⟩ := hinv.enter h0 hfresh vmctx offsets
  have heq := hthread
  rw [Thread.enter_eq] at heq
  obtain rfl := Except.ok.inj heq
  have hlimit : checkedSub stackPointer MAX_WASM_STACK = .ok (stackPointer - MAX_WASM_STACK) :=
    checkedSub_eq_ok.2 ⟨hstack, rfl⟩
  refine ⟨⟨_, ⟨vmctx + offsets.vmctxStackLimit, s.words (vmctx + offsets.vmctxStackLimit)⟩ :: s.guards⟩,
    ?_, ⟨hinv', ⟨rfl, ⟨_, Function.update_self .., ?_⟩, ?_⟩, ?_⟩, rfl, hsame⟩
  · simp only [step, enterWasm, CallStack.step, hlimit, bind, Except.bind, pure, Except.pure]
    rw [hthread]
  · exact ⟨words, hsame, none, _, rfl⟩
  · refine h.guarded.congr fun q hq => Function.update_of_ne ?_ ..
    exact fun heq => hfresh (heq ▸ hq)
  · refine ⟨fun a ha _ => hsame a ?_, fun r' _ => List.nil_subset _, h.since⟩
    exact fun heq => ha (heq ▸ List.mem_cons_self)

/-- The end of the innermost call: its state is dropped, and then its guard. -/
theorem Inv.leave (h : s.Inv records) (hne : s.stack.live ≠ []) :
    ∃ p live state r, s.stack.live = p :: live ∧ s.stack.thread.states p = some state
      ∧ records.head? = some r ∧ ∀ result, ∃ s', s.leave ⟨s.stack.ended p state, live, result⟩ = .ok s'
        ∧ s'.Inv records.tail ∧ s'.stack.live = s.stack.live.tail ∧ r.Restored s'.words
        ∧ ∀ a ∉ r.bookkeeping, s'.words a = s.words a := by
  obtain ⟨p, live, hl⟩ := List.exists_cons_of_ne_nil hne
  have hguarded := h.guarded
  have hsince := h.since
  rw [hl] at hguarded
  rcases hg : s.guards with _ | ⟨guard, guards⟩
  · rw [hg] at hguarded
    exact False.elim hguarded
  rw [hg] at hguarded
  rcases records with _ | ⟨r, records⟩
  · exact False.elim hguarded
  obtain ⟨rfl, ⟨state, hs, hsaved⟩, hrest⟩ := hguarded
  have hnodup := h.stack.nodup
  rw [hl, List.nodup_cons] at hnodup
  -- the words after the end
  let words := Function.update (state.drop s.words) r.stackLimitPtr (r.before r.stackLimitPtr)
  have hsame : ∀ a ∉ r.bookkeeping, words a = s.words a := fun a ha =>
    (Function.update_of_ne (List.ne_of_not_mem_cons ha) ..).trans (hsaved.drop_of_notMem s.words ha)
  have hrestored : r.Restored words := by
    intro a ha
    by_cases hmem : a ∈ r.bookkeeping
    · by_cases hlimit : a = r.stackLimitPtr
      · rw [hlimit]
        exact Function.update_self ..
      · exact (Function.update_of_ne hlimit ..).trans (hsaved.drop_apply s.words hmem hlimit)
    · rw [hsame a hmem]
      exact hsince.1 a hmem (ha.resolve_left hmem)
  refine ⟨p, live, state, r, hl, hs, rfl, fun result => ?_⟩
  refine ⟨⟨⟨{ s.stack.ended p state with words }, live, result⟩, guards⟩, ?_, ⟨?_, ?_, ?_⟩,
    (congrArg List.tail hl).symm, hrestored, hsame⟩
  · have hdrop : (⟨r.stackLimitPtr, r.before r.stackLimitPtr⟩ :: guards).drop
        ((⟨r.stackLimitPtr, r.before r.stackLimitPtr⟩ :: guards).length - live.length - 1)
        = ⟨r.stackLimitPtr, r.before r.stackLimitPtr⟩ :: guards := by
      rw [List.length_cons, hrest.length_eq, Nat.add_sub_cancel_left, Nat.sub_self, List.drop_zero]
    unfold HostStack.leave
    rw [hg, hdrop]
    rfl
  · have hended := h.stack.ended hl hs result
    exact ⟨hended.chain, hended.nodup⟩
  · refine hrest.congr fun q hq => Function.update_of_ne ?_ ..
    exact fun heq => hnodup.1 (heq ▸ hq)
  · exact hsince.leave hrestored

theorem Inv.store (h : s.Inv records) (address value : ℕ) :
    ∃ s', s.step (.store address value) = .ok s'
      ∧ s'.Inv (records.map (CallRecord.store address)) ∧ s'.stack.live = s.stack.live
      ∧ s'.words = Function.update s.words address value :=
  ⟨⟨{ s.stack with thread.words := Function.update s.words address value }, s.guards⟩, rfl,
    ⟨⟨h.stack.chain, h.stack.nodup⟩, h.guarded.map_store address, h.since.store address value⟩, rfl, rfl⟩

/-- Every event that is possible can happen, and keeps the words. -/
theorem Inv.step (h : s.Inv records) {event : HostEvent} (hp : event.Possible s.stack.live) :
    ∃ s', s.step event = .ok s' ∧ s'.Inv (event.records s.words records)
      ∧ s'.stack.live = event.liveAfter s.stack.live ∧ event.Keeps records s.words s'.words := by
  cases event with
  | call stackPointer address vmctx offsets => exact h.call hp.1 hp.2.1 hp.2.2 vmctx offsets
  | store address value => exact h.store address value
  | ret =>
    obtain ⟨p, live, state, r, hl, hs, hr, hleave⟩ := h.leave hp
    obtain ⟨s', hs', hinv, hlive, hrestored, hsame⟩ := hleave (some (.ok ()))
    have hstep := h.stack.step_ret hl hs
    refine ⟨s', ?_, hinv, hlive, r, hr, hrestored, hsame⟩
    simp only [HostStack.step, hstep, hs', bind, Except.bind]
  | raiseTrap trap =>
    obtain ⟨p, live, state, r, hl, hs, hr, hleave⟩ := h.leave hp
    obtain ⟨s', hs', hinv, hlive, hrestored, hsame⟩ := hleave (some (.error (.wasm trap)))
    have hstep := h.stack.step_raiseTrap hl hs trap
    refine ⟨s', ?_, hinv, hlive, r, hr, hrestored, hsame⟩
    simp only [HostStack.step, hstep, hs', bind, Except.bind]
  | signal pc faultingAddr trap =>
    obtain ⟨p, live, state, r, hl, hs, hr, hleave⟩ := h.leave hp
    obtain ⟨s', hs', hinv, hlive, hrestored, hsame⟩ :=
      hleave (some (.error (.jit pc faultingAddr trap)))
    have hstep := h.stack.step_signal hl hs pc faultingAddr trap
    refine ⟨s', ?_, hinv, hlive, r, hr, hrestored, hsame⟩
    simp only [HostStack.step, hstep, hs', bind, Except.bind]

end HostStack

/-! ## Runs -/

namespace HostStack

theorem run_append : ∀ {events events' : List HostEvent} {s s' : HostStack},
    s.run events = .ok s' → s.run (events ++ events') = s'.run events'
  | [], _, _, _, h => by
    obtain rfl := Except.ok.inj h
    rfl
  | event :: events, events', s, s', h => by
    obtain ⟨s₁, hstep, hrun⟩ := bind_eq_ok.1 h
    rw [List.cons_append, run, hstep]
    exact run_append hrun

/-- Each event of the run is possible where it happens. -/
def WellNested : List ℕ → List HostEvent → Prop
  | _, [] => True
  | live, event :: events => event.Possible live ∧ WellNested (event.liveAfter live) events

/-- The run has no fault, and each of its events keeps the words; `records` has the calls that have not
ended. -/
def KeepsWords : List CallRecord → HostStack → List HostEvent → Prop
  | _, _, [] => True
  | records, s, event :: events =>
    ∃ s', s.step event = .ok s' ∧ event.Keeps records s.words s'.words
      ∧ KeepsWords (event.records s.words records) s' events

theorem Inv.keepsWords : ∀ {events : List HostEvent} {s : HostStack} {records : List CallRecord},
    s.Inv records → WellNested s.stack.live events → KeepsWords records s events
  | [], _, _, _, _ => trivial
  | _ :: _, _, _, h, hw => by
    obtain ⟨s', hs', hinv, hlive, hkeeps⟩ := h.step hw.1
    exact ⟨s', hs', hkeeps, hinv.keepsWords (hlive ▸ hw.2)⟩

end HostStack

/-- However calls are nested, each of them that ends has put back the bookkeeping words of its vmctx, and
the host has changed no other word for it. -/
theorem calls_restore_bookkeeping (words : Words) {events : List HostEvent}
    (h : HostStack.WellNested [] events) : HostStack.KeepsWords [] (.start words) events :=
  (HostStack.inv_start words).keepsWords h

/-- A vmctx is entered again while it is active, and the inner call traps. -/
theorem calls_restore_bookkeeping_nested : HostStack.KeepsWords [] (.start fun _ => 7)
    [.call MAX_WASM_STACK 16 1000 ⟨8⟩, .store 1032 5, .call MAX_WASM_STACK 8 1000 ⟨8⟩, .store 1032 6,
      .raiseTrap .integerOverflow, .ret] := by
  refine calls_restore_bookkeeping _ ?_
  simp [HostStack.WellNested, HostEvent.Possible, HostEvent.liveAfter]

end K23VM
