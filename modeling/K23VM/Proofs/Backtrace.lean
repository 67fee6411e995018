import K23VM.Backtrace
import K23VM.Lib.MapM
import K23VM.Proofs.HostCalls

/-!
# The frames of a backtrace

The words of a vmctx are those of the last activation that was entered on it, or left through it, and the
end of a call puts back those of its own vmctx only.  A backtrace takes the words of one vmctx for both,
and each state has those of its own vmctx: `backtrace_frames_iff` says after which histories they are
those of the live activations.
-/

namespace K23VM

open Backtrace

/-! ## Stacks -/

/-- A call from the host. -/
structure WasmCall where
  /-- The stack pointer of the host code that calls, and where the state of the call lies. -/
  stackPointer : ℕ
  address : ℕ
  /-- The vmctx of the function that is called. -/
  entry : ℕ
  entryFp : ℕ
  deriving DecidableEq, Repr

/-- A call with the frames of the WebAssembly code that runs under it. -/
structure WasmActivation extends WasmCall where
  innermost : Backtrace.Frame
  callers : List Backtrace.Frame

def WasmActivation.frames (a : WasmActivation) : List Backtrace.Frame := a.innermost :: a.callers

/-- The frames from one on, up to the trampoline: each has the frame pointer and the program counter of
its caller. -/
def Linked (stack : Words) (trampolineFp : ℕ) : ℕ → ℕ → List Backtrace.Frame → Prop
  | _, fp, [] => fp = trampolineFp
  | pc, fp, frame :: callers =>
    frame = ⟨pc, fp⟩ ∧ pc ≠ 0 ∧ fp % 16 = 0 ∧ fp < stack fp
      ∧ Linked stack trampolineFp (stack (fp + 8)) (stack fp) callers

/-- An activation lies on the stack, below its trampoline. -/
structure WasmActivation.OnStack (stack : Words) (a : WasmActivation) : Prop where
  innermost : a.innermost.fp ≠ 0
  linked : Linked stack a.entryFp a.innermost.pc a.innermost.fp a.frames

/-- Activations, the newest first, lie on the stack, which grows down. -/
def OnStack (stack : Words) : List WasmActivation → Prop
  | [] => True
  | a :: older =>
    a.OnStack stack ∧ (∀ e ∈ older, a.entryFp < e.innermost.fp) ∧ OnStack stack older

/-! ### Histories -/

/-- What happens on a thread. -/
inductive WasmEvent where
  | enter (call : WasmCall)
  /-- The innermost call leaves WebAssembly code through a trampoline, with the words of the stack at that
  time. -/
  | leave (stack : Words) (trampolineFp vmctx : ℕ)
  /-- The innermost call returns. -/
  | ret
  | raiseTrap (trap : Trap)
  | signal (pc : ℕ) (faultingAddr : Option ℕ) (trap : Trap)

namespace WasmEvent

/-- What the host and the trampolines do. -/
def hostEvents : WasmEvent → List HostEvent
  | .enter call =>
    [.call call.stackPointer call.address call.entry ⟨8⟩,
      .store (call.entry + (⟨8⟩ : StaticVMOffsets).vmctxLastWasmEntryFp) call.entryFp]
  | .leave stack trampolineFp vmctx => saveLastWasmExitFpAndPc stack trampolineFp vmctx
  | .ret => [.ret]
  | .raiseTrap trap => [.raiseTrap trap]
  | .signal pc faultingAddr trap => [.signal pc faultingAddr trap]

/-- The vmctx that an event names. -/
def vmctxs : WasmEvent → List ℕ
  | .enter call => [call.entry]
  | .leave _ _ vmctx => [vmctx]
  | _ => []

/-- The calls that are live after an event. -/
def liveAfter (event : WasmEvent) (live : List WasmCall) : List WasmCall :=
  match event with
  | .enter call => call :: live
  | .leave _ _ _ => live
  | _ => live.tail

/-- A call has room on the stack and a state in a frame of its own, and only what is live can end. -/
def Possible (live : List WasmCall) : WasmEvent → Prop
  | .enter call =>
    MAX_WASM_STACK ≤ call.stackPointer ∧ call.address ≠ 0 ∧ call.address ∉ live.map WasmCall.address
  | .leave _ _ _ => True
  | _ => live ≠ []

end WasmEvent

/-- Each event of a history is possible where it happens; at its end the given calls are live. -/
def History : List WasmCall → List WasmEvent → List WasmCall → Prop
  | live, [], live' => live' = live
  | live, event :: events, live' => event.Possible live ∧ History (event.liveAfter live) events live'

/-- Two vmctxs do not overlap. -/
def Apart (v w : ℕ) : Prop :=
  v = w ∨ v + (⟨8⟩ : StaticVMOffsets).size ≤ w ∨ w + (⟨8⟩ : StaticVMOffsets).size ≤ v

/-- The words of a vmctx that an activation is given by. -/
def vmctxWords (words : Words) (v : ℕ) : ℕ × ℕ × ℕ :=
  (words (v + (⟨8⟩ : StaticVMOffsets).vmctxLastWasmExitPc),
    words (v + (⟨8⟩ : StaticVMOffsets).vmctxLastWasmExitFp),
    words (v + (⟨8⟩ : StaticVMOffsets).vmctxLastWasmEntryFp))

/-- The activations of a stack, the newest first, and what has happened before: calls that have ended as
well as those that are live.  No vmctx had been entered in the beginning. -/
structure WasmStack (stack words : Words) (history : List WasmEvent)
    (activations : List WasmActivation) : Prop where
  happened : History [] history (activations.map WasmActivation.toWasmCall)
  apart : ∀ v ∈ history.flatMap WasmEvent.vmctxs, ∀ w ∈ history.flatMap WasmEvent.vmctxs, Apart v w
  entered : ∀ v ∈ history.flatMap WasmEvent.vmctxs, (vmctxWords words v).2.2 = 0
  onStack : OnStack stack activations

/-! ## Walking frames -/

section Walk

variable {stack : Words} {trampolineFp : ℕ}

theorem Linked.le : ∀ {frames : List Backtrace.Frame} {pc fp : ℕ},
    Linked stack trampolineFp pc fp frames → fp ≤ trampolineFp
  | [], _, _, h => Nat.le_of_eq h
  | _ :: _, _, _, ⟨_, _, _, hlt, h⟩ => hlt.le.trans h.le

theorem Linked.le_fp : ∀ {frames : List Backtrace.Frame} {pc fp : ℕ},
    Linked stack trampolineFp pc fp frames → ∀ frame ∈ frames, fp ≤ frame.fp
  | [], _, _, _ => fun _ hmem => absurd hmem List.not_mem_nil
  | _ :: _, _, _, ⟨hframe, _, _, hlt, h⟩ => by
    intro frame hmem
    rcases List.mem_cons.1 hmem with rfl | hmem
    · exact hframe ▸ le_rfl
    · exact hlt.le.trans (h.le_fp frame hmem)

/-- The frames up to a trampoline are listed, and those after it too where the walk goes on. -/
theorem traceFrames_linked {stop : ℕ} : ∀ {frames : List Backtrace.Frame} {pc fp : ℕ},
    Linked stack trampolineFp pc fp frames → trampolineFp ≤ stop →
    ∃ pc', traceFrames stack pc fp stop
      = (traceFrames stack pc' trampolineFp stop).map (frames ++ ·)
  | [], pc, fp, h, _ => by
    obtain rfl : fp = trampolineFp := h
    refine ⟨pc, ?_⟩
    cases traceFrames stack pc fp stop <;> rfl
  | frame :: callers, pc, fp, ⟨hframe, _, haligned, hlt, h⟩, hle => by
    subst hframe
    have hstop : fp < stop := hlt.trans_le (h.le.trans hle)
    obtain ⟨pc', ih⟩ := traceFrames_linked h hle
    refine ⟨pc', ?_⟩
    rw [traceFrames, if_neg hstop.ne, dif_pos hstop, if_pos haligned, dif_pos hlt, ih]
    cases traceFrames stack pc' trampolineFp stop <;> rfl

theorem traceFrames_self (pc fp : ℕ) : traceFrames stack pc fp fp = .ok [] := by
  rw [traceFrames, if_pos rfl]
  rfl

/-- The frame from which a walk goes on is listed. -/
theorem traceFrames_head {pc fp stop : ℕ} {frames : List Backtrace.Frame} (hne : fp ≠ stop)
    (h : traceFrames stack pc fp stop = .ok frames) : ∃ rest, frames = ⟨pc, fp⟩ :: rest := by
  rw [traceFrames, if_neg hne] at h
  split_ifs at h
  obtain ⟨rest, -, h⟩ := bind_eq_ok.1 h
  exact ⟨rest, (Except.ok.inj h).symm⟩

end Walk

/-! ## Walking activations -/

theorem WasmActivation.OnStack.innermost_lt {stack : Words} {a : WasmActivation}
    (h : a.OnStack stack) : a.innermost.fp < a.entryFp :=
  h.linked.2.2.2.1.trans_le h.linked.2.2.2.2.le

theorem OnStack.of_mem {stack : Words} : ∀ {activations : List WasmActivation},
    OnStack stack activations → ∀ a ∈ activations, a.OnStack stack
  | _ :: _, ⟨ha, _, h⟩, e, he => by
    rcases List.mem_cons.1 he with rfl | he
    · exact ha
    · exact h.of_mem e he

theorem map_append_eq_ok {α : Type} {x : Except Fault (List α)} {l m : List α} :
    x.map (l ++ ·) = .ok (l ++ m) ↔ x = .ok m := by
  cases x <;> simp [Except.map]

section Activations

variable {debug : Bool} {stack : Words} {a : WasmActivation}

/-- An activation is walked from where it was left up to the trampoline that entered it. -/
theorem traceThroughWasm_eq (h : a.OnStack stack) {stop : ℕ} (hle : a.entryFp ≤ stop) :
    ∃ pc, traceThroughWasm stack a.innermost.pc a.innermost.fp stop
      = (traceFrames stack pc a.entryFp stop).map (a.frames ++ ·) := by
  obtain ⟨pc, hpc⟩ := traceFrames_linked h.linked hle
  have hstop : stop ≠ 0 := by
    have := h.innermost_lt
    omega
  refine ⟨pc, ?_⟩
  rw [← hpc, traceThroughWasm]
  simp [h.linked.2.1, h.innermost, hstop, assertThat, bind, Except.bind]

theorem traceActivations_cons (h : a.OnStack stack) (activations : List (ℕ × ℕ × ℕ)) :
    traceActivations debug stack
        ((a.innermost.pc, a.innermost.fp, a.entryFp) :: activations)
      = (traceActivations debug stack activations).map (a.frames ++ ·) := by
  obtain ⟨pc, hpc⟩ := traceThroughWasm_eq h le_rfl
  rw [traceFrames_self] at hpc
  rw [traceActivations, if_neg h.linked.2.1, hpc]
  simp only [Except.map, List.append_nil, bind, Except.bind]
  cases traceActivations debug stack activations <;> rfl

/-- A walk has no end where no activation was entered. -/
theorem traceThroughWasm_zero (pc fp : ℕ) (frames : List Backtrace.Frame) :
    traceThroughWasm stack pc fp 0 ≠ .ok frames := by
  intro h
  obtain ⟨_, -, h⟩ := bind_eq_ok.1 h
  obtain ⟨_, -, h⟩ := bind_eq_ok.1 h
  obtain ⟨_, h, -⟩ := bind_eq_ok.1 h
  cases h

/-- The frames of an activation are not listed, unless a walk begins at its innermost frame and ends at its
trampoline. -/
theorem traceActivations_ne (h : a.OnStack stack) {above : List Backtrace.Frame}
    (habove : ∀ frame ∈ above, a.entryFp < frame.fp) : ∀ {activations : List (ℕ × ℕ × ℕ)},
    (∀ t ∈ activations, (⟨t.1, t.2.1⟩ : Backtrace.Frame) ≠ a.innermost ∨ t.2.2 = 0
      ∨ a.entryFp < t.2.2) →
    traceActivations debug stack activations ≠ .ok (a.frames ++ above)
  | [], _ => nofun
  | (pc, fp, sp) :: activations, hwrong => by
    obtain ⟨hfirst, hrest⟩ := List.forall_mem_cons.1 hwrong
    intro hok
    by_cases hpc : pc = 0
    · rw [traceActivations, if_pos hpc] at hok
      obtain ⟨_, -, hok⟩ := bind_eq_ok.1 hok
      obtain ⟨_, -, hok⟩ := bind_eq_ok.1 hok
      cases hok
    rw [traceActivations, if_neg hpc] at hok
    obtain ⟨listed, hlisted, hok⟩ := bind_eq_ok.1 hok
    obtain ⟨rest, hrest', hok⟩ := bind_eq_ok.1 hok
    have heq := Except.ok.inj hok
    have hframes : traceFrames stack pc fp sp = .ok listed := by
      obtain ⟨_, -, hlisted⟩ := bind_eq_ok.1 hlisted
      obtain ⟨_, -, hlisted⟩ := bind_eq_ok.1 hlisted
      obtain ⟨_, -, hlisted⟩ := bind_eq_ok.1 hlisted
      exact hlisted
    rcases listed with _ | ⟨frame, listed⟩
    · -- the walk is at its end
      exact traceActivations_ne h habove hrest (hrest'.trans (congrArg _ heq))
    have hne : fp ≠ sp := by
      rintro rfl
      rw [traceFrames_self] at hframes
      cases hframes
    obtain ⟨_, hhead⟩ := traceFrames_head hne hframes
    obtain ⟨rfl, -⟩ := List.cons.inj hhead
    have hinnermost : (⟨pc, fp⟩ : Backtrace.Frame) = a.innermost := (List.cons.inj heq).1
    rcases hfirst.resolve_left (not_not.2 hinnermost) with hzero | hlt
    · dsimp only at hzero
      subst hzero
      exact traceThroughWasm_zero _ _ _ hlisted
    -- the walk goes on beyond the trampoline
    obtain ⟨pc', hpc'⟩ := traceThroughWasm_eq h hlt.le
    rw [← hinnermost] at hpc'
    dsimp only at hpc' hlt
    rw [hpc'] at hlisted
    obtain ⟨beyond, hbeyond, hlisted⟩ := map_eq_ok.1 hlisted
    obtain ⟨tail, rfl⟩ := traceFrames_head hlt.ne hbeyond
    rw [← hlisted, List.append_assoc, List.append_cancel_left_eq] at heq
    have hmem : ⟨pc', a.entryFp⟩ ∈ above := heq ▸ List.mem_cons_self
    exact (habove _ hmem).false

/-- Nothing is listed where no activation has been left. -/
theorem traceActivations_null_iff (pc fp : ℕ) :
    traceActivations debug stack [(pc, fp, 0)] = .ok [] ↔ pc = 0 ∧ (debug = true → fp = 0) := by
  by_cases hpc : pc = 0
  · rw [traceActivations, if_pos hpc, and_iff_right hpc]
    by_cases hfp : debug = true → fp = 0
    · have hassert : debugAssert debug (decide (fp = 0)) "assertion `left == right` failed" = .ok () :=
        debugAssert_eq_ok.2 fun hdebug => decide_eq_true (hfp hdebug)
      rw [hassert]
      exact iff_of_true (by simp [bind, Except.bind, pure, Except.pure]) hfp
    · refine iff_of_false (fun h => ?_) hfp
      obtain ⟨_, hassert, -⟩ := bind_eq_ok.1 h
      exact hfp fun hdebug => of_decide_eq_true (debugAssert_eq_ok.1 hassert hdebug)
  · refine iff_of_false (fun h => ?_) fun h => hpc h.1
    rw [traceActivations, if_neg hpc] at h
    obtain ⟨_, h, -⟩ := bind_eq_ok.1 h
    exact traceThroughWasm_zero _ _ _ h

end Activations

/-! ## What is noted -/

/-- The frame pointer of the trampoline that has last entered a vmctx, of those of the live calls. -/
def lastEntryFp (v : ℕ) : List WasmCall → ℕ
  | [] => 0
  | call :: live => if call.entry = v then call.entryFp else lastEntryFp v live

/-- Where activations have left WebAssembly code, as it is noted in each vmctx, and the live calls, the
newest first, with what was noted in their vmctxs just before them. -/
structure Noted where
  exits : ℕ → ℕ × ℕ
  live : List (WasmCall × ℕ × ℕ)

namespace Noted

def start (words : Words) : Noted :=
  ⟨fun v => ((vmctxWords words v).1, (vmctxWords words v).2.1), []⟩

def calls (n : Noted) : List WasmCall := n.live.map Prod.fst

/-- The end of a call puts back what was noted in its vmctx. -/
def ended (n : Noted) : Noted :=
  match n.live with
  | [] => n
  | (call, exit) :: live => ⟨Function.update n.exits call.entry exit, live⟩

def step (n : Noted) : WasmEvent → Noted
  | .enter call => { n with live := (call, n.exits call.entry) :: n.live }
  | .leave stack trampolineFp vmctx =>
    { n with exits := Function.update n.exits vmctx (stack (trampolineFp + 8), stack trampolineFp) }
  | _ => n.ended

def run (n : Noted) (events : List WasmEvent) : Noted := events.foldl step n

/-- The words of a vmctx. -/
def words (n : Noted) (v : ℕ) : ℕ × ℕ × ℕ := ((n.exits v).1, (n.exits v).2, lastEntryFp v n.calls)

/-- What the states of live calls have. -/
def saved : List (WasmCall × ℕ × ℕ) → List (ℕ × ℕ × ℕ)
  | [] => []
  | (call, pc, fp) :: live => (pc, fp, lastEntryFp call.entry (live.map Prod.fst)) :: saved live

theorem calls_step (n : Noted) (event : WasmEvent) :
    (n.step event).calls = event.liveAfter n.calls := by
  obtain ⟨exits, live⟩ := n
  cases event with
  | enter call => rfl
  | leave stack trampolineFp vmctx => rfl
  | ret | raiseTrap | signal => cases live <;> rfl

theorem calls_run : ∀ {events : List WasmEvent} {n : Noted} {live : List WasmCall},
    History n.calls events live → (n.run events).calls = live
  | [], _, _, h => Eq.symm h
  | event :: _, n, _, ⟨_, h⟩ => calls_run (n := n.step event) ((n.calls_step event).symm ▸ h)

end Noted

/-- What was noted just before the live calls is where the activations below them were left, each of them
on one vmctx, and nothing was noted before the oldest one. -/
def SavedExits (debug : Bool) (v : ℕ) : List (ℕ × ℕ) → List WasmActivation → Prop
  | [(pc, fp)], [] => pc = 0 ∧ (debug = true → fp = 0)
  | (pc, fp) :: exits, a :: older =>
    a.entry = v ∧ (⟨pc, fp⟩ : Backtrace.Frame) = a.innermost ∧ SavedExits debug v exits older
  | _, _ => False

section Saved

variable {stack : Words} {b v : ℕ}

theorem lastEntryFp_lt : ∀ {live : List WasmCall}, (∀ call ∈ live, b < call.entryFp) →
    lastEntryFp v live = 0 ∨ b < lastEntryFp v live
  | [], _ => .inl rfl
  | call :: live, h => by
    obtain ⟨hcall, hlive⟩ := List.forall_mem_cons.1 h
    by_cases hentry : call.entry = v
    · rw [lastEntryFp, if_pos hentry]
      exact .inr hcall
    · rw [lastEntryFp, if_neg hentry]
      exact lastEntryFp_lt hlive

theorem Noted.saved_lt : ∀ {live : List (WasmCall × ℕ × ℕ)},
    (∀ call ∈ live.tail.map Prod.fst, b < call.entryFp) →
    ∀ t ∈ saved live, t.2.2 = 0 ∨ b < t.2.2
  | [], _, _, ht => absurd ht List.not_mem_nil
  | (call, pc, fp) :: live, h, t, ht => by
    rcases List.mem_cons.1 ht with rfl | ht
    · exact lastEntryFp_lt h
    · refine Noted.saved_lt (fun call hcall => h call ?_) t ht
      obtain ⟨e, he, rfl⟩ := List.mem_map.1 hcall
      exact List.mem_map_of_mem (List.mem_of_mem_tail he)

theorem OnStack.entryFp_lt {a : WasmActivation} {older : List WasmActivation}
    (h : OnStack stack (a :: older)) :
    ∀ call ∈ older.map WasmActivation.toWasmCall, a.entryFp < call.entryFp := by
  intro call hcall
  obtain ⟨e, he, rfl⟩ := List.mem_map.1 hcall
  exact (h.2.1 e he).trans (h.2.2.of_mem e he).innermost_lt

theorem OnStack.frames_lt {a : WasmActivation} {older : List WasmActivation}
    (h : OnStack stack (a :: older)) :
    ∀ frame ∈ older.flatMap WasmActivation.frames, a.entryFp < frame.fp := by
  intro frame hmem
  obtain ⟨e, he, hframe⟩ := List.mem_flatMap.1 hmem
  exact (h.2.1 e he).trans_le ((h.2.2.of_mem e he).linked.le_fp frame hframe)

/-- The states have the older activations where each of them was left as it is noted. -/
theorem traceActivations_saved_iff (debug : Bool) : ∀ {older : List WasmActivation} {call : WasmCall}
    {exit : ℕ × ℕ} {live : List (WasmCall × ℕ × ℕ)}, OnStack stack older →
    live.map Prod.fst = older.map WasmActivation.toWasmCall →
    (traceActivations debug stack (Noted.saved ((call, exit) :: live))
        = .ok (older.flatMap WasmActivation.frames)
      ↔ SavedExits debug call.entry (exit :: live.map Prod.snd) older)
  | [], call, (pc, fp), [], _, _ => traceActivations_null_iff pc fp
  | a :: older, call, (pc, fp), (call', exit') :: live, h, hlive => by
    obtain ⟨rfl, hlive'⟩ := List.cons.inj hlive
    have hsaved : Noted.saved ((call, pc, fp) :: (a.toWasmCall, exit') :: live)
        = (pc, fp, lastEntryFp call.entry (a.toWasmCall :: live.map Prod.fst))
          :: Noted.saved ((a.toWasmCall, exit') :: live) := rfl
    have hlast := lastEntryFp_lt (v := call.entry) (hlive' ▸ h.entryFp_lt)
    rw [hsaved, List.flatMap_cons, List.map_cons, SavedExits]
    by_cases hright : a.entry = call.entry ∧ (⟨pc, fp⟩ : Backtrace.Frame) = a.innermost
    · obtain ⟨hentry, hexit⟩ := hright
      obtain ⟨rfl, rfl⟩ := Backtrace.Frame.mk.inj hexit
      rw [lastEntryFp, if_pos hentry, traceActivations_cons h.1, map_append_eq_ok,
        traceActivations_saved_iff debug h.2.2 hlive', hentry]
      exact ⟨fun hrest => ⟨rfl, rfl, hrest⟩, fun hsame => hsame.2.2⟩
    · -- no walk begins at the innermost frame and ends at the trampoline
      refine iff_of_false (traceActivations_ne h.1 h.frames_lt ?_) fun hsame => hright ⟨hsame.1, hsame.2.1⟩
      refine List.forall_mem_cons.2 ⟨?_, fun t ht => .inr (Noted.saved_lt (hlive' ▸ h.entryFp_lt) t ht)⟩
      by_cases hentry : a.entry = call.entry
      · exact .inl fun hexit => hright ⟨hentry, hexit⟩
      · rw [lastEntryFp, if_neg hentry]
        exact .inr hlast

end Saved

/-! ## What calls leave in memory -/

section Words

variable {words words' : Words} {v w : ℕ}

theorem Apart.add_eq_iff (h : Apart v w) {o o' : ℕ} (ho : o < (⟨8⟩ : StaticVMOffsets).size)
    (ho' : o' < (⟨8⟩ : StaticVMOffsets).size) : v + o = w + o' ↔ w = v ∧ o = o' := by
  unfold Apart at h
  omega

theorem vmctxWords_update (h : Apart v w) {o : ℕ} (ho : o < (⟨8⟩ : StaticVMOffsets).size) (x : ℕ) :
    vmctxWords (Function.update words (w + o) x) v
      = (if w = v ∧ (⟨8⟩ : StaticVMOffsets).vmctxLastWasmExitPc = o then x else (vmctxWords words v).1,
        if w = v ∧ (⟨8⟩ : StaticVMOffsets).vmctxLastWasmExitFp = o then x
          else (vmctxWords words v).2.1,
        if w = v ∧ (⟨8⟩ : StaticVMOffsets).vmctxLastWasmEntryFp = o then x
          else (vmctxWords words v).2.2) := by
  have hpc := h.add_eq_iff (o := (⟨8⟩ : StaticVMOffsets).vmctxLastWasmExitPc) (by decide) ho
  have hfp := h.add_eq_iff (o := (⟨8⟩ : StaticVMOffsets).vmctxLastWasmExitFp) (by decide) ho
  have hsp := h.add_eq_iff (o := (⟨8⟩ : StaticVMOffsets).vmctxLastWasmEntryFp) (by decide) ho
  simp only [vmctxWords, Function.update_apply, hpc, hfp, hsp]

theorem vmctxWords_congr (h : Apart v w) (hsame : ∀ a ≠ w + (⟨8⟩ : StaticVMOffsets).vmctxStackLimit,
    words' a = words a) : vmctxWords words' v = vmctxWords words v := by
  have hne : ∀ o < (⟨8⟩ : StaticVMOffsets).size, o ≠ (⟨8⟩ : StaticVMOffsets).vmctxStackLimit →
      words' (v + o) = words (v + o) := by
    refine fun o ho hne => hsame _ fun heq => hne ?_
    exact ((h.add_eq_iff ho (by decide)).1 heq).2
  unfold vmctxWords
  rw [hne _ (by decide) (by decide), hne _ (by decide) (by decide), hne _ (by decide) (by decide)]

end Words

/-- The records of the calls have the words of their vmctxs just before them. -/
def Recorded : List (WasmCall × ℕ × ℕ) → List CallRecord → Prop
  | [], [] => True
  | (call, pc, fp) :: live, r :: records =>
    r.vmctx = call.entry ∧ r.offsets = ⟨8⟩
      ∧ vmctxWords r.before r.vmctx = (pc, fp, lastEntryFp call.entry (live.map Prod.fst))
      ∧ Recorded live records
  | _, _ => False

theorem Recorded.map_store (a : ℕ) : ∀ {live : List (WasmCall × ℕ × ℕ)} {records : List CallRecord},
    Recorded live records → Recorded live (records.map (CallRecord.store a))
  | [], [], _ => trivial
  | (_, _, _) :: _, _ :: _, ⟨hvmctx, hoffsets, hbefore, h⟩ => ⟨hvmctx, hoffsets, hbefore, h.map_store a⟩

/-- A state has the words of its vmctx just before the call. -/
theorem oldActivation_eq {r : CallRecord} {state : CallThreadState} (h : r.Saved state)
    (hoffsets : r.offsets = ⟨8⟩) :
    state.vmctx = r.vmctx ∧ state.offsets = ⟨8⟩
      ∧ oldActivation state = vmctxWords r.before r.vmctx := by
  obtain ⟨words, hwords, unwind, prev, rfl⟩ := h
  have hsame := vmctxWords_congr (v := r.vmctx) (.inl rfl) (by rwa [← hoffsets])
  refine ⟨rfl, hoffsets, Eq.trans ?_ hsame⟩
  simp only [oldActivation, CallThreadState.new, hoffsets, vmctxWords]

/-- The states of the live calls, where each has what was noted before it. -/
theorem states_eq {t : Thread} {addresses : List ℕ} {guards : List WasmExecutionGuard}
    {records : List CallRecord} {live : List (WasmCall × ℕ × ℕ)}
    (h : CallsGuarded t.states addresses guards records) (h' : Recorded live records) :
    ∃ states, addresses.mapM t.deref = .ok states ∧ states.map oldActivation = Noted.saved live := by
  induction records generalizing addresses guards live with
  | nil =>
    rcases live with _ | ⟨⟨call, pc, fp⟩, live⟩
    · rcases addresses with _ | ⟨p, addresses⟩
      · exact ⟨[], rfl, rfl⟩
      · cases guards <;> exact False.elim h
    · exact False.elim h'
  | cons r records ih =>
    rcases live with _ | ⟨⟨call, pc, fp⟩, live⟩
    · exact False.elim h'
    rcases addresses with _ | ⟨p, addresses⟩
    · cases guards <;> exact False.elim h
    rcases guards with _ | ⟨guard, guards⟩
    · exact False.elim h
    obtain ⟨-, ⟨state, hs, hsaved⟩, hrest⟩ := h
    obtain ⟨-, hoffsets, hbefore, hrest'⟩ := h'
    obtain ⟨states, hstates, hold⟩ := ih hrest hrest'
    obtain ⟨-, -, holdest⟩ := oldActivation_eq hsaved hoffsets
    refine ⟨state :: states, ?_, ?_⟩
    · rw [List.mapM_cons, Thread.deref, hs, unwrap_some, hstates]
      rfl
    · rw [List.map_cons, hold, holdest, hbefore]
      rfl

/-- A thread has noted the given exits and calls, in the vmctxs `vs`. -/
structure Noted.Refines (vs : List ℕ) (n : Noted) (s : HostStack) (records : List CallRecord) :
    Prop where
  inv : s.Inv records
  live : s.stack.live = n.calls.map WasmCall.address
  recorded : Recorded n.live records
  entries : ∀ call ∈ n.calls, call.entry ∈ vs
  words : ∀ v ∈ vs, vmctxWords s.words v = n.words v

section Run

variable {vs : List ℕ} {n : Noted} {s : HostStack} {records : List CallRecord}

theorem Noted.Refines.enter (h : n.Refines vs s records) {call : WasmCall}
    (hp : (WasmEvent.enter call).Possible n.calls) (hapart : ∀ v ∈ vs, ∀ w ∈ vs, Apart v w)
    (hentry : call.entry ∈ vs) :
    ∃ s' records', s.run (WasmEvent.enter call).hostEvents = .ok s'
      ∧ (n.step (.enter call)).Refines vs s' records' := by
  obtain ⟨s₁, hs₁, hinv₁, hlive₁, hsame₁⟩ :=
    h.inv.call hp.1 hp.2.1 (h.live.symm ▸ hp.2.2) call.entry ⟨8⟩
  obtain ⟨s₂, hs₂, hinv₂, hlive₂, hwords₂⟩ := hinv₁.store
    (call.entry + (⟨8⟩ : StaticVMOffsets).vmctxLastWasmEntryFp) call.entryFp
  refine ⟨s₂, _, ?_, hinv₂, ?_, ?_, ?_, fun v hv => ?_⟩
  · simp only [WasmEvent.hostEvents, HostStack.run, hs₁, hs₂, bind, Except.bind]
    rfl
  · rw [hlive₂, hlive₁, h.live]
    rfl
  · exact ⟨rfl, rfl, h.words call.entry hentry, h.recorded.map_store _⟩
  · exact List.forall_mem_cons.2 ⟨hentry, h.entries⟩
  · have hv' := hapart v hv call.entry hentry
    rw [hwords₂, vmctxWords_update hv' (by decide), vmctxWords_congr hv' hsame₁, h.words v hv]
    simp +decide [Noted.words, Noted.step, Noted.calls, lastEntryFp]

theorem Noted.Refines.leave (h : n.Refines vs s records) (stack : Words) (trampolineFp : ℕ)
    {vmctx : ℕ} (hapart : ∀ v ∈ vs, ∀ w ∈ vs, Apart v w) (hvmctx : vmctx ∈ vs) :
    ∃ s' records', s.run (WasmEvent.leave stack trampolineFp vmctx).hostEvents = .ok s'
      ∧ (n.step (.leave stack trampolineFp vmctx)).Refines vs s' records' := by
  obtain ⟨s₁, hs₁, hinv₁, hlive₁, hwords₁⟩ := h.inv.store
    (vmctx + (⟨8⟩ : StaticVMOffsets).vmctxLastWasmExitFp) (stack trampolineFp)
  obtain ⟨s₂, hs₂, hinv₂, hlive₂, hwords₂⟩ := hinv₁.store
    (vmctx + (⟨8⟩ : StaticVMOffsets).vmctxLastWasmExitPc) (stack (trampolineFp + 8))
  refine ⟨s₂, _, ?_, hinv₂, hlive₂.trans (hlive₁.trans h.live),
    (h.recorded.map_store _).map_store _, h.entries, fun v hv => ?_⟩
  · simp only [WasmEvent.hostEvents, saveLastWasmExitFpAndPc, HostStack.run, hs₁, hs₂, bind,
      Except.bind]
    rfl
  · have hv' := hapart v hv vmctx hvmctx
    rw [hwords₂, vmctxWords_update hv' (by decide), hwords₁, vmctxWords_update hv' (by decide),
      h.words v hv]
    by_cases heq : vmctx = v
    · subst heq
      simp +decide [Noted.words, Noted.step, Noted.calls]
    · simp +decide [Noted.words, Noted.step, Noted.calls, heq, Function.update_of_ne (Ne.symm heq)]

/-- The end of a call puts back what its vmctx had, and leaves the words of the others. -/
theorem Noted.Refines.ended (h : n.Refines vs s records) (hne : n.calls ≠ [])
    (hapart : ∀ v ∈ vs, ∀ w ∈ vs, Apart v w) {event : HostEvent}
    (hstep : ∃ s', s.step event = .ok s' ∧ s'.Inv records.tail
      ∧ s'.stack.live = s.stack.live.tail ∧ ∃ r, records.head? = some r ∧ r.Restored s'.words
        ∧ ∀ a ∉ r.bookkeeping, s'.words a = s.words a) :
    ∃ s' records', s.run [event] = .ok s' ∧ n.ended.Refines vs s' records' := by
  obtain ⟨s', hs', hinv, hlive', r, hr, hrestored, hsame⟩ := hstep
  rcases hlive : n.live with _ | ⟨⟨call, exit⟩, live⟩
  · exact absurd (congrArg (List.map Prod.fst) hlive) hne
  have hcalls : n.calls = call :: live.map Prod.fst := congrArg (List.map Prod.fst) hlive
  have hrecorded := h.recorded
  rw [hlive] at hrecorded
  rcases records with _ | ⟨r', records⟩
  · cases hr
  obtain rfl := Option.some_inj.1 hr
  obtain ⟨hvmctx, hoffsets, hbefore, hrest⟩ := hrecorded
  obtain ⟨hentry, hentries⟩ := List.forall_mem_cons.1 (hcalls ▸ h.entries)
  have hended : n.ended = ⟨Function.update n.exits call.entry exit, live⟩ := by
    rw [Noted.ended, hlive]
  refine ⟨s', records, ?_, hended ▸ ⟨hinv, ?_, hrest, hentries, fun v hv => ?_⟩⟩
  · rw [HostStack.run, hs']
    rfl
  · rw [hlive', h.live, hcalls]
    rfl
  by_cases heq : v = call.entry
  · subst heq
    have hback : vmctxWords s'.words call.entry = vmctxWords r'.before r'.vmctx := by
      unfold vmctxWords
      rw [hrestored, hrestored, hrestored, hvmctx]
      all_goals simp [CallRecord.bookkeeping, hvmctx, hoffsets]
    rw [hback, hbefore]
    simp [Noted.words, Noted.calls]
  · have hne : ∀ o < (⟨8⟩ : StaticVMOffsets).size, s'.words (v + o) = s.words (v + o) := by
      refine fun o ho => hsame _ fun hmem => heq ?_
      have hiff : ∀ {o'}, o' < (⟨8⟩ : StaticVMOffsets).size →
          (v + o = call.entry + o' ↔ call.entry = v ∧ o = o') :=
        (hapart v hv call.entry hentry).add_eq_iff ho
      simp only [CallRecord.bookkeeping, CallRecord.stackLimitPtr, hvmctx, hoffsets, List.mem_cons,
        List.not_mem_nil, or_false] at hmem
      rcases hmem with hmem | hmem | hmem | hmem
      all_goals exact ((hiff (by decide)).1 hmem).1.symm
    have hkept : vmctxWords s'.words v = vmctxWords s.words v := by
      unfold vmctxWords
      rw [hne _ (by decide), hne _ (by decide), hne _ (by decide)]
    have hlast : lastEntryFp v n.calls = lastEntryFp v (live.map Prod.fst) := by
      rw [hcalls, lastEntryFp, if_neg (Ne.symm heq)]
    rw [hkept, h.words v hv]
    simp only [Noted.words, hlast, Function.update_of_ne heq]
    rfl

/-- What the host and the trampolines do is noted. -/
theorem Noted.Refines.step (h : n.Refines vs s records) {event : WasmEvent}
    (hp : event.Possible n.calls) (hapart : ∀ v ∈ vs, ∀ w ∈ vs, Apart v w)
    (hvs : event.vmctxs ⊆ vs) :
    ∃ s' records', s.run event.hostEvents = .ok s' ∧ (n.step event).Refines vs s' records' := by
  have hlive : n.calls ≠ [] → s.stack.live ≠ [] :=
    fun hne => h.live ▸ fun hnil => hne (List.map_eq_nil_iff.1 hnil)
  cases event with
  | enter call => exact h.enter hp hapart (hvs List.mem_cons_self)
  | leave stack trampolineFp vmctx =>
    exact h.leave stack trampolineFp hapart (hvs List.mem_cons_self)
  | ret =>
    have hpossible : HostEvent.ret.Possible s.stack.live := hlive hp
    exact h.ended hp hapart (h.inv.step hpossible)
  | raiseTrap trap =>
    have hpossible : (HostEvent.raiseTrap trap).Possible s.stack.live := hlive hp
    exact h.ended hp hapart (h.inv.step hpossible)
  | signal pc faultingAddr trap =>
    have hpossible : (HostEvent.signal pc faultingAddr trap).Possible s.stack.live := hlive hp
    exact h.ended hp hapart (h.inv.step hpossible)

/-- A whole history is noted. -/
theorem Noted.Refines.run (hapart : ∀ v ∈ vs, ∀ w ∈ vs, Apart v w) {live : List WasmCall} :
    ∀ {history : List WasmEvent} {n : Noted} {s : HostStack} {records : List CallRecord},
    n.Refines vs s records → History n.calls history live →
    history.flatMap WasmEvent.vmctxs ⊆ vs →
    ∃ s' records', s.run (history.flatMap WasmEvent.hostEvents) = .ok s'
      ∧ (n.run history).Refines vs s' records'
  | [], _, s, records, h, _, _ => ⟨s, records, rfl, h⟩
  | event :: history, n, _, _, h, ⟨hp, hhistory⟩, hvs => by
    rw [List.flatMap_cons, List.append_subset] at hvs
    obtain ⟨s₁, records₁, hrun₁, h₁⟩ := h.step hp hapart hvs.1
    rw [← n.calls_step event] at hhistory
    obtain ⟨s₂, records₂, hrun₂, h₂⟩ := h₁.run hapart hhistory hvs.2
    exact ⟨s₂, records₂, (HostStack.run_append hrun₁).trans hrun₂, h₂⟩

theorem Noted.refines_start (vs : List ℕ) {words : Words}
    (hentered : ∀ v ∈ vs, (vmctxWords words v).2.2 = 0) :
    (Noted.start words).Refines vs (.start words) [] :=
  ⟨HostStack.inv_start words, rfl, trivial, fun _ h => absurd h List.not_mem_nil,
    fun v hv => Prod.ext rfl (Prod.ext rfl (hentered v hv))⟩

/-- The activations that a backtrace walks: the newest one by the words of its vmctx, and those that the
states have. -/
theorem Noted.Refines.newWithTrapState_eq (h : n.Refines vs s records) (debug : Bool) (stack : Words)
    {call : WasmCall} {exit : ℕ × ℕ} {live : List (WasmCall × ℕ × ℕ)}
    (hlive : n.live = (call, exit) :: live) {fuel : ℕ} (hfuel : live.length < fuel)
    (trap : Option (ℕ × ℕ)) :
    newWithTrapState debug stack s.stack.thread fuel call.address trap
      = traceActivations debug stack
        (((trap.getD ((n.exits call.entry).1, call.entryFp)).1,
          (trap.getD ((n.exits call.entry).1, call.entryFp)).2, call.entryFp)
          :: Noted.saved n.live) := by
  have hcalls : n.calls = call :: live.map Prod.fst := congrArg (List.map Prod.fst) hlive
  have hentry : call.entry ∈ vs := h.entries call (hcalls ▸ List.mem_cons_self)
  have hguarded := h.inv.guarded
  have hchain := h.inv.stack.chain
  have hl : s.stack.live = call.address :: (live.map Prod.fst).map WasmCall.address := by
    rw [h.live, hcalls]
    rfl
  rw [hl] at hguarded hchain
  rw [(h.inv.stack.innermost hl).1] at hchain
  have hiter : s.stack.thread.iter fuel call.address
      = .ok (call.address :: (live.map Prod.fst).map WasmCall.address) := by
    refine hchain.walk_of_le hchain.2.1 ?_
    rw [List.length_cons, List.length_map, List.length_map]
    exact hfuel
  obtain ⟨states, hstates, hsaved⟩ := states_eq hguarded h.recorded
  -- the state of the newest call
  have hrecorded := h.recorded
  rw [hlive] at hrecorded
  rcases hg : s.guards with _ | ⟨guard, guards⟩
  · rw [hg] at hguarded
    exact False.elim hguarded
  rw [hg] at hguarded
  rcases records with _ | ⟨r, records⟩
  · exact False.elim hguarded
  obtain ⟨-, ⟨state, hs, hstate⟩, -⟩ := hguarded
  obtain ⟨hvmctx, hoffsets, -⟩ := oldActivation_eq hstate hrecorded.2.1
  rw [hrecorded.1] at hvmctx
  have hderef : s.stack.thread.deref call.address = .ok state := by
    rw [Thread.deref, hs, unwrap_some]
  have hwords := h.words call.entry hentry
  rw [Noted.words, hcalls, lastEntryFp, if_pos rfl] at hwords
  obtain ⟨hpc, hrest⟩ := Prod.mk.inj hwords
  obtain ⟨-, hentryFp⟩ := Prod.mk.inj hrest
  rw [HostStack.words] at hpc hentryFp
  unfold newWithTrapState
  simp only [hderef, hiter, hstates, hsaved, hvmctx, hoffsets, hpc, hentryFp, bind, Except.bind]
  cases trap <;> rfl

end Run

/-! ## Backtraces -/

/-- Where a backtrace is said to begin: at the trap, unless the newest activation has left WebAssembly code
through a trampoline. -/
def trapPcAndFp (newest : WasmActivation) (trapped : Bool) : Option (ℕ × ℕ) :=
  if trapped then some (newest.innermost.pc, newest.innermost.fp) else none

section Backtrace

variable {stack words : Words} {history : List WasmEvent} {newest : WasmActivation}
  {older : List WasmActivation}

/-- What a backtrace of a stack walks. -/
theorem WasmStack.backtrace_eq (debug : Bool)
    (h : WasmStack stack words history (newest :: older)) (trapped : Bool) {fuel : ℕ}
    (hfuel : older.length < fuel) :
    ∃ s exit live pc,
      (HostStack.start words).run (history.flatMap WasmEvent.hostEvents) = .ok s
        ∧ ((Noted.start words).run history).live = (newest.toWasmCall, exit) :: live
        ∧ live.map Prod.fst = older.map WasmActivation.toWasmCall
        ∧ newWithTrapState debug stack s.stack.thread fuel newest.address (trapPcAndFp newest trapped)
          = traceActivations debug stack
            ((if trapped then (newest.innermost.pc, newest.innermost.fp, newest.entryFp)
              else (pc, newest.entryFp, newest.entryFp))
              :: Noted.saved ((newest.toWasmCall, exit) :: live)) := by
  have hcalls : ((Noted.start words).run history).calls
      = newest.toWasmCall :: older.map WasmActivation.toWasmCall :=
    Noted.calls_run (n := Noted.start words) h.happened
  obtain ⟨s, records, hrun, hrefines⟩ :=
    (Noted.refines_start _ h.entered).run h.apart h.happened (List.Subset.refl _)
  obtain ⟨⟨call, exit⟩, live, hlive, rfl, hlive'⟩ := List.map_eq_cons_iff.1 hcalls
  have hfuel' : live.length < fuel := by
    have := congrArg List.length hlive'
    rw [List.length_map, List.length_map] at this
    omega
  refine ⟨s, exit, live, (((Noted.start words).run history).exits newest.entry).1, hrun, hlive, hlive',
    ?_⟩
  rw [hrefines.newWithTrapState_eq debug stack hlive hfuel', hlive]
  cases trapped <;> rfl

/-- Without a trap, the frames of the newest activation are not listed. -/
theorem WasmStack.not_frames_of_exit {debug : Bool}
    (h : WasmStack stack words history (newest :: older)) (pc : ℕ) {exit : ℕ × ℕ}
    {live : List (WasmCall × ℕ × ℕ)} (hlive : live.map Prod.fst = older.map WasmActivation.toWasmCall) :
    traceActivations debug stack ((pc, newest.entryFp, newest.entryFp)
        :: Noted.saved ((newest.toWasmCall, exit) :: live))
      ≠ .ok (newest.frames ++ older.flatMap WasmActivation.frames) := by
  have hon := h.onStack
  refine traceActivations_ne hon.1 hon.frames_lt (List.forall_mem_cons.2 ⟨.inl fun heq => ?_, fun t ht =>
    .inr (Noted.saved_lt (hlive ▸ hon.entryFp_lt) t ht)⟩)
  exact hon.1.innermost_lt.ne' (congrArg Backtrace.Frame.fp heq)

end Backtrace

/-- What was noted in the vmctxs of the live calls just before them, the newest first. -/
def savedExits (words : Words) (history : List WasmEvent) : List (ℕ × ℕ) :=
  ((Noted.start words).run history).live.map Prod.snd

/-- Whatever has happened before, a backtrace lists exactly the frames of the live activations, the newest
first, where a trap is given, all of them were entered on the vmctx that the newest was entered on, each
older one was left as that vmctx had it when the next one was entered, and it had nothing when the oldest
one was entered. -/
theorem backtrace_frames_iff (debug : Bool) {stack words : Words} {history : List WasmEvent}
    {newest : WasmActivation} {older : List WasmActivation}
    (h : WasmStack stack words history (newest :: older)) (trapped : Bool) {fuel : ℕ}
    (hfuel : older.length < fuel) :
    ∃ s, (HostStack.start words).run (history.flatMap WasmEvent.hostEvents) = .ok s
      ∧ (newWithTrapState debug stack s.stack.thread fuel newest.address (trapPcAndFp newest trapped)
          = .ok (newest.frames ++ older.flatMap WasmActivation.frames)
        ↔ trapped = true ∧ SavedExits debug newest.entry (savedExits words history) older) := by
  obtain ⟨s, exit, live, pc, hrun, hlive, hcalls, heq⟩ := h.backtrace_eq debug trapped hfuel
  refine ⟨s, hrun, ?_⟩
  have hsaved : savedExits words history = exit :: live.map Prod.snd := by
    rw [savedExits, hlive]
    rfl
  rw [heq, hsaved]
  cases trapped with
  | true =>
    rw [← traceActivations_saved_iff debug h.onStack.2.2 hcalls, if_pos rfl,
      traceActivations_cons h.onStack.1, map_append_eq_ok, and_iff_right rfl]
  | false => exact iff_of_false (h.not_frames_of_exit pc hcalls) fun hsame => nomatch hsame.1

section Example

/-- The words of a stack with one frame in each of two activations. -/
def exampleStack : Words := fun a =>
  if a = 4000 then 4096 else if a = 4008 then 77
  else if a = 4096 then 8192
  else if a = 12000 then 12288 else if a = 12008 then 88
  else if a = 12288 then 16384
  else 0

def exampleNewest : WasmActivation := ⟨⟨MAX_WASM_STACK, 16, 1000, 8192⟩, ⟨77, 4096⟩, []⟩

def exampleOlder : WasmActivation := ⟨⟨MAX_WASM_STACK, 32, 1000, 16384⟩, ⟨88, 12288⟩, []⟩

/-- The older activation calls the host, which makes two calls: one of another vmctx, which ends, and then
the newest. -/
def exampleHistory : List WasmEvent :=
  [.enter exampleOlder.toWasmCall, .leave exampleStack 12000 1000,
    .enter ⟨MAX_WASM_STACK, 16, 5000, 8192⟩, .leave exampleStack 4000 5000, .ret,
    .enter exampleNewest.toWasmCall]

theorem exampleNewest_onStack : exampleNewest.OnStack exampleStack := by
  refine ⟨by decide, ?_⟩
  simp [exampleNewest, exampleStack, WasmActivation.frames, Linked]

theorem exampleOlder_onStack : exampleOlder.OnStack exampleStack := by
  refine ⟨by decide, ?_⟩
  simp [exampleOlder, exampleStack, WasmActivation.frames, Linked]

/-- Two activations on one vmctx, the newer of which traps, after a call of another vmctx. -/
theorem backtrace_frames_iff_nested :
    ∃ s, (HostStack.start fun _ => 0).run (exampleHistory.flatMap WasmEvent.hostEvents) = .ok s
      ∧ newWithTrapState true exampleStack s.stack.thread 2 16 (some (77, 4096))
        = .ok [⟨77, 4096⟩, ⟨88, 12288⟩] := by
  have hstack : WasmStack exampleStack (fun _ => 0) exampleHistory [exampleNewest, exampleOlder] := by
    refine ⟨?_, ?_, fun _ _ => rfl, exampleNewest_onStack, by decide, exampleOlder_onStack, by simp,
      trivial⟩
    · simp [exampleHistory, exampleNewest, exampleOlder, History, WasmEvent.Possible, WasmEvent.liveAfter]
    · simp +decide [exampleHistory, exampleNewest, exampleOlder, WasmEvent.vmctxs, Apart]
  obtain ⟨s, hrun, hframes⟩ := backtrace_frames_iff true hstack true Nat.one_lt_two
  refine ⟨s, hrun, hframes.2 ⟨rfl, ?_⟩⟩
  simp [SavedExits, savedExits, exampleHistory, Noted.run, Noted.step, Noted.ended, Noted.start,
    exampleNewest, exampleOlder, exampleStack, vmctxWords]

/-- An activation whose only frame has called a builtin through a trampoline: the frame is not listed. -/
theorem not_backtrace_frames : ¬ ∀ (debug : Bool) (stack words : Words) (history : List WasmEvent)
    (a : WasmActivation) (trampolineFp vmctx : ℕ), WasmStack stack words history [a] →
    history.getLast? = some (.leave stack trampolineFp vmctx) →
    stack trampolineFp = a.innermost.fp → stack (trampolineFp + 8) = a.innermost.pc →
    ∃ s, (HostStack.start words).run (history.flatMap WasmEvent.hostEvents) = .ok s
      ∧ newWithTrapState debug stack s.stack.thread 1 a.address none = .ok a.frames := by
  intro h
  have hstack : WasmStack exampleStack (fun _ => 0)
      [.enter exampleNewest.toWasmCall, .leave exampleStack 4000 1000] [exampleNewest] := by
    refine ⟨?_, ?_, fun _ _ => rfl, exampleNewest_onStack, by simp, trivial⟩
    · simp [exampleNewest, History, WasmEvent.Possible, WasmEvent.liveAfter]
    · simp [exampleNewest, WasmEvent.vmctxs, Apart]
  obtain ⟨s, hrun, hframes⟩ := h true exampleStack _ _ exampleNewest 4000 1000 hstack rfl rfl rfl
  obtain ⟨s', exit, live, pc, hrun', -, hcalls, heq⟩ := hstack.backtrace_eq true false Nat.one_pos
  obtain rfl := Except.ok.inj (hrun.symm.trans hrun')
  have hall : exampleNewest.frames = exampleNewest.frames ++ [].flatMap WasmActivation.frames :=
    (List.append_nil _).symm
  rw [hall] at hframes
  exact hstack.not_frames_of_exit pc hcalls (heq.symm.trans hframes)

end Example

end K23VM
