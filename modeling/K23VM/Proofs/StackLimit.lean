import K23VM.Func
import K23VM.Proofs.Initialize

/-!
# Stack limits

A call from the host writes the limit into the vmctx it enters, and the guards restore what was there,
so that every vmctx holds the limit of the innermost call from the host that entered it,
`run_consistent`.  A function of another instance than that of the innermost call finds another limit,
or none: all limits agree exactly where no call leaves the instance that was entered,
`stackLimits_agree_iff`.
-/

namespace K23VM

/-- The modules of the instances have the offsets that were computed for them. -/
def Store.LaidOut (store : Store) : Prop :=
  ∀ instance_ ∈ store.instances,
    VMOffsets.forModule 8 instance_.module.translated = .ok instance_.module.offsets

/-- The address of the stack limit of a vmctx. -/
def stackLimitPtr (vmctx : ℕ) : ℕ := vmctx + (⟨8⟩ : StaticVMOffsets).vmctxStackLimit

theorem stackLimitPtr_inj {v v' : ℕ} : stackLimitPtr v = stackLimitPtr v' ↔ v = v' := by
  unfold stackLimitPtr
  omega

/-- The function found the limit of the innermost call from the host. -/
def Entry.Agrees (e : Entry) : Prop := e.stackLimit = e.enclosing.2 - MAX_WASM_STACK

/-- The function is one of the instance that the innermost call from the host entered. -/
def Entry.Own (e : Entry) : Prop := e.vmctx = e.enclosing.1

/-! ## The words -/

/-- The words as the calls from the host left them, where they were `w` before. -/
def wordsOf (w : Words) : List Frame → Words
  | [], p => w p
  | .host vmctx stackPointer _ :: frames, p =>
    if p = stackLimitPtr vmctx then stackPointer - MAX_WASM_STACK else wordsOf w frames p
  | .wasm _ :: frames, p => wordsOf w frames p

/-- The guards hold the words from before their calls, and the stack grows down.  The stack pointers
of the calls satisfy `P`. -/
def Guarded (P : ℕ → Prop) (w : Words) : List Frame → Prop
  | [] => True
  | .host vmctx stackPointer guard :: frames =>
    guard = ⟨stackLimitPtr vmctx, wordsOf w frames (stackLimitPtr vmctx)⟩
      ∧ (∀ enclosing, innermost frames = some enclosing → stackPointer < enclosing.2)
      ∧ P stackPointer ∧ MAX_WASM_STACK ≤ stackPointer ∧ Guarded P w frames
  | .wasm _ :: frames => Guarded P w frames

variable {P : ℕ → Prop} {w : Words} {frames : List Frame} {enclosing : ℕ × ℕ}

theorem wordsOf_innermost (h : innermost frames = some enclosing) :
    wordsOf w frames (stackLimitPtr enclosing.1) = enclosing.2 - MAX_WASM_STACK := by
  induction frames with
  | nil => cases h
  | cons frame frames ih =>
    cases frame with
    | host vmctx stackPointer guard =>
      obtain rfl := Option.some_inj.1 h
      exact if_pos rfl
    | wasm => exact ih h

theorem Guarded.innermost_spec (hg : Guarded P w frames) (h : innermost frames = some enclosing) :
    P enclosing.2 ∧ MAX_WASM_STACK ≤ enclosing.2 := by
  induction frames with
  | nil => cases h
  | cons frame frames ih =>
    cases frame with
    | host vmctx stackPointer guard =>
      obtain ⟨-, -, hP, hle, -⟩ := hg
      obtain rfl := Option.some_inj.1 h
      exact ⟨hP, hle⟩
    | wasm => exact ih hg h

/-- A word is the one from before all calls, or the limit of a call that is the innermost or around
it. -/
theorem Guarded.wordsOf_cases (hg : Guarded P w frames) (p : ℕ) :
    wordsOf w frames p = w p ∨ ∃ stackPointer enclosing, innermost frames = some enclosing
      ∧ enclosing.2 ≤ stackPointer ∧ wordsOf w frames p = stackPointer - MAX_WASM_STACK := by
  induction frames with
  | nil => exact .inl rfl
  | cons frame frames ih =>
    cases frame with
    | host vmctx stackPointer guard =>
      obtain ⟨-, hlt, -, -, hg⟩ := hg
      by_cases hp : p = stackLimitPtr vmctx
      · exact .inr ⟨stackPointer, _, rfl, le_rfl, if_pos hp⟩
      · rcases ih hg with h | ⟨stackPointer', enclosing, hin, hle, h⟩
        · exact .inl ((if_neg hp).trans h)
        · exact .inr ⟨stackPointer', _, rfl, (hlt _ hin).le.trans hle, (if_neg hp).trans h⟩
    | wasm => exact ih hg

/-- The word of an instance that the innermost call did not enter is not the limit of this call. -/
theorem Guarded.wordsOf_ne (hg : Guarded P w frames) (hw : ∀ p, w p = 0)
    (h : innermost frames = some enclosing) (hpos : MAX_WASM_STACK < enclosing.2) {vmctx : ℕ}
    (hne : vmctx ≠ enclosing.1) :
    wordsOf w frames (stackLimitPtr vmctx) ≠ enclosing.2 - MAX_WASM_STACK := by
  induction frames with
  | nil => cases h
  | cons frame frames ih =>
    cases frame with
    | host vmctx' stackPointer guard =>
      obtain ⟨-, hlt, -, -, hg⟩ := hg
      obtain rfl := Option.some_inj.1 h
      have hrest : wordsOf w (.host vmctx' stackPointer guard :: frames) (stackLimitPtr vmctx)
          = wordsOf w frames (stackLimitPtr vmctx) := if_neg (mt stackLimitPtr_inj.1 hne)
      rw [hrest]
      rcases hg.wordsOf_cases (stackLimitPtr vmctx) with h₀ | ⟨stackPointer', enclosing, hin, hle, h₀⟩
      · rw [h₀, hw]
        simp only at hpos ⊢
        omega
      · have := hlt _ hin
        rw [h₀]
        simp only at hpos ⊢
        omega
    | wasm => exact ih hg h

/-! ## Steps -/

/-- The words are those that the calls from the host left. -/
structure Activation.Consistent (P : ℕ → Prop) (w : Words) (a : Activation) : Prop where
  words : a.words = wordsOf w a.frames
  guarded : Guarded P w a.frames

/-- The entry was made with the words of these frames. -/
def Entry.Made (P : ℕ → Prop) (w : Words) (e : Entry) : Prop :=
  ∃ frames, innermost frames = some e.enclosing ∧ Guarded P w frames
    ∧ e.stackLimit = wordsOf w frames (stackLimitPtr e.vmctx)

theorem enterWasm_eq_ok {words words' : Words} {stackPointer vmctx : ℕ} {off : StaticVMOffsets}
    {guard : WasmExecutionGuard} (h : enterWasm words stackPointer vmctx off = .ok (guard, words')) :
    MAX_WASM_STACK ≤ stackPointer
      ∧ guard = ⟨vmctx + off.vmctxStackLimit, words (vmctx + off.vmctxStackLimit)⟩
      ∧ words' = Function.update words (vmctx + off.vmctxStackLimit) (stackPointer - MAX_WASM_STACK) := by
  unfold enterWasm at h
  obtain ⟨limit, hlimit, h⟩ := bind_eq_ok.1 h
  obtain ⟨hle, hlimit⟩ := checkedSub_eq_ok.1 hlimit
  obtain ⟨rfl, rfl⟩ := Prod.mk.inj (Except.ok.inj h)
  exact ⟨hle, rfl, by rw [hlimit]⟩

theorem Store.enterFunc_eq_ok {store : Store} (hs : store.LaidOut) {words words' : Words}
    {stackPointer func vmctx : ℕ} {guard : WasmExecutionGuard}
    (h : store.enterFunc words stackPointer func = .ok (vmctx, guard, words')) :
    MAX_WASM_STACK ≤ stackPointer ∧ guard = ⟨stackLimitPtr vmctx, words (stackLimitPtr vmctx)⟩
      ∧ words' = Function.update words (stackLimitPtr vmctx) (stackPointer - MAX_WASM_STACK) := by
  unfold Store.enterFunc at h
  obtain ⟨export_, -, h⟩ := bind_eq_ok.1 h
  obtain ⟨handle, -, h⟩ := bind_eq_ok.1 h
  obtain ⟨instance_, hinst, h⟩ := bind_eq_ok.1 h
  obtain ⟨⟨guard', words''⟩, henter, h⟩ := bind_eq_ok.1 h
  have h := Except.ok.inj h
  obtain ⟨rfl, hrest⟩ := Prod.mk.inj h
  obtain ⟨rfl, rfl⟩ := Prod.mk.inj hrest
  have hmem := List.mem_of_getElem? (unwrap_eq_ok.1 hinst)
  have hstatic := (VMOffsets.forModule_laid (hs instance_ hmem)).1.static_
  rw [hstatic] at henter
  exact enterWasm_eq_ok henter

/-- Dropping a guard leaves the words of the frames below. -/
theorem drop_wordsOf {vmctx stackPointer : ℕ} {guard : WasmExecutionGuard}
    (h : Guarded P w (.host vmctx stackPointer guard :: frames)) :
    guard.drop (wordsOf w (.host vmctx stackPointer guard :: frames)) = wordsOf w frames := by
  obtain ⟨rfl, -⟩ := h
  funext p
  unfold WasmExecutionGuard.drop
  by_cases hp : p = stackLimitPtr vmctx
  · subst hp
    rw [Function.update_self]
  · rw [Function.update_of_ne hp]
    exact if_neg hp

theorem update_wordsOf (vmctx stackPointer : ℕ) (guard : WasmExecutionGuard) :
    Function.update (wordsOf w frames) (stackLimitPtr vmctx) (stackPointer - MAX_WASM_STACK)
      = wordsOf w (.host vmctx stackPointer guard :: frames) := by
  funext p
  by_cases hp : p = stackLimitPtr vmctx
  · subst hp
    rw [Function.update_self]
    exact (if_pos rfl).symm
  · rw [Function.update_of_ne hp]
    exact (if_neg hp).symm

namespace Activation

variable {store : Store} {a a' : Activation} {event : Event} {vmctx : ℕ}

theorem enter_eq_some (h : a.enter vmctx = some a') :
    ∃ enclosing, innermost a.frames = some enclosing
      ∧ a' = { a with
        frames := .wasm vmctx :: a.frames
        entries := ⟨vmctx, loadStackLimit a.words vmctx, enclosing⟩ :: a.entries } := by
  obtain ⟨enclosing, hin, rfl⟩ := Option.map_eq_some_iff.1 h
  exact ⟨enclosing, hin, rfl⟩

/-- Entering a function makes an entry. -/
theorem Consistent.enter (h : Consistent P w a) (henter : a.enter vmctx = some a') :
    Consistent P w a' ∧ ∃ e, a'.entries = e :: a.entries ∧ e.Made P w ∧ e.vmctx = vmctx
      ∧ innermost a.frames = some e.enclosing := by
  obtain ⟨enclosing, hin, rfl⟩ := enter_eq_some henter
  refine ⟨⟨h.words, h.guarded⟩, _, rfl, ⟨a.frames, hin, h.guarded, ?_⟩, rfl, hin⟩
  show loadStackLimit a.words vmctx = _
  rw [h.words]
  rfl

theorem Consistent.unwind {words : Words} {entries : List Entry} (hw : words = wordsOf w frames)
    (hg : Guarded P w frames) (h : Activation.unwind words entries frames = some a') :
    Consistent P w a' ∧ a'.entries = entries := by
  induction frames with
  | nil => cases h
  | cons frame frames ih =>
    cases frame with
    | host vmctx stackPointer guard =>
      obtain rfl := Option.some_inj.1 h
      obtain rfl := hw
      exact ⟨⟨drop_wordsOf hg, hg.2.2.2.2⟩, rfl⟩
    | wasm => exact ih hw hg h

theorem Consistent.call (hs : store.LaidOut) (h : Consistent P w a) {func stackPointer : ℕ}
    (hP : P stackPointer) (hstep : a.step store (.call func stackPointer) = some a') :
    Consistent P w a' ∧ ∃ e, a'.entries = e :: a.entries ∧ e.Made P w ∧ e.Own := by
  simp only [step] at hstep
  split at hstep
  · next hcan =>
    split at hstep
    · next vmctx guard words henter =>
      obtain ⟨hle, rfl, rfl⟩ := Store.enterFunc_eq_ok hs henter
      have hdown : ∀ enclosing, innermost a.frames = some enclosing → stackPointer < enclosing.2 := by
        intro enclosing hin
        unfold canCall at hcan
        split at hcan
        · cases hcan
        · rw [hin] at hcan
          simpa using hcan
      have hhost : Consistent P w { a with
          words := Function.update a.words (stackLimitPtr vmctx) (stackPointer - MAX_WASM_STACK)
          frames := .host vmctx stackPointer
            ⟨stackLimitPtr vmctx, a.words (stackLimitPtr vmctx)⟩ :: a.frames } := by
        refine ⟨?_, ⟨by rw [h.words], hdown, hP, hle, h.guarded⟩⟩
        show Function.update a.words _ _ = _
        rw [h.words]
        exact update_wordsOf vmctx stackPointer _
      obtain ⟨hcons, e, hentries, hmade, hvmctx, hin⟩ := hhost.enter hstep
      refine ⟨hcons, e, hentries, hmade, ?_⟩
      have henclosing := Option.some_inj.1 hin
      show e.vmctx = e.enclosing.1
      rw [hvmctx, ← henclosing]
    · cases hstep
  · cases hstep

/-- The call does not leave the instance that the innermost call from the host entered. -/
def Stays (store : Store) (a : Activation) (event : Event) : Prop :=
  ∀ vmctx, a.calleeVmctx store event = some vmctx →
    ∃ enclosing, innermost a.frames = some enclosing ∧ vmctx = enclosing.1

/-- What a step does to the words and the entries. -/
theorem Consistent.step (hs : store.LaidOut) (h : Consistent P w a)
    (hP : ∀ func stackPointer, event = .call func stackPointer → P stackPointer)
    (hstep : a.step store event = some a') :
    Consistent P w a' ∧ ∃ new, a'.entries = new ++ a.entries ∧ (∀ e ∈ new, e.Made P w)
      ∧ (Stays store a event ↔ ∀ e ∈ new, e.Own) := by
  -- A call in WebAssembly makes one entry, of the function it calls.
  have hcall {vmctx : ℕ} (hcallee : a.calleeVmctx store event = some vmctx)
      (henter : a.enter vmctx = some a') : Consistent P w a' ∧ ∃ new, a'.entries = new ++ a.entries
        ∧ (∀ e ∈ new, e.Made P w) ∧ (Stays store a event ↔ ∀ e ∈ new, e.Own) := by
    obtain ⟨hcons, e, hentries, hmade, rfl, hin⟩ := h.enter henter
    refine ⟨hcons, [e], hentries, by simpa using hmade, ?_⟩
    rw [List.forall_mem_singleton]
    constructor
    · intro hstays
      obtain ⟨enclosing, hin', hvmctx⟩ := hstays _ hcallee
      obtain rfl := Option.some_inj.1 (hin.symm.trans hin')
      exact hvmctx
    · intro hown vmctx hcallee'
      obtain rfl := Option.some_inj.1 (hcallee.symm.trans hcallee')
      exact ⟨e.enclosing, hin, hown⟩
  -- The other steps make none.
  have hnone (hcallee : a.calleeVmctx store event = none) (hentries : a'.entries = a.entries) :
      ∃ new, a'.entries = new ++ a.entries ∧ (∀ e ∈ new, e.Made P w)
        ∧ (Stays store a event ↔ ∀ e ∈ new, e.Own) := by
    refine ⟨[], hentries, by simp, ?_⟩
    unfold Stays
    simp [hcallee]
  cases event with
  | call func stackPointer =>
    obtain ⟨hcons, e, hentries, hmade, hown⟩ := h.call hs (hP _ _ rfl) hstep
    refine ⟨hcons, [e], hentries, by simpa using hmade, ?_⟩
    rw [List.forall_mem_singleton]
    exact ⟨fun _ => hown, fun _ vmctx hcallee => by cases hcallee⟩
  | direct calleeIndex =>
    obtain ⟨vmctx, hcallee, henter⟩ := Option.bind_eq_some_iff.1 hstep
    exact hcall hcallee henter
  | indirect funcRef =>
    obtain ⟨vmctx, hcallee, henter⟩ := Option.bind_eq_some_iff.1 hstep
    exact hcall hcallee henter
  | ret =>
    simp only [Activation.step] at hstep
    split at hstep
    · next vmctx frames hframes =>
      obtain rfl := Option.some_inj.1 hstep
      have hg := h.guarded
      have hw := h.words
      rw [hframes] at hg hw
      exact ⟨⟨hw, hg⟩, hnone rfl rfl⟩
    · cases hstep
  | leave =>
    simp only [Activation.step] at hstep
    split at hstep
    · next vmctx stackPointer guard frames hframes =>
      obtain rfl := Option.some_inj.1 hstep
      have hg := h.guarded
      rw [hframes] at hg
      refine ⟨⟨?_, hg.2.2.2.2⟩, hnone rfl rfl⟩
      show guard.drop a.words = _
      rw [h.words, hframes]
      exact drop_wordsOf hg
    · cases hstep
  | trap =>
    simp only [Activation.step] at hstep
    split at hstep
    · next vmctx frames hframes =>
      have hg := h.guarded
      have hw := h.words
      rw [hframes] at hg hw
      obtain ⟨hcons, hentries⟩ := Consistent.unwind hw hg hstep
      exact ⟨hcons, hnone rfl hentries⟩
    · cases hstep

/-! ## Runs -/

/-- No call of the run leaves the instance that the innermost call from the host entered. -/
def StaysIn (store : Store) (a : Activation) : List Event → Prop
  | [] => True
  | event :: events => Stays store a event
      ∧ ∀ a', a.step store event = some a' → StaysIn store a' events

/-- In a run the words stay consistent, and its calls stay in their instances where all entries are
of functions of these. -/
theorem Consistent.run (hs : store.LaidOut) : ∀ {events : List Event} {a : Activation},
    Consistent P w a → (∀ func stackPointer, .call func stackPointer ∈ events → P stackPointer) →
    a.run store events = some a' →
    Consistent P w a' ∧ ∃ new, a'.entries = new ++ a.entries ∧ (∀ e ∈ new, e.Made P w)
      ∧ (StaysIn store a events ↔ ∀ e ∈ new, e.Own)
  | [], a, h, _, hrun => by
    obtain rfl := Option.some_inj.1 hrun
    exact ⟨h, [], rfl, by simp, by simp [StaysIn]⟩
  | event :: events, a, h, hP, hrun => by
    obtain ⟨a₁, hstep, hrun⟩ := Option.bind_eq_some_iff.1 hrun
    obtain ⟨h₁, new₁, hentries₁, hmade₁, hstays₁⟩ :=
      h.step hs (fun func stackPointer heq => hP func stackPointer (heq ▸ List.mem_cons_self)) hstep
    obtain ⟨h₂, new₂, hentries₂, hmade₂, hstays₂⟩ := Consistent.run hs h₁
      (fun func stackPointer hmem => hP func stackPointer (List.mem_cons_of_mem _ hmem)) hrun
    refine ⟨h₂, new₂ ++ new₁, ?_, List.forall_mem_append.2 ⟨hmade₂, hmade₁⟩, ?_⟩
    · rw [hentries₂, hentries₁, List.append_assoc]
    · rw [List.forall_mem_append, ← hstays₁, ← hstays₂]
      constructor
      · exact fun hstays => ⟨hstays.2 a₁ hstep, hstays.1⟩
      · rintro ⟨hrest, hfirst⟩
        refine ⟨hfirst, fun a' ha' => ?_⟩
        obtain rfl := Option.some_inj.1 (hstep.symm.trans ha')
        exact hrest

theorem start_consistent : Consistent P w (start w) := ⟨rfl, trivial⟩

end Activation

/-- The function found the limit of the innermost call where it is one of the instance that this call
entered. -/
theorem Entry.Made.agrees {e : Entry} (h : e.Made P w) (hown : e.Own) : e.Agrees := by
  obtain ⟨frames, hin, hg, hlimit⟩ := h
  unfold Entry.Agrees
  rw [hlimit, hown]
  exact wordsOf_innermost hin

theorem Entry.Made.own {e : Entry} (h : e.Made (MAX_WASM_STACK < ·) w) (hw : ∀ p, w p = 0)
    (hagrees : e.Agrees) : e.Own := by
  obtain ⟨frames, hin, hg, hlimit⟩ := h
  by_contra hne
  exact hg.wordsOf_ne hw hin (hg.innermost_spec hin).1 hne (hlimit.symm.trans hagrees)

/-- In a run whose calls all stay in the instance that the innermost call from the host entered, each
function finds the limit of this call in its vmctx.  Where all functions find it, all calls stay. -/
theorem stackLimits_agree_iff {store : Store} (hs : store.LaidOut) {events : List Event}
    {a : Activation} (hrun : (Activation.start w).run store events = some a) :
    (Activation.StaysIn store (.start w) events → ∀ e ∈ a.entries, e.Agrees)
      ∧ ((∀ p, w p = 0) →
        (∀ func stackPointer, .call func stackPointer ∈ events → MAX_WASM_STACK < stackPointer) →
        (∀ e ∈ a.entries, e.Agrees) → Activation.StaysIn store (.start w) events) := by
  constructor
  · intro hstays
    obtain ⟨-, new, hentries, hmade, hiff⟩ := Activation.start_consistent.run (P := fun _ => True) hs
      (fun _ _ _ => trivial) hrun
    rw [hentries]
    simp only [Activation.start, List.append_nil]
    exact fun e he => (hmade e he).agrees (hiff.1 hstays e he)
  · intro hw hsp hagrees
    obtain ⟨-, new, hentries, hmade, hiff⟩ := Activation.start_consistent.run hs hsp hrun
    rw [hentries] at hagrees
    simp only [Activation.start, List.append_nil] at hagrees
    exact hiff.2 fun e he => (hmade e he).own hw (hagrees e he)

section Example

/-- A module with one function, which escapes. -/
def calleeModule : TranslatedModule where
  types := [0]
  functions := [⟨0, 0⟩]
  numEscapedFunctions := 1

def calleeOffsets : VMOffsets := (VMOffsets.forModule 8 calleeModule).toOption.get rfl

/-- A module that imports a function, and has one that escapes. -/
def callerModule : TranslatedModule where
  types := [0]
  imports := [⟨"callee", "f", .function (.module 0)⟩]
  functions := [⟨0, FUNC_REF_RESERVED⟩, ⟨0, 0⟩]
  numImportedFunctions := 1
  numEscapedFunctions := 1

/-- An instance of a module with one defined function, with its code and its vmctx at the given
addresses. -/
def instanceOf (base address : ℕ) (m : TranslatedModule) (off : VMOffsets) (imports : Imports) : Instance :=
  let module : Module :=
    { moduleOf m off with
      code := ⟨base, 3, [], []⟩
      functionInfo := [⟨⟨0, 1⟩, some ⟨1, 2⟩, 0⟩] }
  { module
    vmctx := ⟨address, (initializeVmctx true 0x7000 ⟨[]⟩ address [] [] module imports).log⟩
    tables := [], memories := [], droppedElems := [], droppedData := [], exports := [] }

def calleeInstance : Instance :=
  instanceOf 0x8000 0x3000 calleeModule calleeOffsets {}

def callerInstance : Instance :=
  instanceOf 0xa000 0x6000 callerModule ((VMOffsets.forModule 8 callerModule).toOption.get rfl)
    { functions := [⟨0x8000, 0x8001, 0x3000⟩] }

/-- A store with both instances, and the function of the caller. -/
def callingStore : Store :=
  let (_, store) := ({} : Store).pushInstance calleeInstance
  let (_, store) := store.pushInstance callerInstance
  { store with exportedFuncs := [⟨⟨0xa001, 0xa000, 0x6000, 5⟩⟩] }

theorem callingStore_laidOut : callingStore.LaidOut := by
  intro instance_ h
  have h : instance_ = calleeInstance ∨ instance_ = callerInstance := by
    simpa [callingStore, Store.pushInstance] using h
  obtain rfl | rfl := h <;> rfl

/-- All functions that are entered in a store find the limit of the innermost call from the host. -/
def Store.StackLimitsAgree (store : Store) : Prop :=
  ∀ events a, (Activation.start fun _ => 0).run store events = some a → ∀ e ∈ a.entries, e.Agrees

/-- The imported function does not find the limit of the call, but none. -/
theorem not_stackLimitsAgree_calling : callingStore.LaidOut ∧ ¬ callingStore.StackLimitsAgree := by
  refine ⟨callingStore_laidOut, fun h => ?_⟩
  obtain ⟨a, hrun, hentries⟩ : ∃ a,
      (Activation.start fun _ => 0).run callingStore [.call 0 0x100000, .direct 0] = some a
      ∧ a.entries = [⟨0x3000, 0, (0x6000, 0x100000)⟩, ⟨0x6000, 0x80000, (0x6000, 0x100000)⟩] :=
    ⟨_, rfl, rfl⟩
  have hagrees : 0 = 0x100000 - MAX_WASM_STACK :=
    h _ a hrun ⟨0x3000, 0, (0x6000, 0x100000)⟩ (hentries ▸ List.mem_cons_self)
  exact absurd hagrees (by decide)

/-- A function that calls itself finds the limit of the call each time. -/
theorem stackLimits_agree_recursive :
    ∃ a, (Activation.start fun _ => 0).run callingStore [.call 0 0x100000, .direct 1, .ret] = some a
      ∧ a.entries.length = 2 ∧ ∀ e ∈ a.entries, e.Agrees := by
  obtain ⟨a, hrun, hlength⟩ : ∃ a,
      (Activation.start fun _ => 0).run callingStore [.call 0 0x100000, .direct 1, .ret] = some a
      ∧ a.entries.length = 2 :=
    ⟨_, rfl, rfl⟩
  refine ⟨a, hrun, hlength, (stackLimits_agree_iff callingStore_laidOut hrun).1 ?_⟩
  refine ⟨fun _ h => (by cases h), fun a₁ h₁ => ?_⟩
  obtain rfl := Option.some_inj.1 h₁
  refine ⟨fun vmctx h => ?_, fun _ _ => ⟨fun _ h => (by cases h), fun _ _ => trivial⟩⟩
  obtain rfl := Option.some_inj.1 h
  exact ⟨_, rfl, rfl⟩

end Example

end K23VM
