import K23VM.Proofs.Compile

/-!
# The run of the text section builder

Linking runs the builder of the text section: it appends the outputs one after the other, each
followed by the calls that resolve its relocations.  The places of the outputs are the offsets that
`append` returned in this run, `AppendedAt`, and linking locates each output at its own,
`linkAndFinish_locs`.
-/

namespace K23VM.Compile

variable {σ : Type}

namespace TextSectionBuilder

/-- The text section after a call that resolves a relocation. -/
def resolve (tb : TextSectionBuilder σ) (s : σ) (c : ResolveCall) : σ :=
  (tb.resolveReloc s c.offset c.kind c.addend c.target).2

/-- A run of the builder that appends outputs, each followed by the calls given for it: the offsets
that `append` returned, and the text section at the end. -/
def run (tb : TextSectionBuilder σ) : σ → List (CompileOutput × List ResolveCall) → List ℕ × σ
  | s, [] => ([], s)
  | s, (o, calls) :: rest =>
    let (off, s) := tb.append s o.function.buffer o.function.alignment
    let (offs, s) := tb.run (calls.foldl tb.resolve s) rest
    (off :: offs, s)

theorem run_append (tb : TextSectionBuilder σ) : ∀ (xs ys : List (CompileOutput × List ResolveCall))
    (s : σ), tb.run s (xs ++ ys)
      = ((tb.run s xs).1 ++ (tb.run (tb.run s xs).2 ys).1, (tb.run (tb.run s xs).2 ys).2)
  | [], _, _ => rfl
  | (o, calls) :: xs, ys, s => by
    simp only [List.cons_append, run, run_append tb xs ys]

end TextSectionBuilder

/-- The run of the builder from an empty text section, for the outputs and the calls that linking
made for them. -/
def textRun (tb : TextSectionBuilder σ) (outputs : List CompileOutput)
    (calls : List (List ResolveCall)) : List ℕ × σ :=
  tb.run tb.init (outputs.zip calls)

/-- The linked text is the one of the run of the builder, in which `append` returned the offset `off`
for the output at the position `p`. -/
structure AppendedAt (tb : TextSectionBuilder σ) (outputs : List CompileOutput) (linked : Linked)
    (p off : ℕ) : Prop where
  calls : linked.calls.length = outputs.length
  text : linked.text = tb.finish (textRun tb outputs linked.calls).2
  offset : (textRun tb outputs linked.calls).1[p]? = some off

/-! ## Linking an output -/

section Run

variable {tb : TextSectionBuilder σ} {debug : Bool} {indices : Indices} {m : ModuleFunctions}

/-- Where the builder puts the code of an output, from the state `text`. -/
def locOf (tb : TextSectionBuilder σ) (text : σ) (o : CompileOutput) : FunctionLoc :=
  ⟨(tb.append text o.function.buffer o.function.alignment).1, o.function.buffer.length⟩

theorem linkOutput_cases {s s' : LinkState σ} {o : CompileOutput}
    (h : linkOutput debug tb indices m s o = .ok s') :
    ∃ relocs text calls infos traps, o.function.relocations = .ok relocs
      ∧ resolveRelocs debug tb indices m (locOf tb s.text o).start
        (tb.append s.text o.function.buffer o.function.alignment).2 relocs = .ok (text, calls)
      ∧ o.function.traps = .ok infos
      ∧ s.traps.pushTraps debug (locOf tb s.text o) infos = .ok traps
      ∧ s' = ⟨text, traps, s.locs ++ [locOf tb s.text o], s.calls ++ [calls]⟩ := by
  unfold linkOutput at h
  obtain ⟨relocs, hrelocs, h⟩ := bind_eq_ok.1 h
  obtain ⟨⟨text, calls⟩, hres, h⟩ := bind_eq_ok.1 h
  obtain ⟨start, hstart, h⟩ := bind_eq_ok.1 h
  obtain ⟨length, hlength, h⟩ := bind_eq_ok.1 h
  obtain ⟨infos, hinfos, h⟩ := bind_eq_ok.1 h
  obtain ⟨traps, htraps, h⟩ := bind_eq_ok.1 h
  obtain rfl := Except.ok.inj h
  obtain ⟨-, rfl⟩ := toU32_eq_ok.1 hstart
  obtain ⟨-, rfl⟩ := toU32_eq_ok.1 hlength
  exact ⟨relocs, text, calls, infos, traps, hrelocs, hres, hinfos, htraps, rfl⟩

/-- The text section after resolving relocations is the one after the recorded calls. -/
theorem resolveRelocs_text {debug : Bool} {off : ℕ} : ∀ {relocs : List Relocation} {s s' : σ}
    {calls : List ResolveCall}, resolveRelocs debug tb indices m off s relocs = .ok (s', calls) →
    s' = calls.foldl tb.resolve s
  | [], s, s', calls, h => by
    obtain ⟨rfl, rfl⟩ := Prod.mk.inj (Except.ok.inj h)
    rfl
  | r :: relocs, s, s', calls, h => by
    unfold resolveRelocs at h
    obtain ⟨target, -, h⟩ := bind_eq_ok.1 h
    cases debug with
    | false => exact resolveRelocs_text h
    | true =>
      simp only [if_true] at h
      obtain ⟨pos, -, h⟩ := bind_eq_ok.1 h
      obtain ⟨_, -, h⟩ := bind_eq_ok.1 h
      obtain ⟨⟨s₁, calls₁⟩, h₁, h⟩ := bind_eq_ok.1 h
      obtain ⟨rfl, rfl⟩ := Prod.mk.inj (Except.ok.inj h)
      have htext := resolveRelocs_text h₁
      exact htext

/-! ## Linking all outputs -/

/-- The outputs that are linked so far are where the run of the builder put them. -/
structure Ran (tb : TextSectionBuilder σ) (done : List CompileOutput) (s : LinkState σ) : Prop where
  calls : s.calls.length = done.length
  text : (textRun tb done s.calls).2 = s.text
  starts : (textRun tb done s.calls).1 = s.locs.map FunctionLoc.start
  lengths : s.locs.map FunctionLoc.length = done.map (·.function.buffer.length)

theorem linkOutput_ran {done : List CompileOutput} {o : CompileOutput} {s s' : LinkState σ}
    (h : linkOutput debug tb indices m s o = .ok s') (hs : Ran tb done s) :
    Ran tb (done ++ [o]) s' := by
  obtain ⟨relocs, text, calls, infos, traps, -, hres, -, -, rfl⟩ := linkOutput_cases h
  obtain rfl := resolveRelocs_text hres
  have hrun : textRun tb (done ++ [o]) (s.calls ++ [calls])
      = ((textRun tb done s.calls).1 ++ [(locOf tb s.text o).start],
        calls.foldl tb.resolve (tb.append s.text o.function.buffer o.function.alignment).2) := by
    unfold textRun
    rw [List.zip_append hs.calls.symm, TextSectionBuilder.run_append]
    change ((textRun tb done s.calls).1 ++ _, _) = _
    rw [show (tb.run tb.init (done.zip s.calls)).2 = s.text from hs.text]
    rfl
  refine ⟨by simp [hs.calls], ?_, ?_, by simp [hs.lengths, locOf]⟩
  · rw [hrun]
  · rw [hrun, hs.starts, List.map_append]
    rfl

theorem foldlM_linkOutput_ran : ∀ {rest done : List CompileOutput} {s s' : LinkState σ},
    rest.foldlM (linkOutput debug tb indices m) s = .ok s' → Ran tb done s →
    Ran tb (done ++ rest) s'
  | [], done, s, s', h, hs => by
    obtain rfl := Except.ok.inj h
    rwa [List.append_nil]
  | o :: rest, done, s, s', h, hs => by
    rw [List.foldlM_cons] at h
    obtain ⟨s₁, h₁, h⟩ := bind_eq_ok.1 h
    have := foldlM_linkOutput_ran h (linkOutput_ran h₁ hs)
    rwa [List.append_assoc] at this

/-- Linking locates each output at the offset that `append` returned for it. -/
theorem linkAndFinish_locs {u : UnlinkedCompileOutputs} {linked : Linked}
    (h : linkAndFinish debug tb m u = .ok linked) {p : ℕ} {o : CompileOutput}
    (ho : u.outputs[p]? = some o) {loc : FunctionLoc} :
    linked.locs[p]? = some loc ↔
      AppendedAt tb u.outputs linked p loc.start ∧ loc.length = o.function.buffer.length := by
  unfold linkAndFinish at h
  obtain ⟨s, hs, h⟩ := bind_eq_ok.1 h
  obtain ⟨funcs, -, h⟩ := bind_eq_ok.1 h
  obtain rfl := Except.ok.inj h
  have hran : Ran tb ([] ++ u.outputs) s := foldlM_linkOutput_ran hs ⟨rfl, rfl, rfl, rfl⟩
  rw [List.nil_append] at hran
  have hstart := congrArg (fun l : List ℕ => l[p]?) hran.starts
  have hlength := congrArg (fun l : List ℕ => l[p]?) hran.lengths
  simp only [List.getElem?_map, ho, Option.map_some] at hstart hlength
  constructor
  · intro hloc
    rw [hloc] at hstart hlength
    exact ⟨⟨hran.calls, congrArg tb.finish hran.text.symm, hstart⟩, Option.some_inj.1 hlength⟩
  · rintro ⟨⟨-, -, hoff⟩, hlen⟩
    obtain ⟨loc', hloc', heq⟩ := Option.map_eq_some_iff.1 (hstart.symm.trans hoff)
    rw [hloc'] at hlength
    have : loc' = loc := by
      obtain ⟨start, length⟩ := loc
      obtain ⟨start', length'⟩ := loc'
      obtain rfl : start' = start := heq
      obtain rfl : length' = length := (Option.some_inj.1 hlength).trans hlen.symm
      rfl
    exact this ▸ hloc'

end Run

end K23VM.Compile
