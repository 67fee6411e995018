import K23VM.Translate.ModuleTranslator
import Mathlib.Tactic

/-!
# What a translation adds to a module

`Extends t c t'` says what a part of a translation adds to the module, where `c` counts what was met in
the binary.  The parts compose, `Extends.trans`, so that there is one lemma for each kind of item and
`translatePayloads_extends` for a whole run.  A function that has been flagged keeps its number, and
the numbers of the flagged functions are those below their count, `Numbered`.
-/

namespace K23VM

open Wasmparser (BinaryReaderError SectionReader Payload Validator ValidatorTypes)

/-! ## Contributions -/

/-- What a part of a binary contributes to the module. -/
structure Contribution where
  signatures : List ℕ := []
  tables : ℕ := 0
  memories : ℕ := 0
  globals : ℕ := 0
  imports : List Wasmparser.Import := []
  bodies : List Wasmparser.FunctionBody := []
  escaped : List ℕ := []

namespace Contribution

instance : Append Contribution where
  append c d :=
    ⟨c.signatures ++ d.signatures, c.tables + d.tables, c.memories + d.memories,
      c.globals + d.globals, c.imports ++ d.imports, c.bodies ++ d.bodies, c.escaped ++ d.escaped⟩

/-- The contributions of a list of parts. -/
def concat {α : Type} (f : α → Contribution) : List α → Contribution
  | [] => {}
  | x :: xs => f x ++ concat f xs

section Append

variable (c d : Contribution)

@[simp] theorem signatures_append : (c ++ d).signatures = c.signatures ++ d.signatures := rfl
@[simp] theorem tables_append : (c ++ d).tables = c.tables + d.tables := rfl
@[simp] theorem memories_append : (c ++ d).memories = c.memories + d.memories := rfl
@[simp] theorem globals_append : (c ++ d).globals = c.globals + d.globals := rfl
@[simp] theorem imports_append : (c ++ d).imports = c.imports ++ d.imports := rfl
@[simp] theorem bodies_append : (c ++ d).bodies = c.bodies ++ d.bodies := rfl
@[simp] theorem escaped_append : (c ++ d).escaped = c.escaped ++ d.escaped := rfl

@[simp] theorem append_empty : c ++ ({} : Contribution) = c := by
  show Contribution.mk _ _ _ _ _ _ _ = c
  simp

end Append

end Contribution

/-- The functions that the `ref.func` operators of a constant expression name. -/
def Wasmparser.ConstExpr.refFuncs (expr : Wasmparser.ConstExpr) : List ℕ :=
  expr.items.filterMap fun
    | (.refFunc functionIndex, _) => some functionIndex
    | _ => none

def Wasmparser.Import.contribution (i : Wasmparser.Import) : Contribution :=
  match i.ty with
  | .func index => { signatures := [index], imports := [i] }
  | .table _ => { tables := 1, imports := [i] }
  | .memory _ => { memories := 1, imports := [i] }
  | .global _ => { globals := 1, imports := [i] }
  | .tag => { imports := [i] }

def Wasmparser.Table.refFuncs (table : Wasmparser.Table) : List ℕ :=
  match table.init with
  | .refNull => []
  | .expr expr => expr.refFuncs

/-- The functions in the expressions of an element segment; a list of functions has none. -/
def Wasmparser.ElementItems.refFuncs : Wasmparser.ElementItems → List ℕ
  | .functions _ => []
  | .expressions exprs => exprs.items.flatMap Wasmparser.ConstExpr.refFuncs

def Wasmparser.Export.funcs (e : Wasmparser.Export) : List ℕ :=
  match e.kind with
  | .func => [e.index]
  | _ => []

namespace Wasmparser.Payload

/-- What a payload contributes; the functions that are flagged are those of exports and of `ref.func`
operators. -/
def contribution : Payload → Contribution
  | .importSection imports => .concat Import.contribution imports.items
  | .functionSection functions => .concat (fun i => { signatures := [i] }) functions.items
  | .tableSection tables =>
    .concat (fun t => { tables := 1, escaped := t.refFuncs }) tables.items
  | .memorySection memories => .concat (fun _ => { memories := 1 }) memories.items
  | .globalSection globals =>
    .concat (fun g => { globals := 1, escaped := g.initExpr.refFuncs }) globals.items
  | .exportSection exports => .concat (fun e => { escaped := e.funcs }) exports.items
  | .elementSection elements => .concat (fun e => { escaped := e.items.refFuncs }) elements.items
  | .codeSectionEntry body => { bodies := [body] }
  | _ => {}

end Wasmparser.Payload

/-! ## Flagging -/

namespace ModuleTranslator

/-- The function has been flagged. -/
def Escaping (m : TranslatedModule) (f : ℕ) : Prop :=
  ∃ d, m.functions[f]? = some d ∧ d.isEscaping

/-- The numbers of the flagged functions are those below their count, each once. -/
structure Numbered (m : TranslatedModule) : Prop where
  lt : ∀ (f : ℕ) d, m.functions[f]? = some d → d.isEscaping → d.funcRef < m.numEscapedFunctions
  onto : ∀ n < m.numEscapedFunctions, ∃ (f : ℕ) (d : FunctionDesc),
    m.functions[f]? = some d ∧ d.isEscaping ∧ d.funcRef = n
  inj : ∀ (f g : ℕ) d e, m.functions[f]? = some d → m.functions[g]? = some e → d.isEscaping →
    d.funcRef = e.funcRef → f = g

/-- What changes of the functions of a module where `escaped` are flagged and functions with the
signatures `new` are added. -/
structure Flags (m : TranslatedModule) (new escaped : List ℕ) (m' : TranslatedModule) : Prop where
  signatures : m'.functions.map FunctionDesc.signature
    = m.functions.map FunctionDesc.signature ++ new
  kept : ∀ (f : ℕ) d, m.functions[f]? = some d → d.isEscaping → m'.functions[f]? = some d
  escaping : ∀ f, Escaping m' f ↔ Escaping m f ∨ f ∈ escaped
  numbered : Numbered m → Numbered m'

theorem Flags.trans {m m' m'' : TranslatedModule} {new new' escaped escaped' : List ℕ}
    (h : Flags m new escaped m') (h' : Flags m' new' escaped' m'') :
    Flags m (new ++ new') (escaped ++ escaped') m'' where
  signatures := by rw [h'.signatures, h.signatures, List.append_assoc]
  kept f d hd he := h'.kept f d (h.kept f d hd he) he
  escaping f := by rw [h'.escaping, h.escaping, List.mem_append, or_assoc]
  numbered hn := h'.numbered (h.numbered hn)

theorem Flags.of_functions_eq {m m' : TranslatedModule} (hf : m'.functions = m.functions)
    (hn : m'.numEscapedFunctions = m.numEscapedFunctions) : Flags m [] [] m' where
  signatures := by rw [hf, List.append_nil]
  kept f d hd _ := by rwa [hf]
  escaping f := by simp [Escaping, hf]
  numbered h := ⟨by rw [hf, hn]; exact h.lt, by rw [hf, hn]; exact h.onto, by rw [hf]; exact h.inj⟩

theorem Flags.congr {m m' n n' : TranslatedModule} {new escaped : List ℕ}
    (h : Flags m new escaped m') (hf : n.functions = m.functions)
    (hn : n.numEscapedFunctions = m.numEscapedFunctions) (hf' : n'.functions = m'.functions)
    (hn' : n'.numEscapedFunctions = m'.numEscapedFunctions) : Flags n new escaped n' where
  signatures := by rw [hf', hf, h.signatures]
  kept f d hd he := by
    rw [hf] at hd
    rw [hf', h.kept f d hd he]
  escaping f := by
    have := h.escaping f
    unfold Escaping at this ⊢
    rw [hf', hf, this]
  numbered hnum := (of_functions_eq hf' hn').numbered
    (h.numbered ((of_functions_eq hf.symm hn.symm).numbered hnum))

/-- Functions are added without a number. -/
theorem Flags.append {m m' : TranslatedModule} {index : ℕ}
    (hf : m'.functions = m.functions ++ [⟨index, FUNC_REF_RESERVED⟩])
    (hn : m'.numEscapedFunctions = m.numEscapedFunctions) : Flags m [index] [] m' := by
  have hkept : ∀ (f : ℕ) d, m.functions[f]? = some d → m'.functions[f]? = some d := by
    intro f d hd
    rw [hf, List.getElem?_append_left (List.getElem?_eq_some_iff.1 hd).1, hd]
  have hold : ∀ (f : ℕ) d, m'.functions[f]? = some d → d.isEscaping = true →
      m.functions[f]? = some d := by
    intro f d hd he
    rw [hf, List.getElem?_append] at hd
    split_ifs at hd with hlt
    · exact hd
    · obtain rfl := List.mem_singleton.1 (List.mem_of_getElem? hd)
      simp [FunctionDesc.isEscaping] at he
  refine ⟨by simp [hf], fun f d hd _ => hkept f d hd, fun f => ?_, fun h => ⟨?_, ?_, ?_⟩⟩
  · simp only [List.not_mem_nil, or_false]
    exact ⟨fun ⟨d, hd, he⟩ => ⟨d, hold f d hd he, he⟩, fun ⟨d, hd, he⟩ => ⟨d, hkept f d hd, he⟩⟩
  · intro f d hd he
    rw [hn]
    exact h.lt f d (hold f d hd he) he
  · intro n hlt
    obtain ⟨f, d, hd, he, hnum⟩ := h.onto n (hn ▸ hlt)
    exact ⟨f, d, hkept f d hd, he, hnum⟩
  · intro f g d e hd he hesc heq
    have hesc' : e.isEscaping = true := by
      unfold FunctionDesc.isEscaping at hesc ⊢
      rwa [← heq]
    exact h.inj f g d e (hold f d hd hesc) (hold g e he hesc') hesc heq

theorem flagFuncAsEscaped_cases {t t' : ModuleTranslator} {f : ℕ}
    (h : t.flagFuncAsEscaped f = .ok t') :
    Escaping t.module f ∧ t' = t
      ∨ ∃ ty, t.module.functions[f]? = some ty ∧ ty.isEscaping = false
        ∧ t.module.numEscapedFunctions < FUNC_REF_RESERVED
        ∧ t' = { t with module := { t.module with
            functions := t.module.functions.set f { ty with funcRef := t.module.numEscapedFunctions }
            numEscapedFunctions := t.module.numEscapedFunctions + 1 } } := by
  unfold flagFuncAsEscaped at h
  obtain ⟨ty, hty, h⟩ := bind_eq_ok.1 h
  rw [unwrap_eq_ok] at hty
  split_ifs at h with hesc
  · exact .inl ⟨⟨ty, hty, hesc⟩, (Except.ok.inj h).symm⟩
  · obtain ⟨n, hn, h⟩ := bind_eq_ok.1 h
    unfold addU32OrPanic at hn
    split_ifs at hn with hlt
    obtain rfl := Except.ok.inj hn
    refine .inr ⟨ty, hty, by simpa using hesc, ?_, (Except.ok.inj h).symm⟩
    unfold FUNC_REF_RESERVED
    omega

/-- A function that is flagged for the first time gets the next number. -/
theorem Flags.set {m : TranslatedModule} {f : ℕ} {ty : FunctionDesc}
    (hty : m.functions[f]? = some ty) (hesc : ty.isEscaping = false)
    (hlt : m.numEscapedFunctions < FUNC_REF_RESERVED) :
    Flags m [] [f] { m with
      functions := m.functions.set f { ty with funcRef := m.numEscapedFunctions }
      numEscapedFunctions := m.numEscapedFunctions + 1 } := by
  have hflt := (List.getElem?_eq_some_iff.1 hty).1
  have hnew : ({ ty with funcRef := m.numEscapedFunctions } : FunctionDesc).isEscaping = true := by
    simp [FunctionDesc.isEscaping, hlt.ne]
  have hself : (m.functions.set f { ty with funcRef := m.numEscapedFunctions })[f]?
      = some { ty with funcRef := m.numEscapedFunctions } := by
    rw [List.getElem?_set_self hflt]
  have hne : ∀ g d, m.functions[g]? = some d → d.isEscaping = true → g ≠ f := by
    rintro g d hd he rfl
    rw [hty, Option.some_inj] at hd
    rw [← hd, hesc] at he
    cases he
  have hother : ∀ g, g ≠ f → (m.functions.set f { ty with funcRef := m.numEscapedFunctions })[g]?
      = m.functions[g]? := fun g hg => List.getElem?_set_ne (Ne.symm hg)
  refine ⟨?_, fun g d hd he => (hother g (hne g d hd he)).trans hd, fun g => ?_,
    fun h => ⟨?_, ?_, ?_⟩⟩
  · obtain ⟨hflt, rfl⟩ := List.getElem?_eq_some_iff.1 hty
    rw [List.map_set, List.append_nil]
    show (m.functions.map FunctionDesc.signature).set f m.functions[f].signature = _
    have hsig : f < (m.functions.map FunctionDesc.signature).length := by simpa using hflt
    rw [← List.getElem_map FunctionDesc.signature (h := hsig), List.set_getElem_self]
  · by_cases hg : g = f
    · subst hg
      simp only [List.mem_singleton, or_true, iff_true]
      exact ⟨_, hself, hnew⟩
    · simp [Escaping, hother g hg, hg]
  · intro g d hd he
    by_cases hg : g = f
    · subst hg
      rw [hself, Option.some_inj] at hd
      rw [← hd]
      exact Nat.lt_succ_self _
    · rw [hother g hg] at hd
      exact (h.lt g d hd he).trans (Nat.lt_succ_self _)
  · intro n hn
    rcases Nat.lt_succ_iff_lt_or_eq.1 hn with hn | rfl
    · obtain ⟨g, d, hd, he, hnum⟩ := h.onto n hn
      exact ⟨g, d, (hother g (hne g d hd he)).trans hd, he, hnum⟩
    · exact ⟨f, _, hself, hnew, rfl⟩
  · -- The new number is larger than all others.
    have hlarge : ∀ g e, g ≠ f → m.functions[g]? = some e → e.funcRef ≠ m.numEscapedFunctions := by
      intro g e hg he heq
      have hesc' : e.isEscaping = true := by simp [FunctionDesc.isEscaping, heq, hlt.ne]
      exact absurd (h.lt g e he hesc') (by omega)
    intro g g' d e hd he hesc' heq
    by_cases hg : g = f <;> by_cases hg' : g' = f
    · rw [hg, hg']
    · subst hg
      rw [hself, Option.some_inj] at hd
      rw [hother g' hg'] at he
      rw [← hd] at heq
      exact absurd heq.symm (hlarge g' e hg' he)
    · subst hg'
      rw [hself, Option.some_inj] at he
      rw [hother g hg] at hd
      rw [← he] at heq
      exact absurd heq (hlarge g d hg hd)
    · rw [hother g hg] at hd
      rw [hother g' hg'] at he
      exact h.inj g g' d e hd he hesc' heq

/-- Flagging changes only the functions and their count. -/
def SameButFlags (t t' : ModuleTranslator) : Prop :=
  ∃ functions numEscapedFunctions, t' =
    { t with module := { t.module with functions, numEscapedFunctions } }

theorem flagFuncAsEscaped_flags {t t' : ModuleTranslator} {f : ℕ}
    (h : t.flagFuncAsEscaped f = .ok t') :
    SameButFlags t t' ∧ Flags t.module [] [f] t'.module := by
  rcases flagFuncAsEscaped_cases h with ⟨hesc, rfl⟩ | ⟨ty, hty, hesc, hlt, rfl⟩
  · refine ⟨⟨_, _, rfl⟩, ⟨by simp, fun _ _ hd _ => hd, fun g => ?_, id⟩⟩
    constructor
    · exact .inl
    · rintro (h | h)
      · exact h
      · exact List.mem_singleton.1 h ▸ hesc
  · exact ⟨⟨_, _, rfl⟩, .set hty hesc hlt⟩

theorem flagEscaped_flags : ∀ {escaped : List ℕ} {t t' : ModuleTranslator},
    t.flagEscaped escaped = .ok t' → SameButFlags t t' ∧ Flags t.module [] escaped t'.module
  | [], t, t', h => by
    obtain rfl := Except.ok.inj h
    exact ⟨⟨_, _, rfl⟩, .of_functions_eq rfl rfl⟩
  | f :: escaped, t, t', h => by
    unfold flagEscaped at h
    rw [List.foldlM_cons] at h
    obtain ⟨t₁, h₁, h⟩ := bind_eq_ok.1 h
    obtain ⟨⟨fs, n, rfl⟩, hflags⟩ := flagFuncAsEscaped_flags h₁
    obtain ⟨⟨fs', n', rfl⟩, hflags'⟩ := flagEscaped_flags h
    exact ⟨⟨_, _, rfl⟩, hflags.trans hflags'⟩

/-! ## Parts of a translation -/

/-- The import of the module for the one that was read. -/
def Declares (i : Wasmparser.Import) (i' : Import) : Prop :=
  i'.module = i.module ∧ i'.name = i.name
    ∧ match i.ty, i'.ty with
      | .func _, .function _ | .table _, .table _ | .memory _, .memory _ | .global _, .global _ => True
      | _, _ => False

/-- The imports are counted by kind. -/
structure Counts (m : TranslatedModule) (imports : List Wasmparser.Import) (m' : TranslatedModule) :
    Prop where
  functions : m'.numImportedFunctions = m.numImportedFunctions + imports.countP (·.ty.isFunc)
  tables : m'.numImportedTables = m.numImportedTables + imports.countP (·.ty.isTable)
  memories : m'.numImportedMemories = m.numImportedMemories + imports.countP (·.ty.isMemory)
  globals : m'.numImportedGlobals = m.numImportedGlobals + imports.countP (·.ty.isGlobal)

theorem Counts.trans {m m' m'' : TranslatedModule} {l l' : List Wasmparser.Import}
    (h : Counts m l m') (h' : Counts m' l' m'') : Counts m (l ++ l') m'' where
  functions := by rw [h'.functions, h.functions, List.countP_append, Nat.add_assoc]
  tables := by rw [h'.tables, h.tables, List.countP_append, Nat.add_assoc]
  memories := by rw [h'.memories, h.memories, List.countP_append, Nat.add_assoc]
  globals := by rw [h'.globals, h.globals, List.countP_append, Nat.add_assoc]

/-- A list is extended by `n` elements. -/
def Grows {α : Type} (l : List α) (n : ℕ) (l' : List α) : Prop := ∃ new, l' = l ++ new ∧ new.length = n

theorem Grows.trans {α : Type} {l l' l'' : List α} {n n' : ℕ} (h : Grows l n l')
    (h' : Grows l' n' l'') : Grows l (n + n') l'' := by
  obtain ⟨new, rfl, rfl⟩ := h
  obtain ⟨new', rfl, rfl⟩ := h'
  exact ⟨new ++ new', by rw [List.append_assoc], by rw [List.length_append]⟩

theorem Grows.refl {α : Type} (l : List α) : Grows l 0 l := ⟨[], by simp, rfl⟩

theorem Grows.push {α : Type} (l : List α) (x : α) : Grows l 1 (l ++ [x]) := ⟨[x], rfl, rfl⟩

/-- Each table and each global of the module is imported or has an initial value. -/
def Initialized (m : TranslatedModule) : Prop :=
  m.tables.length = m.numImportedTables + m.tableInitializers.initialValues.length
    ∧ m.globals.length = m.numImportedGlobals + m.globalInitializers.length

/-- What a part of a translation does. -/
structure Extends (t : ModuleTranslator) (c : Contribution) (t' : ModuleTranslator) : Prop where
  flags : Flags t.module c.signatures c.escaped t'.module
  tables : Grows t.module.tables c.tables t'.module.tables
  memories : Grows t.module.memories c.memories t'.module.memories
  globals : Grows t.module.globals c.globals t'.module.globals
  imports : ∃ new, t'.module.imports = t.module.imports ++ new
    ∧ List.Forall₂ Declares c.imports new
  counts : Counts t.module c.imports t'.module
  bodies : t'.functionBodies = t.functionBodies ++ c.bodies
  initialized : Initialized t.module → Initialized t'.module

theorem Extends.trans {t t' t'' : ModuleTranslator} {c c' : Contribution} (h : Extends t c t')
    (h' : Extends t' c' t'') : Extends t (c ++ c') t'' where
  flags := h.flags.trans h'.flags
  tables := h.tables.trans h'.tables
  memories := h.memories.trans h'.memories
  globals := h.globals.trans h'.globals
  imports := by
    obtain ⟨new, hnew, hdecl⟩ := h.imports
    obtain ⟨new', hnew', hdecl'⟩ := h'.imports
    exact ⟨new ++ new', by rw [hnew', hnew, List.append_assoc], List.rel_append hdecl hdecl'⟩
  counts := h.counts.trans h'.counts
  bodies := by rw [h'.bodies, h.bodies, List.append_assoc]; rfl
  initialized hi := h'.initialized (h.initialized hi)

theorem Extends.refl (t : ModuleTranslator) : Extends t {} t where
  flags := .of_functions_eq rfl rfl
  tables := .refl _
  memories := .refl _
  globals := .refl _
  imports := ⟨[], by simp, .nil⟩
  counts := ⟨rfl, rfl, rfl, rfl⟩
  bodies := by simp
  initialized := id

/-- A part that leaves everything but other fields of the module as it is. -/
theorem Extends.of_eq {t t' : ModuleTranslator} (hf : t'.module.functions = t.module.functions)
    (hn : t'.module.numEscapedFunctions = t.module.numEscapedFunctions)
    (htb : t'.module.tables = t.module.tables) (hm : t'.module.memories = t.module.memories)
    (hg : t'.module.globals = t.module.globals) (hi : t'.module.imports = t.module.imports)
    (hc : Counts t.module [] t'.module) (hb : t'.functionBodies = t.functionBodies)
    (hinit : Initialized t.module → Initialized t'.module) : Extends t {} t' where
  flags := .of_functions_eq hf hn
  tables := by rw [htb]; exact .refl _
  memories := by rw [hm]; exact .refl _
  globals := by rw [hg]; exact .refl _
  imports := ⟨[], by simp [hi], .nil⟩
  counts := hc
  bodies := by simp [hb]
  initialized := hinit

theorem SameButFlags.extends {t t' : ModuleTranslator} {escaped : List ℕ} (hs : SameButFlags t t')
    (hflags : Flags t.module [] escaped t'.module) : Extends t { escaped } t' := by
  obtain ⟨fs, n, rfl⟩ := hs
  exact ⟨hflags, .refl _, .refl _, .refl _, ⟨[], by simp, .nil⟩,
    ⟨rfl, rfl, rfl, rfl⟩, by simp, id⟩

/-- A loop over the items of a section, which may keep more than the translation. -/
theorem forItems_extends {τ α : Type} {f : τ → α → Fallible Error τ} (π : τ → ModuleTranslator)
    {g : α → Contribution} (hf : ∀ s x s',
      f s x = (.ok (.ok s') : Except Fault (Except Error _)) → Extends (π s) (g x) (π s')) :
    ∀ {xs : SectionReader α} {s s' : τ},
    forItems f s xs = (.ok (.ok s') : Except Fault (Except Error _)) →
    Extends (π s) (.concat g xs.items) (π s')
  | [], s, s', h => by
    obtain rfl := Except.ok.inj (Except.ok.inj h)
    exact .refl (π s)
  | .error e :: _, s, s', h => by cases h
  | .ok x :: xs, s, s', h => by
    unfold forItems at h
    obtain ⟨s₁, h₁, h⟩ := fallible_bind_eq_ok.1 h
    exact (hf s x s₁ h₁).trans (forItems_extends π hf h)

theorem constExpr_escaped : ∀ {expr : Wasmparser.ConstExpr} {e : ConstExpr} {escaped : List ℕ},
    ConstExpr.fromWasmparser expr = .ok (e, escaped) → escaped = expr.refFuncs
  | [], e, escaped, h => by
    obtain rfl := (Prod.mk.inj (Except.ok.inj h)).2
    rfl
  | .error _ :: _, _, _, h => by cases h
  | .ok (op, offset) :: iter, e, escaped, h => by
    unfold ConstExpr.fromWasmparser at h
    split_ifs at h with hend
    · obtain rfl := (Prod.mk.inj (Except.ok.inj h)).2
      obtain ⟨rfl, hiter⟩ := hend
      rw [List.isEmpty_iff] at hiter
      rw [hiter]
      rfl
    · obtain ⟨constOp, -, h⟩ := bind_eq_ok.1 h
      obtain ⟨⟨e', escaped'⟩, h', h⟩ := bind_eq_ok.1 h
      obtain rfl := (Prod.mk.inj (Except.ok.inj h)).2
      rw [constExpr_escaped h']
      cases op <;> rfl

/-- An import adds an entity of its kind and itself. -/
theorem translateImport_cases {t t' : ModuleTranslator} {i : Wasmparser.Import}
    (h : t.translateImport i = (.ok (.ok t') : Except Fault (Except Error _))) :
    (∃ index interned, i.ty = .func index ∧ t' = { t with module := { t.module with
        numImportedFunctions := t.module.numImportedFunctions + 1
        functions := t.module.functions ++ [⟨index, FUNC_REF_RESERVED⟩]
        imports := t.module.imports ++ [⟨i.module, i.name, .function (.module interned)⟩] } })
    ∨ (∃ ty table, i.ty = .table ty ∧ t' = { t with module := { t.module with
        numImportedTables := t.module.numImportedTables + 1
        tables := t.module.tables ++ [table]
        imports := t.module.imports ++ [⟨i.module, i.name, .table table⟩] } })
    ∨ (∃ ty memory, i.ty = .memory ty ∧ t' = { t with module := { t.module with
        numImportedMemories := t.module.numImportedMemories + 1
        memories := t.module.memories ++ [memory]
        imports := t.module.imports ++ [⟨i.module, i.name, .memory memory⟩] } })
    ∨ ∃ ty global, i.ty = .global ty ∧ t' = { t with module := { t.module with
        numImportedGlobals := t.module.numImportedGlobals + 1
        globals := t.module.globals ++ [global]
        imports := t.module.imports ++ [⟨i.module, i.name, .global global⟩] } } := by
  unfold translateImport at h
  obtain ⟨⟨m, ty⟩, hm, h⟩ := fallible_bind_eq_ok.1 h
  obtain rfl := Except.ok.inj (Except.ok.inj h)
  replace hm := fallible_lift_eq_ok hm
  unfold importEntity at hm
  rcases hty : i.ty with index | tty | mty | gty | _ <;> rw [hty] at hm
  · obtain ⟨n, hn, hm⟩ := bind_eq_ok.1 hm
    obtain ⟨interned, -, hm⟩ := bind_eq_ok.1 hm
    obtain ⟨rfl, rfl⟩ := Prod.mk.inj (Except.ok.inj hm)
    obtain ⟨-, rfl⟩ := addU32OrPanic_eq_ok.1 hn
    exact .inl ⟨index, interned, rfl, rfl⟩
  · obtain ⟨n, hn, hm⟩ := bind_eq_ok.1 hm
    obtain ⟨table, -, hm⟩ := bind_eq_ok.1 hm
    obtain ⟨rfl, rfl⟩ := Prod.mk.inj (Except.ok.inj hm)
    obtain ⟨-, rfl⟩ := addU32OrPanic_eq_ok.1 hn
    exact .inr (.inl ⟨tty, table, rfl, rfl⟩)
  · obtain ⟨n, hn, hm⟩ := bind_eq_ok.1 hm
    obtain ⟨memory, -, hm⟩ := bind_eq_ok.1 hm
    obtain ⟨rfl, rfl⟩ := Prod.mk.inj (Except.ok.inj hm)
    obtain ⟨-, rfl⟩ := addU32OrPanic_eq_ok.1 hn
    exact .inr (.inr (.inl ⟨mty, memory, rfl, rfl⟩))
  · obtain ⟨n, hn, hm⟩ := bind_eq_ok.1 hm
    obtain ⟨global, -, hm⟩ := bind_eq_ok.1 hm
    obtain ⟨rfl, rfl⟩ := Prod.mk.inj (Except.ok.inj hm)
    obtain ⟨-, rfl⟩ := addU32OrPanic_eq_ok.1 hn
    exact .inr (.inr (.inr ⟨gty, global, rfl, rfl⟩))
  · cases hm

theorem translateImport_extends {t t' : ModuleTranslator} {i : Wasmparser.Import}
    (h : t.translateImport i = (.ok (.ok t') : Except Fault (Except Error _))) :
    Extends t i.contribution t' := by
  obtain ⟨index, interned, hty, rfl⟩ | ⟨ty, table, hty, rfl⟩ | ⟨ty, memory, hty, rfl⟩
    | ⟨ty, global, hty, rfl⟩ := translateImport_cases h
  all_goals
    simp only [Wasmparser.Import.contribution, hty]
    have hdecl : ∀ ty, (match i.ty, ty with
        | .func _, .function _ | .table _, .table _ | .memory _, .memory _
        | .global _, .global _ => True
        | _, _ => False) → ∃ new, t.module.imports ++ [⟨i.module, i.name, ty⟩]
          = t.module.imports ++ new ∧ List.Forall₂ Declares [i] new :=
      fun ty hk => ⟨_, rfl, .cons ⟨rfl, rfl, hk⟩ .nil⟩
    have hcounts : [i].countP (·.ty.isFunc) = (if i.ty.isFunc then 1 else 0)
        ∧ [i].countP (·.ty.isTable) = (if i.ty.isTable then 1 else 0)
        ∧ [i].countP (·.ty.isMemory) = (if i.ty.isMemory then 1 else 0)
        ∧ [i].countP (·.ty.isGlobal) = (if i.ty.isGlobal then 1 else 0) := by
      simp [List.countP_cons]
    rw [hty] at hdecl hcounts
  · exact ⟨.append rfl rfl, .refl _, .refl _, .refl _, hdecl _ trivial,
      ⟨by rw [hcounts.1]; rfl, by rw [hcounts.2.1]; rfl, by rw [hcounts.2.2.1]; rfl,
        by rw [hcounts.2.2.2]; rfl⟩, by simp, id⟩
  · refine ⟨.of_functions_eq rfl rfl, .push _ _, .refl _, .refl _, hdecl _ trivial,
      ⟨by rw [hcounts.1]; rfl, by rw [hcounts.2.1]; rfl, by rw [hcounts.2.2.1]; rfl,
        by rw [hcounts.2.2.2]; rfl⟩, by simp, fun hi => ⟨?_, hi.2⟩⟩
    have := hi.1
    simp only [List.length_append, List.length_singleton]
    omega
  · exact ⟨.of_functions_eq rfl rfl, .refl _, .push _ _, .refl _, hdecl _ trivial,
      ⟨by rw [hcounts.1]; rfl, by rw [hcounts.2.1]; rfl, by rw [hcounts.2.2.1]; rfl,
        by rw [hcounts.2.2.2]; rfl⟩, by simp, id⟩
  · refine ⟨.of_functions_eq rfl rfl, .refl _, .refl _, .push _ _, hdecl _ trivial,
      ⟨by rw [hcounts.1]; rfl, by rw [hcounts.2.1]; rfl, by rw [hcounts.2.2.1]; rfl,
        by rw [hcounts.2.2.2]; rfl⟩, by simp, fun hi => ⟨hi.1, ?_⟩⟩
    have := hi.2
    simp only [List.length_append, List.length_singleton]
    omega

theorem translateFunction_extends {t t' : ModuleTranslator} {index : ℕ}
    (h : t.translateFunction index = (.ok (.ok t') : Except Fault (Except Error _))) :
    Extends t { signatures := [index] } t' := by
  obtain rfl := Except.ok.inj (Except.ok.inj h)
  exact ⟨.append rfl rfl, .refl _, .refl _, .refl _, ⟨[], by simp, .nil⟩,
    ⟨rfl, rfl, rfl, rfl⟩, by simp, id⟩

theorem translateTable_extends {t t' : ModuleTranslator} {table : Wasmparser.Table}
    (h : t.translateTable table = (.ok (.ok t') : Except Fault (Except Error _))) :
    Extends t { tables := 1, escaped := table.refFuncs } t' := by
  unfold translateTable at h
  obtain ⟨plan, -, h⟩ := fallible_bind_eq_ok.1 h
  have hinit : ∀ m : TranslatedModule, Initialized t.module → m.tables = t.module.tables ++ [plan] →
      m.numImportedTables = t.module.numImportedTables →
      m.numImportedGlobals = t.module.numImportedGlobals → m.globals = t.module.globals →
      m.globalInitializers = t.module.globalInitializers →
      m.tableInitializers.initialValues.length
        = t.module.tableInitializers.initialValues.length + 1 → Initialized m := by
    intro m hi h₁ h₂ h₃ h₄ h₅ h₆
    have := hi.1
    refine ⟨?_, by rw [h₃, h₄, h₅]; exact hi.2⟩
    rw [h₁, h₂, h₆, List.length_append, List.length_singleton]
    omega
  unfold Wasmparser.Table.refFuncs
  rcases htb : table.init with _ | expr <;> rw [htb] at h
  · obtain rfl := Except.ok.inj (Except.ok.inj h)
    exact ⟨.of_functions_eq rfl rfl, .push _ _, .refl _, .refl _, ⟨[], by simp [pushInitialValue], .nil⟩,
      ⟨rfl, rfl, rfl, rfl⟩, by simp [pushInitialValue],
      fun hi => hinit _ hi rfl rfl rfl rfl rfl (by simp [pushInitialValue])⟩
  · obtain ⟨⟨e, escaped⟩, he, h⟩ := fallible_bind_eq_ok.1 h
    obtain ⟨t₁, h₁, h⟩ := fallible_bind_eq_ok.1 h
    obtain rfl := Except.ok.inj (Except.ok.inj h)
    obtain rfl := constExpr_escaped (Except.ok.inj he)
    obtain ⟨⟨fs, n, rfl⟩, hflags⟩ := flagEscaped_flags (fallible_lift_eq_ok h₁)
    exact ⟨hflags.congr rfl rfl rfl rfl, .push _ _, .refl _, .refl _, ⟨[], by simp [pushInitialValue], .nil⟩,
      ⟨rfl, rfl, rfl, rfl⟩, by simp [pushInitialValue],
      fun hi => hinit _ hi rfl rfl rfl rfl rfl (by simp [pushInitialValue])⟩

theorem translateMemory_extends {t t' : ModuleTranslator} {ty : WasmparserMemoryType}
    (h : t.translateMemory ty = (.ok (.ok t') : Except Fault (Except Error _))) :
    Extends t { memories := 1 } t' := by
  unfold translateMemory at h
  obtain ⟨memory, -, h⟩ := fallible_bind_eq_ok.1 h
  obtain rfl := Except.ok.inj (Except.ok.inj h)
  exact ⟨.of_functions_eq rfl rfl, .refl _, .push _ _, .refl _, ⟨[], by simp, .nil⟩,
    ⟨rfl, rfl, rfl, rfl⟩, by simp, id⟩

theorem translateGlobal_extends {t t' : ModuleTranslator} {global : Wasmparser.Global}
    (h : t.translateGlobal global = (.ok (.ok t') : Except Fault (Except Error _))) :
    Extends t { globals := 1, escaped := global.initExpr.refFuncs } t' := by
  unfold translateGlobal at h
  obtain ⟨desc, -, h⟩ := fallible_bind_eq_ok.1 h
  obtain ⟨⟨e, escaped⟩, he, h⟩ := fallible_bind_eq_ok.1 h
  obtain ⟨t₁, h₁, h⟩ := fallible_bind_eq_ok.1 h
  obtain rfl := Except.ok.inj (Except.ok.inj h)
  obtain rfl := constExpr_escaped (Except.ok.inj he)
  obtain ⟨⟨fs, n, rfl⟩, hflags⟩ := flagEscaped_flags (fallible_lift_eq_ok h₁)
  refine ⟨hflags.congr rfl rfl rfl rfl, .refl _, .refl _, .push _ _, ⟨[], by simp, .nil⟩,
    ⟨rfl, rfl, rfl, rfl⟩, by simp, fun hi => ⟨hi.1, ?_⟩⟩
  have := hi.2
  simp only [List.length_append, List.length_singleton]
  omega

theorem translateExport_extends {t t' : ModuleTranslator} {e : Wasmparser.Export}
    (h : t.translateExport e = (.ok (.ok t') : Except Fault (Except Error _))) :
    Extends t { escaped := e.funcs } t' := by
  unfold translateExport at h
  unfold Wasmparser.Export.funcs
  obtain ⟨⟨t₁, index⟩, h₁, h⟩ := fallible_bind_eq_ok.1 h
  obtain rfl := Except.ok.inj (Except.ok.inj h)
  replace h₁ := fallible_lift_eq_ok h₁
  unfold exportIndex at h₁
  rcases hk : e.kind with _ | _ | _ | _ | _ <;> rw [hk] at h₁
  · obtain ⟨t₂, h₂, h₁⟩ := bind_eq_ok.1 h₁
    obtain ⟨rfl, rfl⟩ := Prod.mk.inj (Except.ok.inj h₁)
    obtain ⟨⟨fs, n, rfl⟩, hflags⟩ := flagFuncAsEscaped_flags h₂
    exact ⟨hflags.congr rfl rfl rfl rfl, .refl _, .refl _, .refl _, ⟨[], by simp, .nil⟩,
    ⟨rfl, rfl, rfl, rfl⟩, by simp, id⟩
  all_goals
    obtain ⟨rfl, rfl⟩ := Prod.mk.inj (Except.ok.inj h₁)
    exact .of_eq rfl rfl rfl rfl rfl rfl ⟨rfl, rfl, rfl, rfl⟩ rfl id

theorem concat_escaped {α : Type} (f : α → List ℕ) : ∀ xs : List α,
    Contribution.concat (fun x => { escaped := f x }) xs = { escaped := xs.flatMap f }
  | [] => rfl
  | x :: xs => by
    rw [Contribution.concat, concat_escaped f xs]
    rfl

theorem concat_empty {α : Type} : ∀ xs : List α, Contribution.concat (fun _ => {}) xs = {}
  | [] => rfl
  | x :: xs => by
    rw [Contribution.concat, concat_empty xs]
    rfl

theorem translateElementItems_extends {t t' : ModuleTranslator} {items : Wasmparser.ElementItems}
    {elements : TableSegmentElements}
    (h : t.translateElementItems items = (.ok (.ok (t', elements)) : Except Fault (Except Error _))) :
    Extends t { escaped := items.refFuncs } t' := by
  cases items with
  | functions funcs =>
    unfold translateElementItems at h
    obtain ⟨out, -, h⟩ := fallible_bind_eq_ok.1 h
    obtain rfl := (Prod.mk.inj (Except.ok.inj (Except.ok.inj h))).1
    exact .refl t
  | expressions exprs =>
    unfold translateElementItems at h
    obtain ⟨⟨t₁, out⟩, h₁, h⟩ := fallible_bind_eq_ok.1 h
    obtain rfl := (Prod.mk.inj (Except.ok.inj (Except.ok.inj h))).1
    rw [Wasmparser.ElementItems.refFuncs, ← concat_escaped]
    refine forItems_extends Prod.fst ?_ h₁
    rintro ⟨t, out⟩ expr ⟨t₂, out₂⟩ h
    obtain ⟨⟨e, escaped⟩, he, h⟩ := fallible_bind_eq_ok.1 h
    obtain ⟨t₃, h₃, h⟩ := fallible_bind_eq_ok.1 h
    obtain rfl := (Prod.mk.inj (Except.ok.inj (Except.ok.inj h))).1
    obtain rfl := constExpr_escaped (Except.ok.inj he)
    obtain ⟨hs, hflags⟩ := flagEscaped_flags (fallible_lift_eq_ok h₃)
    exact hs.extends hflags

theorem translateElement_extends {debug : Bool} {t t' : ModuleTranslator} {n : ℕ}
    {element : Wasmparser.Element}
    (h : t.translateElement debug n element = (.ok (.ok t') : Except Fault (Except Error _))) :
    Extends t { escaped := element.items.refFuncs } t' := by
  unfold translateElement at h
  obtain ⟨i, -, h⟩ := fallible_bind_eq_ok.1 h
  obtain ⟨⟨t₁, elements⟩, h₁, h⟩ := fallible_bind_eq_ok.1 h
  have hitems := translateElementItems_extends h₁
  have hsame : ∀ t₂ : ModuleTranslator, Extends t₁ {} t₂ →
      Extends t { escaped := element.items.refFuncs } t₂ := fun t₂ h₂ => by
    simpa using hitems.trans h₂
  rcases hk : element.kind with ⟨tableIndex, offsetExpr⟩ | _ | _ <;> rw [hk] at h
  · obtain ⟨⟨offset, escaped⟩, -, h⟩ := fallible_bind_eq_ok.1 h
    obtain ⟨_, -, h⟩ := fallible_bind_eq_ok.1 h
    obtain rfl := Except.ok.inj (Except.ok.inj h)
    exact hsame _ (.of_eq rfl rfl rfl rfl rfl rfl ⟨rfl, rfl, rfl, rfl⟩ rfl id)
  · obtain rfl := Except.ok.inj (Except.ok.inj h)
    exact hsame _ (.of_eq rfl rfl rfl rfl rfl rfl ⟨rfl, rfl, rfl, rfl⟩ rfl id)
  · obtain rfl := Except.ok.inj (Except.ok.inj h)
    exact hitems

theorem translateData_extends {debug : Bool} {t t' : ModuleTranslator} {n : ℕ}
    {entry : Wasmparser.Data}
    (h : t.translateData debug n entry = (.ok (.ok t') : Except Fault (Except Error _))) :
    Extends t {} t' := by
  unfold translateData at h
  obtain ⟨i, -, h⟩ := fallible_bind_eq_ok.1 h
  rcases hk : entry.kind with ⟨memoryIndex, offsetExpr⟩ | _ <;> rw [hk] at h
  · obtain ⟨⟨offset, escaped⟩, -, h⟩ := fallible_bind_eq_ok.1 h
    obtain ⟨_, -, h⟩ := fallible_bind_eq_ok.1 h
    obtain rfl := Except.ok.inj (Except.ok.inj h)
    exact .of_eq rfl rfl rfl rfl rfl rfl ⟨rfl, rfl, rfl, rfl⟩ rfl id
  · obtain rfl := Except.ok.inj (Except.ok.inj h)
    exact .of_eq rfl rfl rfl rfl rfl rfl ⟨rfl, rfl, rfl, rfl⟩ rfl id

theorem translateName_extends {t t' : ModuleTranslator} {name : Wasmparser.Name}
    (h : t.translateName name = (.ok (.ok t') : Except Fault (Except Error _))) :
    Extends t {} t' := by
  have hskip : ∀ (t : ModuleTranslator) (names : SectionReader Unit) t',
      forItems (fun t _ => pure t) t names = (.ok (.ok t') : Except Fault (Except Error _)) →
      Extends t {} t' := by
    intro t names t' h
    rw [← concat_empty names.items]
    refine forItems_extends id (fun t _ t' h => ?_) h
    obtain rfl := Except.ok.inj (Except.ok.inj h)
    exact .refl t
  cases name with
  | module name =>
    obtain rfl := Except.ok.inj (Except.ok.inj h)
    exact .of_eq rfl rfl rfl rfl rfl rfl ⟨rfl, rfl, rfl, rfl⟩ rfl id
  | direct names => exact hskip t names t' h
  | indirect names =>
    rw [← concat_empty names.items]
    exact forItems_extends id (fun t names t' h => hskip t names t' h) h
  | unknown =>
    obtain rfl := Except.ok.inj (Except.ok.inj h)
    exact .refl t

theorem translateProducersField_extends {t t' : ModuleTranslator} {field : Wasmparser.ProducersField}
    (h : t.translateProducersField field = (.ok (.ok t') : Except Fault (Except Error _))) :
    Extends t {} t' := by
  unfold translateProducersField at h
  split_ifs at h
  · rw [← concat_empty field.values.items]
    refine forItems_extends id (fun t _ t' h => ?_) h
    obtain rfl := Except.ok.inj (Except.ok.inj h)
    exact .refl t
  · cases h

theorem translateCustomSection_extends {t t' : ModuleTranslator} {c : Wasmparser.CustomSection}
    (h : t.translateCustomSection c = (.ok (.ok t') : Except Fault (Except Error _))) :
    Extends t {} t' := by
  rcases c with read | subsections | (e | fields) | _
  · obtain ⟨_, -, h⟩ := fallible_bind_eq_ok.1 h
    obtain rfl := Except.ok.inj (Except.ok.inj h)
    exact .refl t
  · rw [← concat_empty subsections.items]
    exact forItems_extends id (fun _ _ _ => translateName_extends) h
  · cases h
  · rw [← concat_empty fields.items]
    exact forItems_extends id (fun _ _ _ => translateProducersField_extends) h
  · obtain rfl := Except.ok.inj (Except.ok.inj h)
    exact .refl t

theorem translateTypes_extends {debug : Bool} {types : Option ValidatorTypes}
    {t t' : ModuleTranslator} {count : ℕ} (h : t.translateTypes debug types count = .ok t') :
    Extends t {} t' := by
  unfold translateTypes at h
  split_ifs at h
  · obtain rfl := Except.ok.inj h
    exact .refl t
  · obtain ⟨v, -, h⟩ := bind_eq_ok.1 h
    obtain ⟨⟨types', moduleTypes⟩, -, h⟩ := bind_eq_ok.1 h
    obtain rfl := Except.ok.inj h
    exact .of_eq rfl rfl rfl rfl rfl rfl ⟨rfl, rfl, rfl, rfl⟩ rfl id

/-! ## Whole translations -/

theorem translateSection_extends {debug : Bool} {types : Option ValidatorTypes}
    {t t' : ModuleTranslator} {p : Payload}
    (h : t.translateSection debug types p = (.ok (.ok t') : Except Fault (Except Error _))) :
    Extends t p.contribution t' := by
  have hpure : (pure t : Fallible Error ModuleTranslator)
      = (.ok (.ok t') : Except Fault (Except Error _)) → Extends t {} t' := fun h => by
    obtain rfl := Except.ok.inj (Except.ok.inj h)
    exact .refl t
  cases p with
  | version | dataCountSection | codeSectionStart | end_ | unknown => exact hpure h
  | typeSection count => exact translateTypes_extends (fallible_lift_eq_ok h)
  | importSection imports =>
    exact forItems_extends (f := translateImport) id (fun _ _ _ => translateImport_extends) h
  | functionSection functions =>
    exact forItems_extends (f := translateFunction) id (fun _ _ _ => translateFunction_extends) h
  | tableSection tables =>
    exact forItems_extends (f := translateTable) id (fun _ _ _ => translateTable_extends) h
  | memorySection memories =>
    exact forItems_extends (f := translateMemory) id (fun _ _ _ => translateMemory_extends) h
  | globalSection globals =>
    exact forItems_extends (f := translateGlobal) id (fun _ _ _ => translateGlobal_extends) h
  | exportSection exports =>
    exact forItems_extends (f := translateExport) id (fun _ _ _ => translateExport_extends) h
  | startSection func =>
    obtain rfl := Except.ok.inj (Except.ok.inj h)
    exact .of_eq rfl rfl rfl rfl rfl rfl ⟨rfl, rfl, rfl, rfl⟩ rfl id
  | elementSection elements =>
    obtain ⟨⟨t₁, n⟩, h₁, h⟩ := fallible_bind_eq_ok.1 h
    obtain rfl := Except.ok.inj (Except.ok.inj h)
    refine forItems_extends Prod.fst ?_ h₁
    rintro ⟨t, n⟩ element ⟨t', n'⟩ h
    obtain ⟨t₂, h₂, h⟩ := fallible_bind_eq_ok.1 h
    obtain rfl := (Prod.mk.inj (Except.ok.inj (Except.ok.inj h))).1
    exact translateElement_extends h₂
  | dataSection data =>
    obtain ⟨⟨t₁, n⟩, h₁, h⟩ := fallible_bind_eq_ok.1 h
    obtain rfl := Except.ok.inj (Except.ok.inj h)
    rw [show Payload.contribution (.dataSection data) = {} from rfl, ← concat_empty data.items]
    refine forItems_extends Prod.fst ?_ h₁
    rintro ⟨t, n⟩ entry ⟨t', n'⟩ h
    obtain ⟨t₂, h₂, h⟩ := fallible_bind_eq_ok.1 h
    obtain rfl := (Prod.mk.inj (Except.ok.inj (Except.ok.inj h))).1
    exact translateData_extends h₂
  | codeSectionEntry body =>
    obtain rfl := Except.ok.inj (Except.ok.inj h)
    exact ⟨.of_functions_eq rfl rfl, .refl _, .refl _, .refl _, ⟨[], by simp, .nil⟩,
      ⟨rfl, rfl, rfl, rfl⟩, rfl, id⟩
  | customSection contents => exact translateCustomSection_extends h
  | tagSection => cases h
  | component => cases h

/-- The payloads are translated one after the other, each with what the validator then knows. -/
inductive Run (debug : Bool) : ModuleTranslator → List Payload → ModuleTranslator → Prop
  | nil (t : ModuleTranslator) : Run debug t [] t
  | cons {t t₁ t' : ModuleTranslator} {p : Payload} {ps : List Payload}
      (types : Option ValidatorTypes)
      (head : t.translateSection debug types p = (.ok (.ok t₁) : Except Fault (Except Error _)))
      (tail : Run debug t₁ ps t') : Run debug t (p :: ps) t'

theorem Run.extends {debug : Bool} {t t' : ModuleTranslator} {ps : List Payload}
    (h : Run debug t ps t') : Extends t (.concat Payload.contribution ps) t' := by
  induction h with
  | nil t => exact .refl t
  | cons types head _ ih => exact (translateSection_extends head).trans ih

theorem Run.of_append {debug : Bool} : ∀ {ps qs : List Payload} {t t' : ModuleTranslator},
    Run debug t (ps ++ qs) t' → ∃ t₁, Run debug t ps t₁ ∧ Run debug t₁ qs t'
  | [], _, t, _, h => ⟨t, .nil t, h⟩
  | _ :: _, _, _, _, .cons types head tail => by
    obtain ⟨t₁, h₁, h₂⟩ := of_append tail
    exact ⟨t₁, .cons types head h₁, h₂⟩

section Translate

variable {σ : Type} {V : Validator σ} {debug : Bool}

theorem translatePayloads_run : ∀ {payloads : List (Except BinaryReaderError Payload)} {v v' : σ}
    {t t' : ModuleTranslator}, translatePayloads V debug v t payloads = .ok (.ok t', v') →
    ∃ ps : List Payload, payloads = ps.map .ok ∧ Run debug t ps t'
  | [], v, v', t, t', h => by
    obtain ⟨ht, -⟩ := Prod.mk.inj (Except.ok.inj h)
    obtain rfl := Except.ok.inj ht
    exact ⟨[], rfl, .nil t⟩
  | .error e :: _, v, v', t, t', h => by cases h
  | .ok p :: payloads, v, v', t, t', h => by
    unfold translatePayloads at h
    obtain ⟨⟨r, v₁⟩, h₁, h⟩ := bind_eq_ok.1 h
    rcases r with e | t₁
    · cases h
    · obtain ⟨ps, rfl, hrun⟩ := translatePayloads_run h
      unfold translatePayload at h₁
      rcases hacc : accept V p v with ⟨e | _, v₂⟩ <;> rw [hacc] at h₁
      · cases h₁
      · obtain ⟨r, hr, h₁⟩ := bind_eq_ok.1 h₁
        obtain ⟨rfl, rfl⟩ := Prod.mk.inj (Except.ok.inj h₁)
        exact ⟨p :: ps, rfl, .cons (V.types v₂) hr hrun⟩

theorem translate_run {ps : List Payload} {v v' : σ} {t : ModuleTranslator} {types : ModuleTypes}
    (h : translate V debug v (ps.map .ok) = .ok (.ok (t, types), v')) :
    Run debug (.new (V.id v)) ps t := by
  unfold translate at h
  obtain ⟨⟨r, v₁⟩, h₁, h⟩ := bind_eq_ok.1 h
  rcases r with e | t₁
  · cases h
  · obtain ⟨_, -, h⟩ := bind_eq_ok.1 h
    obtain ⟨_, -, h⟩ := bind_eq_ok.1 h
    obtain ⟨_, -, h⟩ := bind_eq_ok.1 h
    obtain ⟨hr, -⟩ := Prod.mk.inj (Except.ok.inj h)
    obtain ⟨rfl, -⟩ := Prod.mk.inj (Except.ok.inj hr)
    obtain ⟨qs, hqs, hrun⟩ := translatePayloads_run h₁
    obtain rfl := List.map_injective_iff.2 (fun _ _ => Except.ok.inj) hqs
    exact hrun

end Translate

end ModuleTranslator

end K23VM
