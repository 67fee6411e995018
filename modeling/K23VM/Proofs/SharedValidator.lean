import K23VM.Translate.ModuleTranslator
import Mathlib.Tactic

/-!
# A validator that is used for several binaries

The validator is reset after a translation that succeeds, and not after one that fails.  So a binary
that gets past its header and is then refused leaves the validator in a state in which it accepts no
other header: `validator_new_iff` says which binaries leave it ready for the next.
-/

namespace K23VM

open Wasmparser (BinaryReaderError SectionReader Payload Validator ValidatorTypes)

/-! ## Refused computations -/

/-- Where the computation does not panic, it succeeds if and only if `S` holds. -/
def Decides {α : Type} (x : Fallible Error α) (S : Prop) : Prop :=
  (∀ a, x = (.ok (.ok a) : Except Fault (Except Error α)) → S)
    ∧ ∀ e, x = (.ok (.error e) : Except Fault (Except Error α)) → ¬ S

namespace Decides

variable {α β : Type}

theorem pure (a : α) : Decides (pure a) True := by
  refine ⟨fun _ _ => trivial, fun e h => ?_⟩
  cases h

theorem throw (e : Error) : Decides (throw e : Fallible Error α) False := by
  refine ⟨fun a h => ?_, fun _ _ => id⟩
  cases h

theorem lift (x : Except Fault α) : Decides (liftM x) True := by
  refine ⟨fun _ _ => trivial, fun e h => ?_⟩
  cases x <;> cases h

theorem bind {x : Fallible Error α} {f : α → Fallible Error β} {S T : Prop} (hx : Decides x S)
    (hf : ∀ a, Decides (f a) T) : Decides (x >>= f) (S ∧ T) := by
  rcases x with fault | e | a
  · refine ⟨fun b h => ?_, fun e h => ?_⟩ <;> cases h
  · refine ⟨fun b h => ?_, fun _ _ h => hx.2 e rfl h.1⟩
    cases h
  · exact ⟨fun b h => ⟨hx.1 a rfl, (hf a).1 b h⟩, fun e h hST => (hf a).2 e h hST.2⟩

theorem congr {x : Fallible Error α} {S T : Prop} (h : Decides x S) (hST : S ↔ T) : Decides x T :=
  ⟨fun a ha => hST.1 (h.1 a ha), fun e he ht => h.2 e he (hST.2 ht)⟩

theorem lift_bind {x : Except Fault α} {f : α → Fallible Error β} {T : Prop}
    (hf : ∀ a, Decides (f a) T) : Decides (liftM x >>= f) T :=
  ((lift x).bind hf).congr (by simp)

/-- Only the first part can be refused. -/
theorem bind_true {x : Fallible Error α} {f : α → Fallible Error β} {S : Prop} (hx : Decides x S)
    (hf : ∀ a, Decides (f a) True) : Decides (x >>= f) S :=
  (hx.bind hf).congr (by simp)

end Decides

/-- All items can be read and satisfy `S`. -/
def Readable {α : Type} (S : α → Prop) (xs : SectionReader α) : Prop :=
  ∀ x ∈ xs, ∃ y, x = .ok y ∧ S y

theorem readable_cons {α : Type} {S : α → Prop} {y : α} {xs : SectionReader α} :
    Readable S (.ok y :: xs) ↔ S y ∧ Readable S xs := by
  simp [Readable]

theorem forItems_decides {τ α : Type} {f : τ → α → Fallible Error τ} {S : α → Prop}
    (hf : ∀ t x, Decides (f t x) (S x)) : ∀ (t : τ) (xs : SectionReader α),
    Decides (forItems f t xs) (Readable S xs)
  | t, [] => (Decides.pure t).congr (by simp [Readable])
  | t, .error e :: xs => (Decides.throw _).congr (by simp [Readable])
  | t, .ok x :: xs => by
    unfold forItems
    exact ((hf t x).bind fun t => forItems_decides hf t xs).congr readable_cons.symm

/-! ## Supported binaries -/

/-- The operators that constant expressions may have. -/
def Wasmparser.ConstOperator.IsSupported : Wasmparser.ConstOperator → Prop
  | .end_ | .other _ => False
  | _ => True

/-- The expression can be read, and all operators before its `end` are supported. -/
def Wasmparser.ConstExpr.IsSupported : Wasmparser.ConstExpr → Prop
  | [] => True
  | .error _ :: _ => False
  | .ok (op, _) :: iter =>
    op = .end_ ∧ iter = [] ∨ op.IsSupported ∧ Wasmparser.ConstExpr.IsSupported iter

def Wasmparser.Table.IsSupported (table : Wasmparser.Table) : Prop :=
  match table.init with
  | .refNull => True
  | .expr expr => expr.IsSupported

def Wasmparser.ElementItems.IsSupported : Wasmparser.ElementItems → Prop
  | .functions funcs => Readable (fun _ => True) funcs
  | .expressions exprs => Readable Wasmparser.ConstExpr.IsSupported exprs

def Wasmparser.Element.IsSupported (element : Wasmparser.Element) : Prop :=
  element.items.IsSupported
    ∧ match element.kind with
      | .active _ offsetExpr => offsetExpr.IsSupported
      | _ => True

def Wasmparser.Data.IsSupported (data : Wasmparser.Data) : Prop :=
  match data.kind with
  | .active _ offsetExpr => offsetExpr.IsSupported
  | .passive => True

def Wasmparser.Name.IsSupported : Wasmparser.Name → Prop
  | .direct names => Readable (fun _ => True) names
  | .indirect names => Readable (Readable fun _ => True) names
  | _ => True

def Wasmparser.CustomSection.IsSupported : Wasmparser.CustomSection → Prop
  | .name subsections => Readable Wasmparser.Name.IsSupported subsections
  | .producers (.ok fields) => Readable (fun field => Readable (fun _ => True) field.values) fields
  | .producers (.error _) => False
  | _ => True

/-- The section can be read and uses no feature that the translation refuses. -/
def Wasmparser.Payload.IsSupported : Payload → Prop
  | .importSection imports => Readable (fun _ => True) imports
  | .functionSection functions => Readable (fun _ => True) functions
  | .tableSection tables => Readable Wasmparser.Table.IsSupported tables
  | .memorySection memories => Readable (fun _ => True) memories
  | .globalSection globals => Readable (fun g => g.initExpr.IsSupported) globals
  | .exportSection exports => Readable (fun _ => True) exports
  | .elementSection elements => Readable Wasmparser.Element.IsSupported elements
  | .dataSection data => Readable Wasmparser.Data.IsSupported data
  | .customSection contents => contents.IsSupported
  | .tagSection | .component => False
  | _ => True

namespace ModuleTranslator

theorem constOp_decides (op : Wasmparser.ConstOperator) (offset : ℕ) :
    (∃ c, ConstOp.fromWasmparser op offset = .ok c) ↔ op.IsSupported := by
  cases op <;> simp [ConstOp.fromWasmparser, Wasmparser.ConstOperator.IsSupported]

theorem constExpr_ok_iff : ∀ expr : Wasmparser.ConstExpr,
    (∃ r, ConstExpr.fromWasmparser expr = .ok r) ↔ expr.IsSupported
  | [] => by simp [ConstExpr.fromWasmparser, Wasmparser.ConstExpr.IsSupported]
  | .error e :: _ => by simp [ConstExpr.fromWasmparser, Wasmparser.ConstExpr.IsSupported]
  | .ok (op, offset) :: iter => by
    unfold ConstExpr.fromWasmparser Wasmparser.ConstExpr.IsSupported
    split_ifs with hend
    · simp only [Except.ok.injEq, exists_eq', true_iff]
      exact .inl ⟨hend.1, List.isEmpty_iff.1 hend.2⟩
    · have hend' : ¬ (op = .end_ ∧ iter = []) := fun h => hend ⟨h.1, List.isEmpty_iff.2 h.2⟩
      rw [or_iff_right hend', ← constOp_decides op offset, ← constExpr_ok_iff iter]
      constructor
      · rintro ⟨r, h⟩
        obtain ⟨c, hc, h⟩ := bind_eq_ok.1 h
        obtain ⟨r', hr', -⟩ := bind_eq_ok.1 h
        exact ⟨⟨c, hc⟩, ⟨r', hr'⟩⟩
      · rintro ⟨⟨c, hc⟩, ⟨r', hr'⟩⟩
        exact ⟨_, bind_eq_ok.2 ⟨c, hc, bind_eq_ok.2 ⟨r', hr', rfl⟩⟩⟩

theorem constExpr_decides (expr : Wasmparser.ConstExpr) :
    Decides (liftM (ConstExpr.fromWasmparser expr)) expr.IsSupported := by
  rw [← constExpr_ok_iff]
  rcases h : ConstExpr.fromWasmparser expr with e | r
  · refine ⟨fun a h => ?_, fun e h => ?_⟩
    · cases h
    · rintro ⟨r, hr⟩
      cases hr
  · refine ⟨fun _ _ => ⟨r, rfl⟩, fun e h => ?_⟩
    cases h

theorem translateImport_decides (t : ModuleTranslator) (i : Wasmparser.Import) :
    Decides (t.translateImport i) True := by
  unfold translateImport
  exact .lift_bind fun _ => .pure _

theorem translateTable_decides (t : ModuleTranslator) (table : Wasmparser.Table) :
    Decides (t.translateTable table) table.IsSupported := by
  unfold translateTable Wasmparser.Table.IsSupported
  refine .lift_bind fun plan => ?_
  rcases table.init with _ | expr
  · exact .pure _
  · exact (constExpr_decides expr).bind_true fun _ => .lift_bind fun _ => .pure _

theorem translateMemory_decides (t : ModuleTranslator) (ty : WasmparserMemoryType) :
    Decides (t.translateMemory ty) True := by
  unfold translateMemory
  exact .lift_bind fun _ => .pure _

theorem translateGlobal_decides (t : ModuleTranslator) (global : Wasmparser.Global) :
    Decides (t.translateGlobal global) global.initExpr.IsSupported := by
  unfold translateGlobal
  exact .lift_bind fun _ => (constExpr_decides _).bind_true fun _ => .lift_bind fun _ => .pure _

theorem translateExport_decides (t : ModuleTranslator) (e : Wasmparser.Export) :
    Decides (t.translateExport e) True := by
  unfold translateExport
  exact .lift_bind fun _ => .pure _

theorem translateElementItems_decides (t : ModuleTranslator) (items : Wasmparser.ElementItems) :
    Decides (t.translateElementItems items) items.IsSupported := by
  cases items with
  | functions funcs =>
    exact (forItems_decides (fun _ _ => .pure _) [] funcs).bind_true fun _ => .pure _
  | expressions exprs =>
    refine (forItems_decides ?_ (t, []) exprs).bind_true fun _ => .pure _
    rintro ⟨t, out⟩ expr
    exact (constExpr_decides expr).bind_true fun _ => .lift_bind fun _ => .pure _

theorem translateElement_decides (debug : Bool) (t : ModuleTranslator) (n : ℕ)
    (element : Wasmparser.Element) :
    Decides (t.translateElement debug n element) element.IsSupported := by
  unfold translateElement Wasmparser.Element.IsSupported
  refine .lift_bind fun _ => (translateElementItems_decides t element.items).bind ?_
  rintro ⟨t, elements⟩
  rcases element.kind with ⟨tableIndex, offsetExpr⟩ | _ | _
  · exact (constExpr_decides offsetExpr).bind_true fun _ => .lift_bind fun _ => .pure _
  · exact .pure _
  · exact .pure _

theorem translateData_decides (debug : Bool) (t : ModuleTranslator) (n : ℕ)
    (data : Wasmparser.Data) : Decides (t.translateData debug n data) data.IsSupported := by
  unfold translateData Wasmparser.Data.IsSupported
  refine .lift_bind fun _ => ?_
  rcases data.kind with ⟨memoryIndex, offsetExpr⟩ | _
  · exact (constExpr_decides offsetExpr).bind_true fun _ => .lift_bind fun _ => .pure _
  · exact .pure _

theorem translateName_decides (t : ModuleTranslator) (name : Wasmparser.Name) :
    Decides (t.translateName name) name.IsSupported := by
  cases name with
  | direct names => exact forItems_decides (fun _ _ => .pure _) t names
  | indirect names =>
    exact forItems_decides (fun t names => forItems_decides (fun _ _ => .pure _) t names) t names
  | module | unknown => exact .pure _

theorem translateProducersField_decides (t : ModuleTranslator) (field : Wasmparser.ProducersField) :
    Decides (t.translateProducersField field) (Readable (fun _ => True) field.values) := by
  unfold translateProducersField
  split_ifs
  · exact forItems_decides (fun _ _ => .pure _) t field.values
  · refine ⟨fun a h => ?_, fun e h => ?_⟩ <;> cases h

theorem translateCustomSection_decides (t : ModuleTranslator) (c : Wasmparser.CustomSection) :
    Decides (t.translateCustomSection c) c.IsSupported := by
  rcases c with read | subsections | (e | fields) | _
  · exact .lift_bind fun _ => .pure _
  · exact forItems_decides translateName_decides t subsections
  · exact .throw _
  · exact forItems_decides translateProducersField_decides t fields
  · exact .pure _

theorem translateSection_decides (debug : Bool) (types : Option ValidatorTypes)
    (t : ModuleTranslator) (p : Payload) :
    Decides (t.translateSection debug types p) p.IsSupported := by
  cases p with
  | typeSection count => exact .lift _
  | importSection imports => exact forItems_decides translateImport_decides t imports
  | functionSection functions => exact forItems_decides (fun _ _ => .pure _) t functions
  | tableSection tables => exact forItems_decides translateTable_decides t tables
  | memorySection memories => exact forItems_decides translateMemory_decides t memories
  | globalSection globals => exact forItems_decides translateGlobal_decides t globals
  | exportSection exports => exact forItems_decides translateExport_decides t exports
  | elementSection elements =>
    refine (forItems_decides ?_ (t, 0) elements).bind_true fun _ => .pure _
    rintro ⟨t, n⟩ element
    exact (translateElement_decides debug t n element).bind_true fun _ => .pure _
  | dataSection data =>
    refine (forItems_decides ?_ (t, 0) data).bind_true fun _ => .pure _
    rintro ⟨t, n⟩ entry
    exact (translateData_decides debug t n entry).bind_true fun _ => .pure _
  | customSection contents => exact translateCustomSection_decides t contents
  | tagSection => exact .throw _
  | component => exact .throw _
  | _ => exact .pure _

/-! ## Whole binaries -/

section Validator

variable {σ : Type} (V : Validator σ) (debug : Bool)

/-- The binary can be read, is valid for a validator in the state `v`, and is supported. -/
def IsTranslatable : σ → List (Except BinaryReaderError Payload) → Prop
  | _, [] => True
  | _, .error _ :: _ => False
  | v, .ok p :: payloads =>
    (accept V p v).1 = .ok () ∧ p.IsSupported ∧ IsTranslatable (accept V p v).2 payloads

/-- The binary has no header that a new validator accepts. -/
def HeaderRefused : List (Except BinaryReaderError Payload) → Prop
  | .ok p :: _ => (accept V p V.new).1 ≠ .ok ()
  | _ => True

/-- What is documented of the validator: a header is accepted in the initial state only and leaves it,
a header that is refused leaves the state as it is, no other call leads back to the initial state, and
a reset does. -/
structure ValidatorOk : Prop where
  version_new : ∀ v, (V.validate .version v).1 = .ok () → v = V.new
  version_accepted : ∀ v, (V.validate .version v).1 = .ok () → (V.validate .version v).2 ≠ V.new
  version_refused : (V.validate .version V.new).1 ≠ .ok () → (V.validate .version V.new).2 = V.new
  stays : ∀ p v, v ≠ V.new → (V.validate p v).2 ≠ V.new
  reset : ∀ v, V.reset v = V.new

/-- The parser gives the header of a binary first. -/
def ParserOk (parse : List UInt8 → List (Except BinaryReaderError Payload)) : Prop :=
  ∀ data p payloads, parse data = .ok p :: payloads → p = .version

variable {V debug}

theorem translatePayloads_ok_iff : ∀ {payloads : List (Except BinaryReaderError Payload)} {v v' : σ}
    {t : ModuleTranslator} {r : Except Error ModuleTranslator},
    translatePayloads V debug v t payloads = .ok (r, v') →
    ((∃ t', r = .ok t') ↔ IsTranslatable V v payloads)
  | [], v, v', t, r, h => by
    obtain ⟨rfl, -⟩ := Prod.mk.inj (Except.ok.inj h)
    simp [IsTranslatable]
  | .error e :: _, v, v', t, r, h => by
    obtain ⟨rfl, -⟩ := Prod.mk.inj (Except.ok.inj h)
    simp [IsTranslatable]
  | .ok p :: payloads, v, v', t, r, h => by
    unfold translatePayloads at h
    obtain ⟨⟨r₁, v₁⟩, h₁, h⟩ := bind_eq_ok.1 h
    unfold translatePayload at h₁
    unfold IsTranslatable
    rcases hacc : accept V p v with ⟨e | _, v₂⟩ <;> rw [hacc] at h₁
    · obtain ⟨rfl, rfl⟩ := Prod.mk.inj (Except.ok.inj h₁)
      obtain ⟨rfl, -⟩ := Prod.mk.inj (Except.ok.inj h)
      simp
    · obtain ⟨r₂, hr, h₁⟩ := bind_eq_ok.1 h₁
      obtain ⟨rfl, rfl⟩ := Prod.mk.inj (Except.ok.inj h₁)
      have hdec := translateSection_decides debug (V.types v₂) t p
      rcases r₂ with e | t₁
      · obtain ⟨rfl, -⟩ := Prod.mk.inj (Except.ok.inj h)
        simp [hdec.2 e hr]
      · rw [translatePayloads_ok_iff h]
        simp [hdec.1 t₁ hr]

theorem accept_ne_new (hV : ValidatorOk V) {v : σ} (hv : v ≠ V.new) (p : Payload) :
    (accept V p v).2 ≠ V.new := by
  unfold accept
  split_ifs
  · exact hV.stays p v hv
  · exact hv

/-- Past its header, a binary does not bring the validator back to its initial state. -/
theorem translatePayloads_ne_new (hV : ValidatorOk V) :
    ∀ {payloads : List (Except BinaryReaderError Payload)} {v v' : σ} {t : ModuleTranslator}
      {r : Except Error ModuleTranslator}, v ≠ V.new →
    translatePayloads V debug v t payloads = .ok (r, v') → v' ≠ V.new
  | [], v, v', t, r, hv, h => by
    obtain ⟨-, rfl⟩ := Prod.mk.inj (Except.ok.inj h)
    exact hv
  | .error e :: _, v, v', t, r, hv, h => by
    obtain ⟨-, rfl⟩ := Prod.mk.inj (Except.ok.inj h)
    exact hv
  | .ok p :: payloads, v, v', t, r, hv, h => by
    have hne := accept_ne_new hV hv p
    unfold translatePayloads at h
    obtain ⟨⟨r₁, v₁⟩, h₁, h⟩ := bind_eq_ok.1 h
    unfold translatePayload at h₁
    rcases hacc : accept V p v with ⟨e | _, v₂⟩ <;> rw [hacc] at h₁ hne
    · obtain ⟨rfl, rfl⟩ := Prod.mk.inj (Except.ok.inj h₁)
      obtain ⟨-, rfl⟩ := Prod.mk.inj (Except.ok.inj h)
      exact hne
    · obtain ⟨r₂, -, h₁⟩ := bind_eq_ok.1 h₁
      obtain ⟨rfl, rfl⟩ := Prod.mk.inj (Except.ok.inj h₁)
      rcases r₂ with e | t₁
      · obtain ⟨-, rfl⟩ := Prod.mk.inj (Except.ok.inj h)
        exact hne
      · exact translatePayloads_ne_new hV hne h

/-- The validator is reset after a translation that succeeds, and only then. -/
theorem translate_cases {payloads : List (Except BinaryReaderError Payload)} {v v' : σ}
    {r : Except Error (ModuleTranslator × ModuleTypes)}
    (h : translate V debug v payloads = .ok (r, v')) :
    ∃ r₁ v₁, translatePayloads V debug v (.new (V.id v)) payloads = .ok (r₁, v₁)
      ∧ ((∃ t, r₁ = .ok t) ∧ v' = V.reset v₁ ∨ (∃ e, r₁ = .error e) ∧ v' = v₁) := by
  unfold translate at h
  obtain ⟨⟨r₁, v₁⟩, h₁, h⟩ := bind_eq_ok.1 h
  refine ⟨r₁, v₁, h₁, ?_⟩
  rcases r₁ with e | t
  · obtain ⟨-, rfl⟩ := Prod.mk.inj (Except.ok.inj h)
    exact .inr ⟨⟨e, rfl⟩, rfl⟩
  · obtain ⟨_, -, h⟩ := bind_eq_ok.1 h
    obtain ⟨_, -, h⟩ := bind_eq_ok.1 h
    obtain ⟨_, -, h⟩ := bind_eq_ok.1 h
    obtain ⟨-, rfl⟩ := Prod.mk.inj (Except.ok.inj h)
    exact .inl ⟨⟨t, rfl⟩, rfl⟩

/-- The binary is refused at its header, or not at all. -/
def LeavesReady (V : Validator σ) (payloads : List (Except BinaryReaderError Payload)) : Prop :=
  HeaderRefused V payloads ∨ IsTranslatable V V.new payloads

theorem validator_new_iff (hV : ValidatorOk V)
    {payloads : List (Except BinaryReaderError Payload)}
    (hp : ∀ p rest, payloads = .ok p :: rest → p = .version) {v' : σ}
    {r : Except Error (ModuleTranslator × ModuleTypes)}
    (h : translate V debug V.new payloads = .ok (r, v')) :
    v' = V.new ↔ LeavesReady V payloads := by
  obtain ⟨r₁, v₁, h₁, hr⟩ := translate_cases h
  have hok := translatePayloads_ok_iff h₁
  rcases hr with ⟨ht, rfl⟩ | ⟨⟨e, rfl⟩, rfl⟩
  · exact iff_of_true (hV.reset _) (.inr (hok.1 ht))
  · have hnot : ¬ IsTranslatable V V.new payloads := fun h => by
      obtain ⟨t, ht⟩ := hok.2 h
      cases ht
    rw [LeavesReady, or_iff_left hnot]
    match payloads, hp, h₁ with
    | [], _, h₁ => cases h₁
    | .error _ :: _, _, h₁ =>
      obtain ⟨-, rfl⟩ := Prod.mk.inj (Except.ok.inj h₁)
      exact iff_of_true rfl trivial
    | .ok p :: rest, hp, h₁ =>
      obtain rfl := hp p rest rfl
      unfold translatePayloads at h₁
      obtain ⟨⟨r₂, v₂⟩, h₂, h₁⟩ := bind_eq_ok.1 h₁
      unfold translatePayload at h₂
      have hacc : accept V .version V.new = V.validate .version V.new := rfl
      have hrefused := hV.version_refused
      have haccepted := hV.version_accepted V.new
      rcases hval : V.validate .version V.new with ⟨e' | _, v₃⟩ <;>
        rw [hacc, hval] at h₂ <;> rw [hval] at hrefused haccepted
      · obtain ⟨rfl, rfl⟩ := Prod.mk.inj (Except.ok.inj h₂)
        obtain ⟨-, rfl⟩ := Prod.mk.inj (Except.ok.inj h₁)
        refine iff_of_true (hrefused (by simp)) ?_
        simp [HeaderRefused, hacc, hval]
      · obtain ⟨r₃, hr₃, h₂⟩ := bind_eq_ok.1 h₂
        obtain ⟨rfl, rfl⟩ := Prod.mk.inj (Except.ok.inj h₂)
        obtain rfl := Except.ok.inj hr₃
        refine iff_of_false (translatePayloads_ne_new hV (haccepted rfl) h₁) ?_
        simp [HeaderRefused, hacc, hval]

theorem validatorAfter_new (hV : ValidatorOk V)
    {parse : List UInt8 → List (Except BinaryReaderError Payload)} (hp : ParserOk parse) :
    ∀ {history : List (List UInt8)} {v : σ},
    (∀ data ∈ history, LeavesReady V (parse data)) →
    validatorAfter V debug parse V.new history = .ok v → v = V.new
  | [], v, _, h => (Except.ok.inj h).symm
  | data :: history, v, hready, h => by
    unfold validatorAfter at h
    obtain ⟨⟨r, v₁⟩, h₁, h⟩ := bind_eq_ok.1 h
    obtain rfl := (validator_new_iff hV (hp data) h₁).2 (hready data List.mem_cons_self)
    exact validatorAfter_new hV hp (fun d hd => hready d (List.mem_cons_of_mem _ hd)) h

/-- A binary leaves a new validator in its initial state exactly where it is refused at its header or
not at all; after a history of such binaries every binary is translated as with a new validator. -/
theorem translate_history_eq_new (hV : ValidatorOk V)
    {parse : List UInt8 → List (Except BinaryReaderError Payload)} (hp : ParserOk parse) :
    (∀ data r v, translate V debug V.new (parse data) = .ok (r, v) →
      (v = V.new ↔ LeavesReady V (parse data)))
    ∧ ∀ history, (∀ data ∈ history, LeavesReady V (parse data)) →
      ∀ v, validatorAfter V debug parse V.new history = .ok v → v = V.new
        ∧ ∀ data, (translate V debug v (parse data)).map Prod.fst
          = (translate V debug V.new (parse data)).map Prod.fst := by
  refine ⟨fun data r v h => validator_new_iff hV (hp data) h, fun history hready v h => ?_⟩
  obtain rfl := validatorAfter_new hV hp hready h
  exact ⟨rfl, fun data => rfl⟩

end Validator

section Example

/-- A validator that accepts everything after a header. -/
def headerValidator : Validator Bool where
  new := false
  id _ := 0
  types _ := none
  validate
    | .version, false => (.ok (), true)
    | _, false => (.error {}, false)
    | .version, true => (.error {}, true)
    | _, true => (.ok (), true)
  reset _ := false

/-- The header of a binary, which alone is an empty module. -/
def moduleHeader : List UInt8 := [0x00, 0x61, 0x73, 0x6d, 0x01, 0x00, 0x00, 0x00]

/-- A parser for which nothing but the end can follow the header. -/
def headerParse (data : List UInt8) : List (Except BinaryReaderError Payload) :=
  if data = moduleHeader then [.ok .version, .ok .end_]
  else if moduleHeader.isPrefixOf data then [.ok .version, .error {}]
  else [.error {}]

theorem headerValidator_ok : ValidatorOk headerValidator where
  version_new v h := by
    cases v
    · rfl
    · cases h
  version_accepted v h := by
    cases v
    · exact Bool.noConfusion
    · cases h
  version_refused h := absurd rfl h
  stays p v hv := by
    cases v
    · exact absurd rfl hv
    · cases p <;> exact Bool.noConfusion
  reset v := rfl

theorem headerParse_ok : ParserOk headerParse := by
  intro data p payloads h
  unfold headerParse at h
  split_ifs at h
  · exact (Except.ok.inj (List.cons.inj h).1).symm
  · exact (Except.ok.inj (List.cons.inj h).1).symm
  · cases (List.cons.inj h).1

/-- An empty module is refused after a binary with a malformed section. -/
theorem translate_after_malformed :
    validatorAfter headerValidator true headerParse headerValidator.new [moduleHeader ++ [0xff]]
        = .ok true
      ∧ (true ≠ headerValidator.new)
      ∧ (translate headerValidator true true (headerParse moduleHeader)).map Prod.fst
        ≠ (translate headerValidator true headerValidator.new (headerParse moduleHeader)).map
          Prod.fst := by
  refine ⟨rfl, Bool.noConfusion, fun h => ?_⟩
  cases Except.ok.inj (show (.ok (.error _) : Except Fault (Except Error _)) = .ok (.ok _) from h)

/-- After an empty module and bytes that are no module, the validator is as good as new. -/
theorem translate_history_eq_new_header :
    (∀ data ∈ [moduleHeader, [0x01]], LeavesReady headerValidator (headerParse data))
      ∧ validatorAfter headerValidator true headerParse headerValidator.new [moduleHeader, [0x01]]
        = .ok false
      ∧ (translate headerValidator true false (headerParse moduleHeader)).map Prod.fst
        = (translate headerValidator true headerValidator.new (headerParse moduleHeader)).map
          Prod.fst := by
  have hready : ∀ data ∈ [moduleHeader, [0x01]],
      LeavesReady headerValidator (headerParse data) := by
    intro data hd
    rcases List.mem_cons.1 hd with rfl | hd
    · exact .inr ⟨rfl, trivial, rfl, trivial, trivial⟩
    · obtain rfl := List.mem_singleton.1 hd
      exact .inl trivial
  exact ⟨hready, rfl, ((translate_history_eq_new headerValidator_ok headerParse_ok).2 _ hready false
    rfl).2 moduleHeader⟩

end Example

end ModuleTranslator

end K23VM
