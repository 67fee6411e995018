import K23VM.Translate.ModuleTranslator
import Mathlib.Tactic

/-!
# Translations that are the same but for the name

Nothing that is done with a section depends on the name of the module, nor, but for the texts of errors,
on the offsets of the operators in constant expressions.
-/

namespace K23VM

open Wasmparser (BinaryReaderError SectionReader Payload Validator ValidatorTypes)

/-! ## Computations that end alike -/

/-- Two computations both panic, both fail with an error, or have related results. -/
def Alike {α β : Type} (R : α → β → Prop) (x : Fallible Error α) (y : Fallible Error β) : Prop :=
  match (x : Except Fault (Except Error α)), (y : Except Fault (Except Error β)) with
  | .ok (.ok a), .ok (.ok b) => R a b
  | .ok (.error _), .ok (.error _) => True
  | .error _, .error _ => True
  | _, _ => False

namespace Alike

variable {α β γ δ : Type} {R : α → β → Prop} {S : γ → δ → Prop}

theorem pure {a : α} {b : β} (h : R a b) : Alike R (pure a) (pure b) := h

theorem bind {x : Fallible Error α} {y : Fallible Error β} {f : α → Fallible Error γ}
    {g : β → Fallible Error δ} (hxy : Alike R x y) (hfg : ∀ a b, R a b → Alike S (f a) (g b)) :
    Alike S (x >>= f) (y >>= g) := by
  rcases x with fault | e | a <;> rcases y with fault' | e' | b
  all_goals first
    | exact hfg _ _ hxy
    | trivial

/-- The same computation on both sides. -/
theorem lift_bind {ε : Type} {x : Except Fault ε} {f : ε → Fallible Error γ} {g : ε → Fallible Error δ}
    (hfg : ∀ a, Alike S (f a) (g a)) : Alike S (liftM x >>= f) (liftM x >>= g) := by
  cases x with
  | error e => trivial
  | ok a => exact hfg a

/-- The results of one computation are those of the other, changed by `g`. -/
theorem lift_map {x : Except Fault α} {g : α → β} (h : ∀ a, R a (g a)) :
    Alike R (liftM x) (liftM (x.map g)) := by
  cases x with
  | error e => trivial
  | ok a => exact h a

/-- Errors may differ in their texts. -/
theorem lift_toOption {x y : Except Error α} (h : x.toOption = y.toOption) :
    Alike Eq (liftM x) (liftM y) := by
  cases x <;> cases y
  · trivial
  · cases h
  · cases h
  · exact Option.some.inj h

end Alike

/-- The results of reading an item, of which either both are errors or both are related items. -/
def ItemAlike {α β : Type} (R : α → β → Prop) :
    Except BinaryReaderError α → Except BinaryReaderError β → Prop
  | .ok x, .ok y => R x y
  | .error _, .error _ => True
  | _, _ => False

theorem forItems_alike {τ τ' α β : Type} {f : τ → α → Fallible Error τ} {g : τ' → β → Fallible Error τ'}
    {R : τ → τ' → Prop} {S : α → β → Prop}
    (hfg : ∀ t t' x y, R t t' → S x y → Alike R (f t x) (g t' y)) {xs : SectionReader α}
    {ys : SectionReader β} (h : List.Forall₂ (ItemAlike S) xs ys) :
    ∀ {t : τ} {t' : τ'}, R t t' → Alike R (forItems f t xs) (forItems g t' ys) := by
  induction h with
  | nil => exact fun ht => ht
  | @cons x y xs ys hxy _ ih =>
    intro t t' ht
    rcases x with e | x <;> rcases y with e' | y
    · trivial
    · cases hxy
    · cases hxy
    · unfold forItems
      exact (hfg t t' x y ht hxy).bind fun _ _ => ih

/-- The same items on both sides. -/
theorem itemAlike_refl {α : Type} {R : α → α → Prop} (hR : ∀ x, R x x) :
    ∀ xs : SectionReader α, List.Forall₂ (ItemAlike R) xs xs
  | [] => .nil
  | .error _ :: xs => .cons trivial (itemAlike_refl hR xs)
  | .ok x :: xs => .cons (hR x) (itemAlike_refl hR xs)

/-! ## Sections that are the same but for offsets -/

namespace Wasmparser

/-- The operators are the same. -/
def ConstExpr.Matches (e e' : ConstExpr) : Prop :=
  List.Forall₂ (ItemAlike fun op op' : ConstOperator × ℕ => op.1 = op'.1) e e'

def TableInit.Matches : TableInit → TableInit → Prop
  | .refNull, .refNull => True
  | .expr e, .expr e' => e.Matches e'
  | _, _ => False

def Table.Matches (t t' : Table) : Prop := t.ty = t'.ty ∧ t.init.Matches t'.init

def Global.Matches (g g' : Global) : Prop := g.ty = g'.ty ∧ g.initExpr.Matches g'.initExpr

def ElementItems.Matches : ElementItems → ElementItems → Prop
  | .functions funcs, .functions funcs' => funcs = funcs'
  | .expressions exprs, .expressions exprs' => List.Forall₂ (ItemAlike ConstExpr.Matches) exprs exprs'
  | _, _ => False

def ElementKind.Matches : ElementKind → ElementKind → Prop
  | .active index e, .active index' e' => index = index' ∧ e.Matches e'
  | .passive, .passive => True
  | .declared, .declared => True
  | _, _ => False

def Element.Matches (e e' : Element) : Prop := e.kind.Matches e'.kind ∧ e.items.Matches e'.items

def DataKind.Matches : DataKind → DataKind → Prop
  | .active index e, .active index' e' => index = index' ∧ e.Matches e'
  | .passive, .passive => True
  | _, _ => False

def Data.Matches (d d' : Data) : Prop := d.kind.Matches d'.kind ∧ d.data = d'.data

/-- The payloads are the same but for the offsets of the operators in constant expressions. -/
def Payload.Matches : Payload → Payload → Prop
  | .tableSection xs, .tableSection ys => List.Forall₂ (ItemAlike Table.Matches) xs ys
  | .globalSection xs, .globalSection ys => List.Forall₂ (ItemAlike Global.Matches) xs ys
  | .elementSection xs, .elementSection ys => List.Forall₂ (ItemAlike Element.Matches) xs ys
  | .dataSection xs, .dataSection ys => List.Forall₂ (ItemAlike Data.Matches) xs ys
  | p, q => p = q

theorem ConstExpr.matches_refl (e : ConstExpr) : e.Matches e :=
  itemAlike_refl (R := fun op op' : ConstOperator × ℕ => op.1 = op'.1) (fun _ => rfl) e

theorem Table.matches_refl (t : Table) : t.Matches t := by
  refine ⟨rfl, ?_⟩
  cases t.init with
  | refNull => trivial
  | expr e => exact e.matches_refl

theorem ElementItems.matches_refl (items : ElementItems) : items.Matches items := by
  cases items with
  | functions funcs => rfl
  | expressions exprs => exact itemAlike_refl ConstExpr.matches_refl exprs

theorem Element.matches_refl (e : Element) : e.Matches e := by
  refine ⟨?_, e.items.matches_refl⟩
  cases e.kind with
  | active index offset => exact ⟨rfl, offset.matches_refl⟩
  | passive | declared => trivial

theorem Data.matches_refl (d : Data) : d.Matches d := by
  refine ⟨?_, rfl⟩
  cases d.kind with
  | active index offset => exact ⟨rfl, offset.matches_refl⟩
  | passive => trivial

theorem Payload.matches_refl (p : Payload) : p.Matches p := by
  cases p with
  | tableSection xs => exact itemAlike_refl Table.matches_refl xs
  | globalSection xs => exact itemAlike_refl (fun g => ⟨rfl, g.initExpr.matches_refl⟩) xs
  | elementSection xs => exact itemAlike_refl Element.matches_refl xs
  | dataSection xs => exact itemAlike_refl Data.matches_refl xs
  | _ => exact rfl

end Wasmparser

namespace ModuleTranslator

def rename (t : ModuleTranslator) (name : Option String) : ModuleTranslator :=
  { t with module := { t.module with name } }

def SameButName (t t' : ModuleTranslator) : Prop := ∃ name, t' = t.rename name

theorem SameButName.refl (t : ModuleTranslator) : SameButName t t := ⟨t.module.name, rfl⟩

theorem SameButName.symm {t t' : ModuleTranslator} (h : SameButName t t') : SameButName t' t := by
  obtain ⟨name, rfl⟩ := h
  exact ⟨t.module.name, rfl⟩

theorem SameButName.trans {t t' t'' : ModuleTranslator} (h : SameButName t t')
    (h' : SameButName t' t'') : SameButName t t'' := by
  obtain ⟨name, rfl⟩ := h
  obtain ⟨name', rfl⟩ := h'
  exact ⟨name', rfl⟩

/-! ## Constant expressions -/

theorem toOption_bind {ε α β : Type} (x : Except ε α) (f : α → Except ε β) :
    (x >>= f).toOption = x.toOption.bind fun a => (f a).toOption := by
  cases x <;> rfl

theorem constOp_toOption (op : Wasmparser.ConstOperator) (offset offset' : ℕ) :
    (ConstOp.fromWasmparser op offset).toOption = (ConstOp.fromWasmparser op offset').toOption := by
  cases op <;> rfl

theorem constExpr_toOption {e e' : Wasmparser.ConstExpr} (h : e.Matches e') :
    (ConstExpr.fromWasmparser e).toOption = (ConstExpr.fromWasmparser e').toOption := by
  unfold Wasmparser.ConstExpr.Matches at h
  induction h with
  | nil => rfl
  | @cons x y xs ys hxy hxs ih =>
    rcases x with e | ⟨op, offset⟩ <;> rcases y with e' | ⟨op', offset'⟩
    · rfl
    · cases hxy
    · cases hxy
    · obtain rfl : op = op' := hxy
      have hempty : xs.isEmpty = ys.isEmpty := by
        cases hxs <;> rfl
      unfold ConstExpr.fromWasmparser
      rw [hempty]
      split_ifs
      · rfl
      · rw [toOption_bind, toOption_bind, constOp_toOption op offset offset']
        simp only [toOption_bind, ih]

theorem constExpr_alike {e e' : Wasmparser.ConstExpr} (h : e.Matches e') :
    Alike Eq (liftM (ConstExpr.fromWasmparser e)) (liftM (ConstExpr.fromWasmparser e')) :=
  .lift_toOption (constExpr_toOption h)

/-! ## Items -/

/-- A result that is changed at the end. -/
theorem bind_eq_map_bind {ε α β γ : Type} {x : Except ε α} {f : α → Except ε γ} {g : α → Except ε β}
    {h : β → γ} (hfg : ∀ a, f a = (g a).map h) : (x >>= f) = (x >>= g).map h := by
  cases x with
  | error e => rfl
  | ok a => exact hfg a

theorem flagFuncAsEscaped_rename (t : ModuleTranslator) (name : Option String) (f : ℕ) :
    (t.rename name).flagFuncAsEscaped f = (t.flagFuncAsEscaped f).map (·.rename name) := by
  refine bind_eq_map_bind fun ty => ?_
  split_ifs
  · rfl
  · exact bind_eq_map_bind fun n => rfl

theorem flagEscaped_rename : ∀ (escaped : List ℕ) (t : ModuleTranslator) (name : Option String),
    (t.rename name).flagEscaped escaped = (t.flagEscaped escaped).map (·.rename name)
  | [], _, _ => rfl
  | f :: escaped, t, name => by
    unfold flagEscaped
    rw [List.foldlM_cons, List.foldlM_cons, flagFuncAsEscaped_rename]
    cases t.flagFuncAsEscaped f with
    | error e => rfl
    | ok t' => exact flagEscaped_rename escaped t' name

theorem flagEscaped_alike {t t' : ModuleTranslator} (h : SameButName t t') (escaped : List ℕ) :
    Alike SameButName (liftM (t.flagEscaped escaped)) (liftM (t'.flagEscaped escaped)) := by
  obtain ⟨name, rfl⟩ := h
  rw [flagEscaped_rename]
  exact .lift_map fun t => ⟨name, rfl⟩

theorem translateTypes_alike (debug : Bool) (types : Option ValidatorTypes) {t t' : ModuleTranslator}
    (h : SameButName t t') (count : ℕ) :
    Alike SameButName (liftM (t.translateTypes debug types count))
      (liftM (t'.translateTypes debug types count)) := by
  obtain ⟨name, rfl⟩ := h
  have hmap : (t.rename name).translateTypes debug types count
      = (t.translateTypes debug types count).map (·.rename name) := by
    unfold translateTypes
    split_ifs
    · rfl
    · exact bind_eq_map_bind fun v => bind_eq_map_bind fun r => rfl
  rw [hmap]
  exact .lift_map fun t => ⟨name, rfl⟩

theorem importEntity_rename (t : ModuleTranslator) (name : Option String) (ty : Wasmparser.TypeRef) :
    (t.rename name).importEntity ty
      = (t.importEntity ty).map fun r => ({ r.1 with name }, r.2) := by
  cases ty with
  | func | table | memory | global => exact bind_eq_map_bind fun n => bind_eq_map_bind fun desc => rfl
  | tag => rfl

theorem translateImport_alike {t t' : ModuleTranslator} (h : SameButName t t') (i : Wasmparser.Import) :
    Alike SameButName (t.translateImport i) (t'.translateImport i) := by
  obtain ⟨name, rfl⟩ := h
  unfold translateImport
  rw [importEntity_rename]
  refine Alike.bind (R := fun r r' => r' = ({ r.1 with name }, r.2)) (.lift_map fun _ => rfl) ?_
  rintro ⟨module, ty⟩ _ rfl
  exact .pure ⟨name, rfl⟩

theorem translateFunction_alike {t t' : ModuleTranslator} (h : SameButName t t') (index : ℕ) :
    Alike SameButName (t.translateFunction index) (t'.translateFunction index) := by
  obtain ⟨name, rfl⟩ := h
  exact .pure ⟨name, rfl⟩

theorem translateTable_alike {t t' : ModuleTranslator} (h : SameButName t t')
    {table table' : Wasmparser.Table} (htable : table.Matches table') :
    Alike SameButName (t.translateTable table) (t'.translateTable table') := by
  obtain ⟨name, rfl⟩ := h
  obtain ⟨ty, init⟩ := table
  obtain ⟨ty', init'⟩ := table'
  obtain ⟨rfl, hinit⟩ := htable
  refine Alike.lift_bind (x := t.tableDesc ty) fun plan => ?_
  rcases init with _ | expr <;> rcases init' with _ | expr'
  · exact .pure ⟨name, rfl⟩
  · cases hinit
  · cases hinit
  · refine (constExpr_alike hinit).bind ?_
    rintro ⟨expr, escaped⟩ _ rfl
    refine (flagEscaped_alike ⟨name, rfl⟩ escaped).bind ?_
    rintro t₁ _ ⟨name', rfl⟩
    exact .pure ⟨name', rfl⟩

theorem translateMemory_alike {t t' : ModuleTranslator} (h : SameButName t t')
    (ty : WasmparserMemoryType) : Alike SameButName (t.translateMemory ty) (t'.translateMemory ty) := by
  obtain ⟨name, rfl⟩ := h
  exact .lift_bind fun memory => .pure ⟨name, rfl⟩

theorem translateGlobal_alike {t t' : ModuleTranslator} (h : SameButName t t')
    {global global' : Wasmparser.Global} (hglobal : global.Matches global') :
    Alike SameButName (t.translateGlobal global) (t'.translateGlobal global') := by
  obtain ⟨name, rfl⟩ := h
  obtain ⟨ty, initExpr⟩ := global
  obtain ⟨ty', initExpr'⟩ := global'
  obtain ⟨rfl, hinit⟩ := hglobal
  refine Alike.lift_bind (x := t.globalDesc ty) fun desc => ?_
  refine (constExpr_alike hinit).bind ?_
  rintro ⟨expr, escaped⟩ _ rfl
  refine (flagEscaped_alike ⟨name, rfl⟩ escaped).bind ?_
  rintro t₁ _ ⟨name', rfl⟩
  exact .pure ⟨name', rfl⟩

theorem translateExport_alike {t t' : ModuleTranslator} (h : SameButName t t')
    (e : Wasmparser.Export) : Alike SameButName (t.translateExport e) (t'.translateExport e) := by
  obtain ⟨name, rfl⟩ := h
  have hindex : (t.rename name).exportIndex e = (t.exportIndex e).map fun r => (r.1.rename name, r.2) := by
    unfold exportIndex
    cases e.kind with
    | func =>
      dsimp only
      rw [flagFuncAsEscaped_rename]
      cases t.flagFuncAsEscaped e.index <;> rfl
    | table | memory | global | tag => rfl
  unfold translateExport
  rw [hindex]
  refine Alike.bind (R := fun r r' => r' = (r.1.rename name, r.2)) (.lift_map fun _ => rfl) ?_
  rintro ⟨t₁, index⟩ _ rfl
  exact .pure ⟨name, rfl⟩

/-- A translation with something else that the loop over a section keeps. -/
def WithSame {α : Type} (s s' : ModuleTranslator × α) : Prop := SameButName s.1 s'.1 ∧ s.2 = s'.2

theorem translateElementItems_alike {t t' : ModuleTranslator} (h : SameButName t t')
    {items items' : Wasmparser.ElementItems} (hitems : items.Matches items') :
    Alike WithSame (t.translateElementItems items) (t'.translateElementItems items') := by
  rcases items with funcs | exprs <;> rcases items' with funcs' | exprs'
  · obtain rfl : funcs = funcs' := hitems
    refine Alike.bind (R := Eq) (forItems_alike (S := Eq) ?_ (itemAlike_refl (fun _ => rfl) funcs) rfl) ?_
    · rintro out _ func _ rfl rfl
      exact .pure rfl
    · rintro out _ rfl
      exact .pure ⟨h, rfl⟩
  · cases hitems
  · cases hitems
  · refine Alike.bind (R := WithSame) (forItems_alike ?_ hitems ⟨h, rfl⟩) ?_
    · rintro ⟨t₁, out⟩ ⟨t₁', _⟩ expr expr' ⟨ht, rfl⟩ hexpr
      refine (constExpr_alike hexpr).bind ?_
      rintro ⟨c, escaped⟩ _ rfl
      exact (flagEscaped_alike ht escaped).bind fun t₂ t₂' ht₂ => .pure ⟨ht₂, rfl⟩
    · rintro ⟨t₁, out⟩ ⟨t₁', _⟩ ⟨ht, rfl⟩
      exact .pure ⟨ht, rfl⟩

theorem translateElement_alike (debug : Bool) {t t' : ModuleTranslator} (h : SameButName t t') (n : ℕ)
    {element element' : Wasmparser.Element} (he : element.Matches element') :
    Alike SameButName (t.translateElement debug n element) (t'.translateElement debug n element') := by
  obtain ⟨kind, items⟩ := element
  obtain ⟨kind', items'⟩ := element'
  obtain ⟨hkind, hitems⟩ := he
  refine Alike.lift_bind fun elemIndex => (translateElementItems_alike h hitems).bind ?_
  rintro ⟨t₁, elements⟩ ⟨t₁', _⟩ ⟨⟨name, rfl⟩, rfl⟩
  rcases kind with ⟨index, offset⟩ | _ | _ <;> rcases kind' with ⟨index', offset'⟩ | _ | _
  all_goals first
    | exact absurd hkind id
    | skip
  · obtain ⟨rfl, hoffset⟩ := hkind
    refine (constExpr_alike hoffset).bind ?_
    rintro ⟨c, escaped⟩ _ rfl
    exact .lift_bind fun _ => .pure ⟨name, rfl⟩
  · exact .pure ⟨name, rfl⟩
  · exact .pure ⟨name, rfl⟩

theorem translateData_alike (debug : Bool) {t t' : ModuleTranslator} (h : SameButName t t') (n : ℕ)
    {entry entry' : Wasmparser.Data} (hd : entry.Matches entry') :
    Alike SameButName (t.translateData debug n entry) (t'.translateData debug n entry') := by
  obtain ⟨name, rfl⟩ := h
  obtain ⟨kind, data⟩ := entry
  obtain ⟨kind', data'⟩ := entry'
  obtain ⟨hkind, rfl⟩ := hd
  refine Alike.lift_bind fun dataIndex => ?_
  rcases kind with ⟨index, offset⟩ | _ <;> rcases kind' with ⟨index', offset'⟩ | _
  · obtain ⟨rfl, hoffset⟩ := hkind
    refine (constExpr_alike hoffset).bind ?_
    rintro ⟨c, escaped⟩ _ rfl
    exact .lift_bind fun _ => .pure ⟨name, rfl⟩
  · cases hkind
  · cases hkind
  · exact .pure ⟨name, rfl⟩

/-! ## Sections -/

/-- A section other than a custom one. -/
def IsCustom : Payload → Prop
  | .customSection _ => True
  | _ => False

theorem translateElementSection_alike (debug : Bool) {t t' : ModuleTranslator} (h : SameButName t t')
    {xs ys : SectionReader Wasmparser.Element}
    (hxy : List.Forall₂ (ItemAlike Wasmparser.Element.Matches) xs ys) :
    Alike SameButName (t.translateElementSection debug xs) (t'.translateElementSection debug ys) := by
  refine Alike.bind (R := WithSame) (forItems_alike ?_ hxy ⟨h, rfl⟩) ?_
  · rintro ⟨t₁, n⟩ ⟨t₁', _⟩ element element' ⟨ht, rfl⟩ he
    exact (translateElement_alike debug ht n he).bind fun t₂ t₂' ht₂ => .pure ⟨ht₂, rfl⟩
  · exact fun _ _ hs => .pure hs.1

theorem translateDataSection_alike (debug : Bool) {t t' : ModuleTranslator} (h : SameButName t t')
    {xs ys : SectionReader Wasmparser.Data}
    (hxy : List.Forall₂ (ItemAlike Wasmparser.Data.Matches) xs ys) :
    Alike SameButName (t.translateDataSection debug xs) (t'.translateDataSection debug ys) := by
  refine Alike.bind (R := WithSame) (forItems_alike ?_ hxy ⟨h, rfl⟩) ?_
  · rintro ⟨t₁, n⟩ ⟨t₁', _⟩ entry entry' ⟨ht, rfl⟩ hd
    exact (translateData_alike debug ht n hd).bind fun t₂ t₂' ht₂ => .pure ⟨ht₂, rfl⟩
  · exact fun _ _ hs => .pure hs.1

/-- A section whose items are the same on both sides. -/
theorem sameItems_alike {α : Type} {f : ModuleTranslator → α → Fallible Error ModuleTranslator}
    (hf : ∀ {t t'}, SameButName t t' → ∀ x, Alike SameButName (f t x) (f t' x)) {t t' : ModuleTranslator}
    (h : SameButName t t') (xs : SectionReader α) :
    Alike SameButName (forItems f t xs) (forItems f t' xs) :=
  forItems_alike (S := Eq) (fun _ _ x _ ht hx => hx ▸ hf ht x) (itemAlike_refl (fun _ => rfl) xs) h

theorem translateSection_alike (debug : Bool) (types : Option ValidatorTypes)
    {t t' : ModuleTranslator} (h : SameButName t t') {p q : Payload} (hpq : p.Matches q)
    (hp : ¬ IsCustom p) :
    Alike SameButName (t.translateSection debug types p) (t'.translateSection debug types q) := by
  cases p with
  | tableSection xs =>
    cases q with
    | tableSection ys =>
      exact forItems_alike (f := translateTable) (g := translateTable) (S := Wasmparser.Table.Matches)
        (fun _ _ _ _ ht hx => translateTable_alike ht hx) hpq h
    | _ => cases hpq
  | globalSection xs =>
    cases q with
    | globalSection ys =>
      exact forItems_alike (f := translateGlobal) (g := translateGlobal)
        (S := Wasmparser.Global.Matches) (fun _ _ _ _ ht hx => translateGlobal_alike ht hx) hpq h
    | _ => cases hpq
  | elementSection xs =>
    cases q with
    | elementSection ys => exact translateElementSection_alike debug h hpq
    | _ => cases hpq
  | dataSection xs =>
    cases q with
    | dataSection ys => exact translateDataSection_alike debug h hpq
    | _ => cases hpq
  | typeSection count =>
    cases hpq
    exact translateTypes_alike debug types h count
  | importSection xs =>
    cases hpq
    exact sameItems_alike translateImport_alike h xs
  | functionSection xs =>
    cases hpq
    exact sameItems_alike translateFunction_alike h xs
  | memorySection xs =>
    cases hpq
    exact sameItems_alike translateMemory_alike h xs
  | exportSection xs =>
    cases hpq
    exact sameItems_alike translateExport_alike h xs
  | customSection c => exact absurd trivial hp
  | tagSection | component =>
    cases hpq
    trivial
  | startSection | codeSectionEntry =>
    obtain ⟨name, rfl⟩ := h
    cases hpq
    exact .pure ⟨name, rfl⟩
  | version | dataCountSection | codeSectionStart | end_ | unknown =>
    cases hpq
    exact .pure h

end ModuleTranslator

end K23VM
