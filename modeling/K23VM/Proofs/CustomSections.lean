import K23VM.Proofs.SameButName
import K23VM.Proofs.SharedValidator
import K23VM.Proofs.TranslatedModule

/-!
# Custom sections

A custom section is not handed to the validator, and all that it changes of a translation is the name of
the module.  But one that is malformed ends the translation, with an error or a panic:
`customSections_ignored_iff` says which binaries are translated alike whatever their custom sections are.
-/

namespace K23VM

open Wasmparser (BinaryReaderError SectionReader Payload Validator ValidatorTypes CustomSection)

/-! ## The target features section -/

/-- Names, each behind a `+` and its length. -/
inductive FeatureNames : List UInt8 → Prop
  | nil : FeatureNames []
  | cons {r name rest : List UInt8} {feature : String}
      (len : Wasmparser.readVarU64 0 r = some (name.length, name ++ rest))
      (utf8 : Wasmparser.fromUtf8 name = some feature)
      (tail : FeatureNames rest) : FeatureNames (0x2b :: r)

/-- The features that are left can be read if they are of the form, whatever was read before. -/
theorem readFeatures_ok_iff (features : List Wasmparser.WasmFeature) (r : List UInt8) :
    (∃ fs, readFeatures features r = .ok fs) ↔ FeatureNames r := by
  induction features, r using readFeatures.induct with
  | case1 features =>
    unfold readFeatures
    exact iff_of_true ⟨features, rfl⟩ .nil
  | case2 features r hne e he =>
    unfold readFeatures
    rw [if_neg hne]
    refine iff_of_false ?_ ?_
    · rintro ⟨fs, hfs⟩
      split at hfs
      · cases hfs
      next h =>
        rw [he] at h
        cases h
    · intro h
      cases h with
      | nil => exact hne rfl
      | cons len utf8 _ =>
        rw [readFeature_eq_ok.2 ⟨_, _, rfl, len, utf8⟩] at he
        cases he
  | case3 features r hne feature rest h hlt ih =>
    have hread : readFeatures features r = readFeatures (insertFeature features feature) rest := by
      rw [readFeatures, if_neg hne]
      split
      next h' =>
        rw [h] at h'
        cases h'
      next h' =>
        rw [h] at h'
        cases h'
        rfl
    rw [hread, ih]
    obtain ⟨r', name, rfl, hlen, hname⟩ := readFeature_eq_ok.1 h
    constructor
    · exact .cons hlen hname
    · intro hr
      cases hr with
      | cons hlen' _ tail =>
        rw [hlen] at hlen'
        obtain ⟨hn, happ⟩ := Prod.mk.inj (Option.some.inj hlen')
        rw [(List.append_inj happ hn).2]
        exact tail

/-- The section is a byte and names of features. -/
theorem parseTargetFeatureSection_ok_iff (data : List UInt8) :
    (∃ fs, parseTargetFeatureSection data = .ok fs) ↔
      ∃ count r, data = count :: r ∧ FeatureNames r := by
  unfold parseTargetFeatureSection
  cases data with
  | nil => simp [panicking]
  | cons count r =>
    rw [readFeatures_ok_iff]
    constructor
    · exact fun h => ⟨count, r, rfl, h⟩
    · rintro ⟨_, _, h, hr⟩
      cases h
      exact hr

/-! ## Endings -/

/-- How a computation ends. -/
inductive Ending where
  | passes | rejected | panics
  deriving DecidableEq, Repr

/-- The ending of two parts in sequence. -/
def Ending.andThen : Ending → Ending → Ending
  | .passes, e => e
  | e, _ => e

@[simp] theorem Ending.passes_andThen (e : Ending) : Ending.passes.andThen e = e := rfl

@[simp] theorem Ending.rejected_andThen (e : Ending) : Ending.rejected.andThen e = .rejected := rfl

@[simp] theorem Ending.panics_andThen (e : Ending) : Ending.panics.andThen e = .panics := rfl

theorem Ending.andThen_assoc (d e f : Ending) : (d.andThen e).andThen f = d.andThen (e.andThen f) := by
  cases d <;> rfl

section Ending

variable {ε α β : Type}

def Fallible.ending (x : Fallible ε α) : Ending :=
  match x with
  | .ok (.ok _) => .passes
  | .ok (.error _) => .rejected
  | .error _ => .panics

theorem ending_bind {x : Fallible ε α} {f : α → Fallible ε β} {e : Ending}
    (hf : ∀ a, (f a).ending = e) : (x >>= f).ending = x.ending.andThen e := by
  rcases x with fault | e' | a
  · rfl
  · rfl
  · exact hf a

/-- The items of a section are read and dealt with until one of them does not pass. -/
def Wasmparser.SectionReader.ending (e : α → Ending) : SectionReader α → Ending
  | [] => .passes
  | .error _ :: _ => .rejected
  | .ok x :: xs => (e x).andThen (SectionReader.ending e xs)

theorem forItems_ending {τ : Type} {f : τ → α → Fallible Error τ} {e : α → Ending}
    (hf : ∀ t x, (f t x).ending = e x) : ∀ (t : τ) (xs : SectionReader α),
    (forItems f t xs).ending = xs.ending e
  | _, [] => rfl
  | _, .error _ :: _ => rfl
  | t, .ok x :: xs => by
    unfold forItems Wasmparser.SectionReader.ending
    rw [ending_bind fun t => forItems_ending hf t xs, hf]

end Ending

/-! ### Of a custom section -/

/-- The names can be read. -/
def Wasmparser.Name.ending : Wasmparser.Name → Ending
  | .direct names => names.ending fun _ => .passes
  | .indirect names => names.ending fun names => names.ending fun _ => .passes
  | .module _ | .unknown => .passes

def Wasmparser.ProducersField.ending (field : Wasmparser.ProducersField) : Ending :=
  field.values.ending fun _ => .passes

/-- How the translation of a custom section ends. -/
def Wasmparser.CustomSection.ending : CustomSection → Ending
  | .targetFeatures data =>
    match parseTargetFeatureSection data with
    | .ok _ => .passes
    | .error _ => .panics
  | .name subsections => subsections.ending Wasmparser.Name.ending
  | .producers (.ok fields) => fields.ending Wasmparser.ProducersField.ending
  | .producers (.error _) => .rejected
  | .other _ _ => .passes

theorem targetFeatures_passes_iff (data : List UInt8) :
    (CustomSection.targetFeatures data).ending = .passes ↔
      ∃ count r, data = count :: r ∧ FeatureNames r := by
  rw [← parseTargetFeatureSection_ok_iff]
  unfold Wasmparser.CustomSection.ending
  dsimp only
  rcases parseTargetFeatureSection data with e | fs
  · refine iff_of_false Ending.noConfusion ?_
    rintro ⟨fs, h⟩
    cases h
  · exact iff_of_true rfl ⟨fs, rfl⟩

/-- The section can be read, and one of features is a byte and names. -/
def Wasmparser.CustomSection.WellFormed (c : CustomSection) : Prop :=
  c.IsSupported ∧ ∀ data, c = .targetFeatures data → ∃ count r, data = count :: r ∧ FeatureNames r

theorem sectionReader_passes_iff {α : Type} {e : α → Ending} {S : α → Prop}
    (h : ∀ x, e x = .passes ↔ S x) : ∀ xs : SectionReader α, xs.ending e = .passes ↔ Readable S xs
  | [] => iff_of_true rfl fun _ hx => absurd hx List.not_mem_nil
  | .error _ :: _ => by
    refine iff_of_false Ending.noConfusion fun hread => ?_
    obtain ⟨_, hx, -⟩ := hread _ List.mem_cons_self
    cases hx
  | .ok x :: xs => by
    rw [readable_cons, ← h x, ← sectionReader_passes_iff h xs]
    change (e x).andThen (SectionReader.ending e xs) = .passes
      ↔ e x = .passes ∧ SectionReader.ending e xs = .passes
    cases e x with
    | passes => exact (and_iff_right rfl).symm
    | rejected | panics => exact iff_of_false Ending.noConfusion fun ⟨h, _⟩ => Ending.noConfusion h

theorem sectionReader_ne_panics {α : Type} {e : α → Ending} (h : ∀ x, e x ≠ .panics) :
    ∀ xs : SectionReader α, xs.ending e ≠ .panics
  | [] => Ending.noConfusion
  | .error _ :: _ => Ending.noConfusion
  | .ok x :: xs => by
    have hx := h x
    unfold Wasmparser.SectionReader.ending
    cases hex : e x with
    | passes => exact sectionReader_ne_panics h xs
    | rejected => exact Ending.noConfusion
    | panics => exact absurd hex hx

theorem items_pass_iff {α : Type} (xs : SectionReader α) :
    xs.ending (fun _ => .passes) = .passes ↔ Readable (fun _ => True) xs :=
  sectionReader_passes_iff (fun _ => iff_of_true rfl trivial) xs

theorem items_ne_panics {α : Type} (xs : SectionReader α) : xs.ending (fun _ => .passes) ≠ .panics :=
  sectionReader_ne_panics (fun _ => Ending.noConfusion) xs

theorem name_passes_iff (name : Wasmparser.Name) : name.ending = .passes ↔ name.IsSupported := by
  cases name with
  | direct names => exact items_pass_iff names
  | indirect names => exact sectionReader_passes_iff items_pass_iff names
  | module | unknown => exact iff_of_true rfl trivial

theorem name_ne_panics (name : Wasmparser.Name) : name.ending ≠ .panics := by
  cases name with
  | direct names => exact items_ne_panics names
  | indirect names => exact sectionReader_ne_panics items_ne_panics names
  | module | unknown => exact Ending.noConfusion

theorem ending_passes_iff (c : CustomSection) : c.ending = .passes ↔ c.WellFormed := by
  cases c with
  | targetFeatures data =>
    rw [targetFeatures_passes_iff]
    constructor
    · rintro hdata
      refine ⟨trivial, ?_⟩
      rintro _ ⟨⟩
      exact hdata
    · rintro ⟨-, hdata⟩
      exact hdata data rfl
  | name subsections =>
    refine (sectionReader_passes_iff name_passes_iff subsections).trans ?_
    exact (and_iff_left fun _ h => nomatch h).symm
  | producers fields =>
    refine Iff.trans ?_ (and_iff_left fun _ h => nomatch h).symm
    cases fields with
    | error e => exact iff_of_false Ending.noConfusion False.elim
    | ok fields => exact sectionReader_passes_iff (fun field => items_pass_iff field.values) fields
  | other => exact iff_of_true rfl ⟨trivial, fun _ h => nomatch h⟩

/-- A section of features is the only one that panics. -/
theorem ending_panics_iff (c : CustomSection) :
    c.ending = .panics ↔ (∃ data, c = .targetFeatures data) ∧ ¬ c.WellFormed := by
  rw [← ending_passes_iff]
  cases c with
  | targetFeatures data =>
    rw [and_iff_right ⟨data, rfl⟩]
    unfold Wasmparser.CustomSection.ending
    dsimp only
    rcases parseTargetFeatureSection data with e | fs
    · exact iff_of_true rfl Ending.noConfusion
    · exact iff_of_false Ending.noConfusion fun h => h rfl
  | name subsections =>
    refine iff_of_false (sectionReader_ne_panics name_ne_panics subsections) ?_
    rintro ⟨⟨_, ⟨⟩⟩, -⟩
  | producers fields =>
    refine iff_of_false ?_ ?_
    · cases fields with
      | error e => exact Ending.noConfusion
      | ok fields =>
        exact sectionReader_ne_panics (fun field => items_ne_panics field.values) fields
    · rintro ⟨⟨_, ⟨⟩⟩, -⟩
  | other =>
    refine iff_of_false Ending.noConfusion ?_
    rintro ⟨⟨_, ⟨⟩⟩, -⟩

/-- How custom sections end that are translated in order. -/
def customsEnding : List CustomSection → Ending
  | [] => .passes
  | c :: cs => c.ending.andThen (customsEnding cs)

/-- The first custom section that is malformed is one of features. -/
def FeaturesMalformedFirst (cs : List CustomSection) : Prop :=
  ∃ pre data post, cs = pre ++ .targetFeatures data :: post ∧ (∀ c ∈ pre, c.WellFormed)
    ∧ ¬ (CustomSection.targetFeatures data).WellFormed

theorem customsEnding_passes_iff : ∀ cs : List CustomSection,
    customsEnding cs = .passes ↔ ∀ c ∈ cs, c.WellFormed
  | [] => iff_of_true rfl fun _ hc => absurd hc List.not_mem_nil
  | c :: cs => by
    rw [List.forall_mem_cons, ← customsEnding_passes_iff cs, ← ending_passes_iff, customsEnding]
    cases c.ending with
    | passes => exact (and_iff_right rfl).symm
    | rejected | panics => exact iff_of_false Ending.noConfusion fun ⟨h, _⟩ => Ending.noConfusion h

theorem featuresMalformedFirst_cons {c : CustomSection} {cs : List CustomSection} :
    FeaturesMalformedFirst (c :: cs) ↔ ((∃ data, c = .targetFeatures data) ∧ ¬ c.WellFormed)
      ∨ c.WellFormed ∧ FeaturesMalformedFirst cs := by
  constructor
  · rintro ⟨_ | ⟨d, pre⟩, data, post, heq, hpre, hdata⟩
    · obtain ⟨rfl, -⟩ := List.cons.inj heq
      exact .inl ⟨⟨data, rfl⟩, hdata⟩
    · obtain ⟨rfl, hcs⟩ := List.cons.inj heq
      obtain ⟨hc, hpre⟩ := List.forall_mem_cons.1 hpre
      exact .inr ⟨hc, pre, data, post, hcs, hpre, hdata⟩
  · rintro (⟨⟨data, rfl⟩, hdata⟩ | ⟨hc, pre, data, post, rfl, hpre, hdata⟩)
    · exact ⟨[], data, cs, rfl, fun _ hc => absurd hc List.not_mem_nil, hdata⟩
    · exact ⟨c :: pre, data, post, rfl, List.forall_mem_cons.2 ⟨hc, hpre⟩, hdata⟩

theorem not_featuresMalformedFirst {cs : List CustomSection} (h : ∀ c ∈ cs, c.WellFormed) :
    ¬ FeaturesMalformedFirst cs := by
  rintro ⟨pre, data, post, rfl, -, hdata⟩
  exact hdata (h _ (List.mem_append_right pre List.mem_cons_self))

theorem customsEnding_panics_iff : ∀ cs : List CustomSection,
    customsEnding cs = .panics ↔ FeaturesMalformedFirst cs
  | [] => by
    refine iff_of_false Ending.noConfusion ?_
    rintro ⟨pre, data, post, heq, -⟩
    exact absurd heq.symm (List.append_ne_nil_of_right_ne_nil pre (List.cons_ne_nil _ _))
  | c :: cs => by
    rw [featuresMalformedFirst_cons, ← ending_panics_iff, ← ending_passes_iff,
      ← customsEnding_panics_iff cs, customsEnding]
    cases c.ending <;> simp

namespace ModuleTranslator

/-- Names go to the debug information. -/
theorem names_ending {α : Type} (t : ModuleTranslator) (names : SectionReader α) :
    (forItems (fun t _ => (pure t : Fallible Error ModuleTranslator)) t names).ending
      = names.ending fun _ => .passes :=
  forItems_ending (f := fun t _ => pure t) (fun _ _ => rfl) t names

theorem translateName_ending (t : ModuleTranslator) (name : Wasmparser.Name) :
    (t.translateName name).ending = name.ending := by
  cases name with
  | direct names => exact names_ending t names
  | indirect names => exact forItems_ending names_ending t names
  | module | unknown => rfl

/-- No field is one that the translator takes for unreachable. -/
theorem translateProducersField_ending (t : ModuleTranslator) (field : Wasmparser.ProducersField) :
    (t.translateProducersField field).ending = field.ending := by
  unfold translateProducersField
  rw [if_pos field.known]
  exact names_ending t field.values

theorem translateCustomSection_ending (t : ModuleTranslator) (c : CustomSection) :
    (t.translateCustomSection c).ending = c.ending := by
  rcases c with data | subsections | (e | fields) | _
  · unfold translateCustomSection Wasmparser.CustomSection.ending
    dsimp only
    cases parseTargetFeatureSection data <;> rfl
  · exact forItems_ending translateName_ending t subsections
  · rfl
  · exact forItems_ending translateProducersField_ending t fields
  · rfl

/-! ## What it changes -/

/-- A custom section changes no more than the name. -/
theorem translateCustomSection_sameButName {t t' : ModuleTranslator} {c : CustomSection}
    (h : t.translateCustomSection c = (.ok (.ok t') : Except Fault (Except Error _))) :
    SameButName t t' := by
  have hitems : ∀ {α : Type} (xs : SectionReader α) (s s' : ModuleTranslator),
      forItems (fun s _ => pure s) s xs = (.ok (.ok s') : Except Fault (Except Error _)) →
      SameButName t s → SameButName t s' := fun xs s s' h hs => by
    refine forItems_invariant (fun u _ u' h hu => ?_) h hs
    cases h
    exact hu
  rcases c with data | subsections | (e | fields) | _
  · obtain ⟨_, -, h⟩ := fallible_bind_eq_ok.1 h
    cases h
    exact .refl t
  · refine forItems_invariant (f := translateName) (fun s name s' h hs => ?_) h (.refl t)
    cases name with
    | module name =>
      cases h
      exact hs.trans ⟨some name, rfl⟩
    | direct names => exact hitems names s s' h hs
    | indirect names => exact forItems_invariant (fun s names s' h hs => hitems names s s' h hs) h hs
    | unknown =>
      cases h
      exact hs
  · cases h
  · refine forItems_invariant (f := translateProducersField) (fun s field s' h hs => ?_) h (.refl t)
    unfold translateProducersField at h
    split_ifs at h
    · exact hitems field.values s s' h hs
    · cases h
  · cases h
    exact .refl t

/-! ## Whole binaries -/

section Validator

variable {σ : Type} (V : Validator σ) (debug : Bool)

/-- The other sections of a binary are translated one after the other: the custom sections in front of
the one that ends the translation, and how it ends. -/
def walk : σ → ModuleTranslator → List (Except BinaryReaderError Payload) → List CustomSection × Ending
  | _, _, [] => ([], .passes)
  | _, _, .error _ :: _ => ([], .rejected)
  | v, t, .ok (.customSection c) :: payloads =>
    let (cs, e) := walk v t payloads
    (c :: cs, e)
  | v, t, .ok p :: payloads =>
    match translatePayload V debug v t p with
    | .ok (.ok t, v) => walk v t payloads
    | .ok (.error _, _) => ([], .rejected)
    | .error _ => ([], .panics)

def isCustom : Except BinaryReaderError Payload → Bool
  | .ok (.customSection _) => true
  | _ => false

def withoutCustom (payloads : List (Except BinaryReaderError Payload)) :
    List (Except BinaryReaderError Payload) :=
  payloads.filter fun p => !isCustom p

/-- The binaries differ in nothing but custom sections and, since these shift what is behind them,
offsets. -/
def SameButCustom (p q : List (Except BinaryReaderError Payload)) : Prop :=
  List.Forall₂ (ItemAlike Payload.Matches) (withoutCustom p) (withoutCustom q)

/-- Both binaries are translated, and to the same but for the name, or both are refused with an
error. -/
def TranslatedAlike (v : σ) (p q : List (Except BinaryReaderError Payload)) : Prop :=
  ∃ r r' : Except Error (ModuleTranslator × ModuleTypes), ∃ v₁ v₁' : σ,
    translate V debug v p = .ok (r, v₁) ∧ translate V debug v q = .ok (r', v₁')
      ∧ match r, r' with
        | .ok (t, types), .ok (t', types') =>
          { t.module with name := none } = { t'.module with name := none } ∧ types = types'
            ∧ t.functionBodies = t'.functionBodies
        | .error _, .error _ => True
        | _, _ => False

/-- How a translation ends. -/
def runEnding {α : Type} : Except Fault (Except Error α × σ) → Ending
  | .ok (.ok _, _) => .passes
  | .ok (.error _, _) => .rejected
  | .error _ => .panics

/-- Two translations end alike, with the same validator. -/
def RunAlike (x y : Except Fault (Except Error ModuleTranslator × σ)) : Prop :=
  match x, y with
  | .ok (.ok t, v), .ok (.ok t', v') => SameButName t t' ∧ v = v'
  | .ok (.error _, _), .ok (.error _, _) => True
  | .error _, .error _ => True
  | _, _ => False

variable {V debug}

theorem RunAlike.ending_eq {x y : Except Fault (Except Error ModuleTranslator × σ)}
    (h : RunAlike x y) : runEnding x = runEnding y := by
  rcases x with _ | ⟨_ | _, _⟩ <;> rcases y with _ | ⟨_ | _, _⟩
  all_goals first
    | rfl
    | cases h

/-- What is documented of the validator: it reads offsets for its errors only. -/
def OffsetsIgnored (V : Validator σ) : Prop :=
  ∀ p q v, Payload.Matches p q → V.validate p v = V.validate q v

theorem matches_isValidated {p q : Payload} (h : p.Matches q) : p.isValidated = q.isValidated := by
  cases p with
  | tableSection | globalSection | elementSection | dataSection =>
    cases q <;> first
      | rfl
      | cases h
  | _ =>
    cases h
    rfl

theorem runAlike_of_alike (v : σ) {x y : Fallible Error ModuleTranslator} (h : Alike SameButName x y) :
    RunAlike (x.run >>= fun r => pure (r, v)) (y.run >>= fun r => pure (r, v)) := by
  rcases x with fault | e | t <;> rcases y with fault' | e' | t'
  all_goals first
    | exact ⟨h, rfl⟩
    | trivial

theorem translatePayload_alike (hV : OffsetsIgnored V) {v : σ} {t t' : ModuleTranslator}
    (h : SameButName t t') {p q : Payload} (hpq : p.Matches q) (hp : ¬ IsCustom p) :
    RunAlike (translatePayload V debug v t p) (translatePayload V debug v t' q) := by
  have hacc : accept V p v = accept V q v := by
    unfold accept
    rw [matches_isValidated hpq, hV p q v hpq]
  unfold translatePayload
  rw [hacc]
  rcases accept V q v with ⟨e | _, v₁⟩
  · trivial
  · exact runAlike_of_alike v₁ (translateSection_alike debug (V.types v₁) h hpq hp)

/-- What a custom section is translated to: only the name changes, and the validator is not called. -/
theorem translatePayload_custom (v : σ) (t : ModuleTranslator) (c : CustomSection) :
    runEnding (translatePayload V debug v t (.customSection c)) = c.ending
      ∧ ∀ t₁ v₁, translatePayload V debug v t (.customSection c) = .ok (.ok t₁, v₁) →
        SameButName t t₁ ∧ v₁ = v := by
  have htranslate : translatePayload V debug v t (.customSection c)
      = (t.translateCustomSection c).run >>= fun r => pure (r, v) := rfl
  rw [htranslate, ← translateCustomSection_ending t c]
  rcases hc : t.translateCustomSection c with fault | e | t₁
  · refine ⟨rfl, fun _ _ h => ?_⟩
    cases h
  · refine ⟨rfl, fun _ _ h => ?_⟩
    cases h
  · refine ⟨rfl, fun _ _ h => ?_⟩
    cases h
    exact ⟨translateCustomSection_sameButName hc, rfl⟩

theorem walk_cons {p : Payload} (hp : ¬ IsCustom p) (v : σ) (t : ModuleTranslator)
    (payloads : List (Except BinaryReaderError Payload)) :
    walk V debug v t (.ok p :: payloads)
      = match translatePayload V debug v t p with
        | .ok (.ok t, v) => walk V debug v t payloads
        | .ok (.error _, _) => ([], .rejected)
        | .error _ => ([], .panics) := by
  cases p with
  | customSection => exact absurd trivial hp
  | _ => rfl

theorem withoutCustom_cons {p : Payload} (hp : ¬ IsCustom p)
    (payloads : List (Except BinaryReaderError Payload)) :
    withoutCustom (.ok p :: payloads) = .ok p :: withoutCustom payloads := by
  cases p with
  | customSection => exact absurd trivial hp
  | _ => rfl

theorem mem_withoutCustom {payloads : List (Except BinaryReaderError Payload)}
    (x : Except BinaryReaderError Payload) (hx : x ∈ withoutCustom payloads) : ¬ isCustom x := by
  unfold withoutCustom at hx
  simpa using (List.mem_filter.1 hx).2

/-- The rest of a binary after a payload. -/
def continuation (V : Validator σ) (debug : Bool) (payloads : List (Except BinaryReaderError Payload)) :
    Except Error ModuleTranslator × σ → Except Fault (Except Error ModuleTranslator × σ)
  | (.error e, v) => pure (.error e, v)
  | (.ok t, v) => translatePayloads V debug v t payloads

theorem translatePayloads_cons (v : σ) (t : ModuleTranslator) (p : Payload)
    (payloads : List (Except BinaryReaderError Payload)) :
    translatePayloads V debug v t (.ok p :: payloads)
      = translatePayload V debug v t p >>= continuation V debug payloads := by
  rw [translatePayloads]
  congr 1

theorem RunAlike.bind {payloads payloads' : List (Except BinaryReaderError Payload)}
    (hrest : ∀ t t' v, SameButName t t' →
      RunAlike (translatePayloads V debug v t payloads) (translatePayloads V debug v t' payloads')) :
    ∀ {x y : Except Fault (Except Error ModuleTranslator × σ)}, RunAlike x y →
      RunAlike (x >>= continuation V debug payloads) (y >>= continuation V debug payloads')
  | .error _, .error _, _ => trivial
  | .ok (.error _, _), .ok (.error _, _), _ => trivial
  | .ok (.ok t, v), .ok (.ok t', _), ⟨ht, rfl⟩ => hrest t t' v ht

/-- Binaries without custom sections that are the same up to offsets. -/
theorem translatePayloads_alike (hV : OffsetsIgnored V) {p q : List (Except BinaryReaderError Payload)}
    (h : List.Forall₂ (ItemAlike Payload.Matches) p q) (hp : ∀ x ∈ p, ¬ isCustom x) :
    ∀ {v : σ} {t t' : ModuleTranslator}, SameButName t t' →
      RunAlike (translatePayloads V debug v t p) (translatePayloads V debug v t' q) := by
  induction h with
  | nil => exact fun ht => ⟨ht, rfl⟩
  | @cons x y xs ys hxy _ ih =>
    intro v t t' ht
    rcases x with e | x <;> rcases y with e' | y
    · trivial
    · cases hxy
    · cases hxy
    · have hx : ¬ IsCustom x := fun hx => hp _ List.mem_cons_self (by cases x <;> first | rfl | cases hx)
      rw [translatePayloads_cons, translatePayloads_cons]
      exact RunAlike.bind (fun _ _ _ => ih fun z hz => hp z (List.mem_cons_of_mem _ hz))
        (translatePayload_alike hV ht hxy hx)

/-- The custom sections of a binary that are translated, each leaving nothing but a name. -/
theorem translatePayloads_withoutCustom (hV : OffsetsIgnored V) :
    ∀ {payloads : List (Except BinaryReaderError Payload)} {v v₁ : σ} {t t' t₁' : ModuleTranslator},
      SameButName t t' → translatePayloads V debug v t' payloads = .ok (.ok t₁', v₁) →
      ∃ t₁, translatePayloads V debug v t (withoutCustom payloads) = .ok (.ok t₁, v₁)
        ∧ SameButName t₁ t₁'
  | [], v, _, t, _, _, ht, h => by
    cases h
    exact ⟨t, rfl, ht⟩
  | .error _ :: _, _, _, _, _, _, _, h => by cases h
  | .ok p :: payloads, v, v₁, t, t', t₁', ht, h => by
    rw [translatePayloads_cons] at h
    obtain ⟨⟨e | t₂', v₂⟩, h₂, h⟩ := bind_eq_ok.1 h
    · cases h
    have hrest : translatePayloads V debug v₂ t₂' payloads = .ok (.ok t₁', v₁) := h
    by_cases hp : IsCustom p
    · cases p with
      | customSection c =>
        obtain ⟨ht₂, rfl⟩ := (translatePayload_custom v t' c).2 t₂' v₂ h₂
        have hwithout : withoutCustom (.ok (.customSection c) :: payloads) = withoutCustom payloads := rfl
        rw [hwithout]
        exact translatePayloads_withoutCustom hV (ht.trans ht₂) hrest
      | _ => cases hp
    · have halike : RunAlike (translatePayload V debug v t p) (translatePayload V debug v t' p) :=
        translatePayload_alike hV ht p.matches_refl hp
      rw [h₂] at halike
      rw [withoutCustom_cons hp, translatePayloads_cons]
      generalize translatePayload V debug v t p = x at halike ⊢
      rcases x with fault | ⟨e | t₂, v₂'⟩
      · cases halike
      · cases halike
      · obtain ⟨ht₂, rfl⟩ := halike
        exact translatePayloads_withoutCustom hV ht₂ hrest

/-- A binary ends as the first of its custom sections that does not pass, or as its other sections do
without them. -/
theorem translatePayloads_ending (hV : OffsetsIgnored V) :
    ∀ {payloads : List (Except BinaryReaderError Payload)} {v : σ} {t t' : ModuleTranslator},
      SameButName t t' → runEnding (translatePayloads V debug v t' payloads)
        = (customsEnding (walk V debug v t payloads).1).andThen (walk V debug v t payloads).2
  | [], _, _, _, _ => rfl
  | .error _ :: _, _, _, _, _ => rfl
  | .ok p :: payloads, v, t, t', h => by
    rw [translatePayloads_cons]
    by_cases hp : IsCustom p
    · cases p with
      | customSection c =>
        have hending : runEnding (translatePayload V debug v t' (.customSection c)) = c.ending :=
          (translatePayload_custom v t' c).1
        have hwalk : walk V debug v t (.ok (.customSection c) :: payloads)
            = (c :: (walk V debug v t payloads).1, (walk V debug v t payloads).2) := rfl
        rw [hwalk, customsEnding, Ending.andThen_assoc, ← hending]
        rcases hc : translatePayload V debug v t' (.customSection c) with fault | ⟨e | t₁, v₁⟩
        · rfl
        · rfl
        · obtain ⟨ht₁, rfl⟩ := (translatePayload_custom v t' c).2 t₁ v₁ hc
          exact translatePayloads_ending hV (h.trans ht₁)
      | _ => cases hp
    · have halike : RunAlike (translatePayload V debug v t p) (translatePayload V debug v t' p) :=
        translatePayload_alike hV h p.matches_refl hp
      rw [walk_cons hp]
      generalize translatePayload V debug v t p = x at halike ⊢
      generalize translatePayload V debug v t' p = y at halike ⊢
      rcases x with fault | ⟨e | t₁, v₁⟩ <;> rcases y with fault' | ⟨e' | t₁', v₁'⟩
      all_goals first
        | exact absurd halike id
        | rfl
        | skip
      obtain ⟨ht₁, rfl⟩ := halike
      exact translatePayloads_ending hV ht₁

/-- The other sections end as they do without the custom ones. -/
theorem walk_ending : ∀ (payloads : List (Except BinaryReaderError Payload)) (v : σ)
    (t : ModuleTranslator), (walk V debug v t payloads).2
      = runEnding (translatePayloads V debug v t (withoutCustom payloads))
  | [], _, _ => rfl
  | .error _ :: _, _, _ => rfl
  | .ok p :: payloads, v, t => by
    by_cases hp : IsCustom p
    · cases p with
      | customSection c => exact walk_ending payloads v t
      | _ => cases hp
    · rw [walk_cons hp, withoutCustom_cons hp, translatePayloads_cons]
      rcases translatePayload V debug v t p with fault | ⟨e | t₁, v₁⟩
      · rfl
      · rfl
      · exact walk_ending payloads v₁ t₁

/-! ### The end of a translation -/

/-- The imported tables, memories and globals are among those that are declared. -/
def ImportsFit (c : Contribution) : Prop :=
  c.imports.countP (·.ty.isTable) ≤ c.tables ∧ c.imports.countP (·.ty.isMemory) ≤ c.memories
    ∧ c.imports.countP (·.ty.isGlobal) ≤ c.globals

theorem ImportsFit.append {c d : Contribution} (hc : ImportsFit c) (hd : ImportsFit d) :
    ImportsFit (c ++ d) := by
  obtain ⟨htables, hmemories, hglobals⟩ := hc
  obtain ⟨htables', hmemories', hglobals'⟩ := hd
  unfold ImportsFit
  simp only [Contribution.imports_append, Contribution.tables_append, Contribution.memories_append,
    Contribution.globals_append, List.countP_append]
  exact ⟨Nat.add_le_add htables htables', Nat.add_le_add hmemories hmemories',
    Nat.add_le_add hglobals hglobals'⟩

theorem importsFit_of_nil {c : Contribution} (h : c.imports = []) : ImportsFit c := by
  unfold ImportsFit
  rw [h]
  exact ⟨Nat.zero_le _, Nat.zero_le _, Nat.zero_le _⟩

theorem importsFit_concat {α : Type} {f : α → Contribution} (hf : ∀ x, ImportsFit (f x)) :
    ∀ xs, ImportsFit (.concat f xs)
  | [] => importsFit_of_nil rfl
  | x :: xs => (hf x).append (importsFit_concat hf xs)

theorem importsFit_contribution (p : Payload) : ImportsFit p.contribution := by
  cases p with
  | importSection imports =>
    refine importsFit_concat (fun i => ?_) imports.items
    unfold ImportsFit Wasmparser.Import.contribution
    cases hty : i.ty <;> simp [hty, Wasmparser.TypeRef.isTable, Wasmparser.TypeRef.isMemory,
      Wasmparser.TypeRef.isGlobal]
  | functionSection xs | tableSection xs | memorySection xs | globalSection xs | exportSection xs
  | elementSection xs => exact importsFit_concat (fun _ => importsFit_of_nil rfl) xs.items
  | _ => exact importsFit_of_nil rfl

/-- The assertions at the end of a translation hold. -/
theorem translate_of_payloads {payloads : List (Except BinaryReaderError Payload)} {v v₁ : σ}
    {t : ModuleTranslator}
    (h : translatePayloads V debug v (.new (V.id v)) payloads = .ok (.ok t, v₁)) :
    translate V debug v payloads = .ok (.ok (t, t.types.types), V.reset v₁) := by
  obtain ⟨ps, -, hrun⟩ := translatePayloads_run h
  have hext := hrun.extends
  obtain ⟨htables, hmemories, hglobals⟩ := importsFit_concat importsFit_contribution ps
  have hle : t.module.numImportedTables ≤ t.module.tables.length
      ∧ t.module.numImportedMemories ≤ t.module.memories.length
      ∧ t.module.numImportedGlobals ≤ t.module.globals.length := by
    rw [hext.counts.tables, hext.counts.memories, hext.counts.globals, hext.tables.length,
      hext.memories.length, hext.globals.length]
    exact ⟨Nat.add_le_add_left htables 0, Nat.add_le_add_left hmemories 0,
      Nat.add_le_add_left hglobals 0⟩
  unfold translate
  rw [h]
  simp only [hle, decide_true, debugAssert_true, bind, Except.bind, pure, Except.pure]

theorem translate_of_error {payloads : List (Except BinaryReaderError Payload)} {v v₁ : σ}
    {e : Error} (h : translatePayloads V debug v (.new (V.id v)) payloads = .ok (.error e, v₁)) :
    translate V debug v payloads = .ok (.error e, v₁) := by
  unfold translate
  rw [h]
  rfl

theorem translate_ending (payloads : List (Except BinaryReaderError Payload)) (v : σ) :
    runEnding (translate V debug v payloads)
      = runEnding (translatePayloads V debug v (.new (V.id v)) payloads) := by
  rcases h : translatePayloads V debug v (.new (V.id v)) payloads with fault | ⟨e | t, v₁⟩
  · unfold translate
    rw [h]
    rfl
  · rw [translate_of_error h]
    rfl
  · rw [translate_of_payloads h]
    rfl

/-! ### Two binaries -/

/-- What the custom sections of two binaries may be where the other sections of both end with `e`: the
first malformed one is not one of features; one binary has a malformed one where the other does, unless
both are refused for another section; and both have one in front of a section that panics. -/
structure Harmless (cs ds : List CustomSection) (e : Ending) : Prop where
  left : ¬ FeaturesMalformedFirst cs
  right : ¬ FeaturesMalformedFirst ds
  passes : e = .passes → ((∀ c ∈ cs, c.WellFormed) ↔ ∀ d ∈ ds, d.WellFormed)
  panics : e = .panics → (∃ c ∈ cs, ¬ c.WellFormed) ∧ ∃ d ∈ ds, ¬ d.WellFormed

theorem harmless_iff {cs ds : List CustomSection} {e : Ending} :
    Harmless cs ds e ↔ (customsEnding cs).andThen e = (customsEnding ds).andThen e
      ∧ (customsEnding cs).andThen e ≠ .panics := by
  have hends : ∀ c d : Ending, (c ≠ .panics ∧ d ≠ .panics ∧ (e = .passes → (c = .passes ↔ d = .passes))
      ∧ (e = .panics → ¬ c = .passes ∧ ¬ d = .passes))
      ↔ c.andThen e = d.andThen e ∧ c.andThen e ≠ .panics := by
    intro c d
    cases c <;> cases d <;> cases e <;> decide
  have hmalformed : ∀ cs : List CustomSection,
      ¬ customsEnding cs = .passes ↔ ∃ c ∈ cs, ¬ c.WellFormed := fun cs => by
    rw [customsEnding_passes_iff]
    push Not
    rfl
  rw [← hends, hmalformed, hmalformed, customsEnding_passes_iff, customsEnding_passes_iff, ne_eq, ne_eq,
    customsEnding_panics_iff, customsEnding_panics_iff]
  exact ⟨fun h => ⟨h.left, h.right, h.passes, h.panics⟩, fun ⟨hl, hr, hp, hn⟩ => ⟨hl, hr, hp, hn⟩⟩

/-- Two translations with results give the same, where the binaries differ in custom sections only. -/
theorem translatePayloads_sameButCustom (hV : OffsetsIgnored V)
    {p q : List (Except BinaryReaderError Payload)} (h : SameButCustom p q) {v v₁ v₁' : σ}
    {t t₁ t₁' : ModuleTranslator} (hp : translatePayloads V debug v t p = .ok (.ok t₁, v₁))
    (hq : translatePayloads V debug v t q = .ok (.ok t₁', v₁')) : SameButName t₁ t₁' ∧ v₁ = v₁' := by
  obtain ⟨s, hs, hst⟩ := translatePayloads_withoutCustom hV (.refl t) hp
  obtain ⟨s', hs', hst'⟩ := translatePayloads_withoutCustom hV (.refl t) hq
  have halike : RunAlike (translatePayloads V debug v t (withoutCustom p))
      (translatePayloads V debug v t (withoutCustom q)) :=
    translatePayloads_alike hV h mem_withoutCustom (.refl t)
  rw [hs, hs'] at halike
  exact ⟨(hst.symm.trans halike.1).trans hst', halike.2⟩

end Validator

section Example

theorem headerValidator_offsetsIgnored : OffsetsIgnored headerValidator := by
  intro p q v h
  cases v <;> cases p with
  | tableSection | globalSection | elementSection | dataSection =>
    cases q <;> first
      | rfl
      | cases h
  | _ =>
    cases h
    rfl

/-- An empty module. -/
def emptyModule : List (Except BinaryReaderError Payload) := [.ok .version, .ok .end_]

/-- An empty module with custom sections. -/
def withCustom (customs : List CustomSection) : List (Except BinaryReaderError Payload) :=
  .ok .version :: (customs.map fun c => .ok (.customSection c)) ++ [.ok .end_]

/-- A name and a field of the producers. -/
def readableCustoms : List CustomSection :=
  [.name [.ok (.module "m")], .producers (.ok [.ok ⟨"sdk", [.ok ()], .inr (.inr rfl)⟩])]

theorem readableCustoms_wellFormed : ∀ c ∈ readableCustoms, c.WellFormed := by
  rw [← customsEnding_passes_iff]
  rfl

end Example

end ModuleTranslator

end K23VM
