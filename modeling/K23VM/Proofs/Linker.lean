import K23VM.Lib.Interning
import K23VM.Lib.WriteOnce
import K23VM.Linker
import K23VM.Proofs.StackLimit

/-!
# The linker as a write-once map

The keys of a linker are pairs of interned names, so that it behaves as a map from pairs of names, in
which nothing that is defined is ever replaced.
-/

namespace K23VM

open WriteOnce (insertAll)

/-! ## The specification -/

/-- The definitions of a linker, by module and item name. -/
abbrev Definitions := String × String → Option Extern

/-- Definitions under the name of one module, added to others. -/
def Definitions.add (defs : Definitions) (module : String) (news : String → Option Extern) :
    Definitions :=
  fun k => (defs k).or (if k.1 = module then news k.2 else none)

/-- Definitions that were added to others are among some new ones for a module. -/
structure Definitions.Grows (defs defs' : Definitions) (module : String)
    (news : String → Option Extern) : Prop where
  keeps : ∀ k v, defs k = some v → defs' k = some v
  only : ∀ k v, defs' k = some v → defs k = some v ∨ k.1 = module ∧ news k.2 = some v

/-- The calls of a linker; a call that defines an instance is given the store it is in. -/
inductive LinkerOp where
  | defineInstance (store : Store) (moduleName : String) (instance_ : ℕ)
  | aliasModule (order : HashOrder) (module asModule : String)
  | get (module name : String)

inductive LinkerOutput where
  | defined (result : Except Error Unit)
  | found (definition : Option Extern)

/-- The names that a call defines, under the module that is returned first. -/
inductive LinkerOp.News (defs : Definitions) : LinkerOp → String → (String → Option Extern) → Prop
  | defineInstance {store store' : Store} {moduleName : String} {instance_ : ℕ}
      {exports : List (String × Extern)} (h : store.exports instance_ = .ok (exports, store')) :
      News defs (.defineInstance store moduleName instance_) moduleName fun n => exports.lookup n
  | aliasModule {order : HashOrder} {module asModule : String} :
      News defs (.aliasModule order module asModule) asModule fun n => defs (module, n)

/-- What a call does to the definitions, and what it returns. -/
inductive LinkerOp.Step (defs : Definitions) : LinkerOp → LinkerOutput → Definitions → Prop
  | defined {op : LinkerOp} {module : String} {news : String → Option Extern}
      (hnews : op.News defs module news)
      (hfresh : ∀ n, news n ≠ none → defs (module, n) = none) :
      Step defs op (.defined (.ok ())) (defs.add module news)
  | refused {op : LinkerOp} {module name : String} {news : String → Option Extern}
      {defs' : Definitions} (hnews : op.News defs module news) (hgrows : defs.Grows defs' module news)
      (hclash : news name ≠ none ∧ defs' (module, name) ≠ none) :
      Step defs op (.defined (.error (.alreadyDefined module name))) defs'
  | get {module name : String} :
      Step defs (.get module name) (.found (defs (module, name))) defs

/-- A run of calls. -/
inductive LinkerOp.Run : Definitions → List LinkerOp → List LinkerOutput → Definitions → Prop
  | nil {defs : Definitions} : Run defs [] [] defs
  | cons {defs defs₁ defs₂ : Definitions} {op : LinkerOp} {out : LinkerOutput} {ops : List LinkerOp}
      {outs : List LinkerOutput} (h : op.Step defs out defs₁) (hrun : Run defs₁ ops outs defs₂) :
      Run defs (op :: ops) (out :: outs) defs₂

/-! ## Runs of the linker -/

namespace Linker

def step (linker : Linker) : LinkerOp → Except Fault (LinkerOutput × Linker)
  | .defineInstance store moduleName instance_ => do
    let ((result, linker), _) ← linker.defineInstance store moduleName instance_
    pure (.defined result, linker)
  | .aliasModule order module asModule => do
    let (result, linker) ← linker.aliasModule order module asModule
    pure (.defined result, linker)
  | .get module name => pure (.found (linker.get module name), linker)

def run : Linker → List LinkerOp → Except Fault (List LinkerOutput × Linker)
  | linker, [] => pure ([], linker)
  | linker, op :: ops => do
    let (out, linker) ← linker.step op
    let (outs, linker) ← run linker ops
    pure (out :: outs, linker)

/-! ## Interned names -/

structure Inv (linker : Linker) : Prop where
  strings : InternTable linker.string2idx linker.strings
  keys : ∀ e ∈ linker.map, ∃ module name, linker.strings[e.1.module]? = some module
    ∧ linker.strings[e.1.name]? = some name
  nodup : (linker.map.map Prod.fst).Nodup

/-- The key stands for a pair of names. -/
def Names (linker : Linker) (key : ImportKey) (k : String × String) : Prop :=
  linker.strings[key.module]? = some k.1 ∧ linker.strings[key.name]? = some k.2

/-- The definitions as they are looked up. -/
def defs (linker : Linker) : Definitions := fun k => linker.get k.1 k.2

/-- A linker that has interned more strings, and is otherwise the same. -/
structure Interns (linker linker' : Linker) : Prop where
  strings : linker.strings <+: linker'.strings
  map : linker'.map = linker.map

variable {linker linker' linker'' : Linker} {key : ImportKey} {k : String × String}

theorem inv_new : new.Inv where
  strings := internTable_nil
  keys := by rintro e ⟨⟩
  nodup := List.nodup_nil

theorem Interns.refl (linker : Linker) : linker.Interns linker := ⟨List.prefix_rfl, rfl⟩

theorem Interns.trans (h : linker.Interns linker') (h' : linker'.Interns linker'') :
    linker.Interns linker'' :=
  ⟨h.strings.trans h'.strings, h'.map.trans h.map⟩

theorem Interns.getElem? (h : linker.Interns linker') {i : ℕ} {s : String}
    (hi : linker.strings[i]? = some s) : linker'.strings[i]? = some s := by
  obtain ⟨rest, hrest⟩ := h.strings
  rw [← hrest, List.getElem?_append_left (List.getElem?_eq_some_iff.1 hi).1, hi]

theorem Names.mono (h : linker.Names key k) (hi : linker.Interns linker') : linker'.Names key k :=
  ⟨hi.getElem? h.1, hi.getElem? h.2⟩

theorem Names.injective (h : linker.Inv) {key' : ImportKey} (hk : linker.Names key k)
    (hk' : linker.Names key' k) : key = key' := by
  have hmodule := h.strings.injective hk.1 hk'.1
  have hname := h.strings.injective hk.2 hk'.2
  cases key
  cases key'
  simp_all

theorem internStr_spec (h : linker.Inv) (s : String) :
    (linker.internStr s).2.Inv ∧ linker.Interns (linker.internStr s).2
      ∧ (linker.internStr s).2.strings[(linker.internStr s).1]? = some s := by
  unfold internStr
  rcases hs : linker.string2idx.lookup s with _ | i
  · have hi : linker.Interns ⟨(s, linker.strings.length) :: linker.string2idx,
        linker.strings ++ [s], linker.map⟩ := ⟨List.prefix_append _ _, rfl⟩
    refine ⟨⟨h.strings.push hs, fun e he => ?_, h.nodup⟩, hi, ?_⟩
    · obtain ⟨module, name, hmodule, hname⟩ := h.keys e he
      exact ⟨module, name, hi.getElem? hmodule, hi.getElem? hname⟩
    · simp
  · exact ⟨h, Interns.refl linker, (h.strings s i).1 hs⟩

/-- What is looked up under the key of a pair of names. -/
theorem get_eq_lookup (h : linker.Inv) (hk : linker.Names key k) :
    linker.defs k = linker.map.lookup key := by
  unfold defs get
  rw [(h.strings _ _).2 hk.1, (h.strings _ _).2 hk.2]
  rfl

/-- A pair of names that has no key has no definition. -/
theorem get_eq_none (h : linker.Inv) (hk : ∀ key, ¬ linker.Names key k) : linker.defs k = none := by
  unfold defs get
  rcases hm : linker.string2idx.lookup k.1 with _ | i
  · rfl
  · rcases hn : linker.string2idx.lookup k.2 with _ | j
    · rfl
    · exact absurd ⟨(h.strings _ _).1 hm, (h.strings _ _).1 hn⟩ (hk ⟨j, i⟩)

theorem Names.unique {k' : String × String} (hk : linker.Names key k) (hk' : linker.Names key k') :
    k = k' :=
  Prod.ext (Option.some_inj.1 (hk.1.symm.trans hk'.1)) (Option.some_inj.1 (hk.2.symm.trans hk'.2))

theorem defs_interns (h : linker.Inv) (h' : linker'.Inv) (hi : linker.Interns linker') :
    linker'.defs = linker.defs := by
  funext k
  by_cases hk : ∃ key, linker.Names key k
  · obtain ⟨key, hkey⟩ := hk
    rw [get_eq_lookup h' (hkey.mono hi), get_eq_lookup h hkey, hi.map]
  · rw [get_eq_none h fun key hkey => hk ⟨key, hkey⟩]
    by_cases hk' : ∃ key, linker'.Names key k
    · -- A key that is new is not among the keys of the definitions.
      obtain ⟨key, hkey⟩ := hk'
      rw [get_eq_lookup h' hkey, hi.map, List.lookup_eq_none_iff]
      intro e he
      rw [bne_iff_ne]
      rintro rfl
      obtain ⟨module, name, hmodule, hname⟩ := h.keys e he
      have hnames : linker.Names e.1 (module, name) := ⟨hmodule, hname⟩
      obtain rfl := (hnames.mono hi).unique hkey
      exact hk ⟨e.1, hnames⟩
    · exact get_eq_none h' fun key hkey => hk' ⟨key, hkey⟩

/-! ## Insertion -/

theorem insert_refused (h : linker.Inv) (hk : linker.Names key k) (hsome : (linker.defs k).isSome)
    (v : Extern) :
    linker.insert key v = .ok (.error (.alreadyDefined k.1 k.2), linker) := by
  rw [get_eq_lookup h hk] at hsome
  obtain ⟨w, hw⟩ := Option.isSome_iff_exists.1 hsome
  unfold insert
  rw [hw, hk.1, hk.2]
  rfl

theorem insert_fresh (h : linker.Inv) (hk : linker.Names key k) (hnone : linker.defs k = none)
    (v : Extern) :
    ∃ linker', linker.insert key v = .ok (.ok (), linker') ∧ linker'.Inv
      ∧ linker'.strings = linker.strings
      ∧ linker'.defs = Function.update linker.defs k (some v) := by
  rw [get_eq_lookup h hk] at hnone
  have hinv : Inv { linker with map := (key, v) :: linker.map } := by
    refine ⟨h.strings, fun e he => ?_, List.nodup_cons.2 ⟨fun hmem => ?_, h.nodup⟩⟩
    · rcases List.mem_cons.1 he with rfl | he
      · exact ⟨k.1, k.2, hk⟩
      · exact h.keys e he
    · obtain ⟨e, he, heq⟩ := List.mem_map.1 hmem
      exact absurd heq.symm (by simpa using List.lookup_eq_none_iff.1 hnone e he)
  refine ⟨_, ?_, hinv, rfl, ?_⟩
  · unfold insert
    rw [hnone]
    rfl
  · funext k'
    by_cases hkk : k' = k
    · subst hkk
      rw [Function.update_self, get_eq_lookup hinv hk, List.lookup_cons_self]
    · rw [Function.update_of_ne hkk]
      by_cases hkey : ∃ key', linker.Names key' k'
      · obtain ⟨key', hkey'⟩ := hkey
        have hne : key' ≠ key := by
          rintro rfl
          exact hkk (hkey'.unique hk)
        rw [get_eq_lookup hinv hkey', get_eq_lookup h hkey', List.lookup_cons,
          beq_false_of_ne hne]
      · rw [get_eq_none h fun key' hk' => hkey ⟨key', hk'⟩,
          get_eq_none hinv fun key' hk' => hkey ⟨key', hk'⟩]

/-- The items stand for values of pairs of names. -/
def ItemsFor (linker : Linker) : List (ImportKey × Extern) → List ((String × String) × Extern) → Prop :=
  List.Forall₂ fun e e' => linker.Names e.1 e'.1 ∧ e.2 = e'.2

/-- The result of adding values to a write-once map, as the linker returns it. -/
def resultOf : Option (String × String) → Except Error Unit
  | none => .ok ()
  | some k => .error (.alreadyDefined k.1 k.2)

/-- The linker inserts as a write-once map does. -/
theorem insertItems_spec : ∀ {items : List (ImportKey × Extern)}
    {items' : List ((String × String) × Extern)} {linker : Linker}, linker.Inv →
    linker.ItemsFor items items' → ∃ linker',
      linker.insertItems items = .ok (resultOf (insertAll linker.defs items').2, linker')
        ∧ linker'.Inv ∧ linker'.defs = (insertAll linker.defs items').1
  | [], _, linker, h, .nil => ⟨linker, rfl, h, rfl⟩
  | (key, v) :: items, (k, _) :: items', linker, h, .cons ⟨hk, rfl⟩ hitems => by
    unfold insertItems
    rcases hd : linker.defs k with _ | w
    · obtain ⟨linker', hinsert, hinv, hstrings, hdefs⟩ := insert_fresh h hk hd v
      have hitems' : linker'.ItemsFor items items' := hitems.imp fun e e' he =>
        ⟨by rw [Names, hstrings]; exact he.1, he.2⟩
      rw [WriteOnce.insertAll_fresh hd, ← hdefs]
      obtain ⟨linker'', hrun, hspec⟩ := insertItems_spec hinv hitems'
      refine ⟨linker'', ?_, hspec⟩
      rw [hinsert]
      exact hrun
    · have hsome : (linker.defs k).isSome := by simp [hd]
      rw [WriteOnce.insertAll_refused hsome, insert_refused h hk hsome]
      exact ⟨linker, rfl, h, rfl⟩

/-! ## The items of a call -/

theorem importKey_spec (h : linker.Inv) (module name : String) :
    (linker.importKey module (some name)).2.Inv
      ∧ linker.Interns (linker.importKey module (some name)).2
      ∧ (linker.importKey module (some name)).2.Names (linker.importKey module (some name)).1
        (module, name) := by
  obtain ⟨hinv, hi, hmodule⟩ := internStr_spec h module
  obtain ⟨hinv', hi', hname⟩ := internStr_spec hinv name
  exact ⟨hinv', hi.trans hi', hi'.getElem? hmodule, hname⟩

/-- The names of exports, under the name of a module. -/
def under (module : String) (exports : List (String × Extern)) : List ((String × String) × Extern) :=
  exports.map fun e => ((module, e.1), e.2)

theorem importKeys_spec (module : String) : ∀ {exports : List (String × Extern)} {linker : Linker},
    linker.Inv → (importKeys module linker exports).2.Inv
      ∧ linker.Interns (importKeys module linker exports).2
      ∧ (importKeys module linker exports).2.ItemsFor (importKeys module linker exports).1
        (under module exports)
  | [], linker, h => ⟨h, Interns.refl linker, .nil⟩
  | (name, v) :: exports, linker, h => by
    obtain ⟨hinv, hi, hnames⟩ := importKey_spec h module name
    obtain ⟨hinv', hi', hitems⟩ := @importKeys_spec module exports _ hinv
    exact ⟨hinv', hi.trans hi', .cons ⟨hnames.mono hi', rfl⟩ hitems⟩

theorem lookup_under (module : String) : ∀ (exports : List (String × Extern)) (k : String × String),
    (under module exports).lookup k = if k.1 = module then exports.lookup k.2 else none
  | [], k => by simp [under]
  | (name, v) :: exports, k => by
    have ih := lookup_under module exports k
    rw [under] at ih
    rw [under, List.map_cons, List.lookup_cons, List.lookup_cons, ih]
    by_cases hm : k.1 = module
    · by_cases hn : k.2 = name
      · have hk : k = (module, name) := Prod.ext hm hn
        simp [hk]
      · have hk : k ≠ (module, name) := fun hk => hn (congrArg Prod.snd hk)
        rw [beq_false_of_ne hk, beq_false_of_ne hn, if_pos hm]
    · have hk : k ≠ (module, name) := fun hk => hm (congrArg Prod.fst hk)
      rw [beq_false_of_ne hk, if_neg hm, if_neg hm]

/-- The definitions under a module's name, in the order of the hash map. -/
def aliased (order : HashOrder) (linker : Linker) (module : String) : List (String × Extern) :=
  ((order.order linker.map).filter fun e => linker.strings[e.1.module]? = some module).map fun e =>
    ((linker.strings[e.1.name]?).getD "", e.2)

theorem mem_aliased (h : linker.Inv) (order : HashOrder) {module name : String} {v : Extern} :
    (name, v) ∈ linker.aliased order module ↔ linker.defs (module, name) = some v := by
  unfold aliased
  rw [List.mem_map]
  constructor
  · rintro ⟨e, he, heq⟩
    obtain ⟨hmem, hmodule⟩ := List.mem_filter.1 he
    obtain ⟨_, name', -, hname⟩ := h.keys e ((order.perm _).mem_iff.1 hmem)
    rw [hname] at heq
    obtain ⟨rfl, rfl⟩ := Prod.mk.inj heq
    have hnames : linker.Names e.1 (module, name') := ⟨of_decide_eq_true hmodule, hname⟩
    show linker.defs (module, name') = some e.2
    rw [get_eq_lookup h hnames]
    exact (WriteOnce.lookup_eq_some_iff_mem h.nodup).2 ((order.perm _).mem_iff.1 hmem)
  · intro hdef
    by_cases hkey : ∃ key, linker.Names key (module, name)
    · obtain ⟨key, hnames⟩ := hkey
      rw [get_eq_lookup h hnames] at hdef
      refine ⟨(key, v), List.mem_filter.2 ⟨?_, decide_eq_true hnames.1⟩, ?_⟩
      · exact (order.perm _).mem_iff.2 (WriteOnce.mem_of_lookup hdef)
      · show ((linker.strings[key.name]?).getD "", v) = (name, v)
        rw [hnames.2]
        rfl
    · rw [get_eq_none h fun key hk => hkey ⟨key, hk⟩] at hdef
      cases hdef

theorem aliased_nodup (h : linker.Inv) (order : HashOrder) (module : String) :
    ((linker.aliased order module).map Prod.fst).Nodup := by
  have hkeys : (((order.order linker.map).filter
      fun e => linker.strings[e.1.module]? = some module).map Prod.fst).Nodup :=
    (((order.perm linker.map).map Prod.fst).nodup_iff.2 h.nodup).sublist
      (List.filter_sublist.map Prod.fst)
  rw [aliased, List.map_map]
  have hinj : ∀ e ∈ (order.order linker.map).filter
      (fun e => linker.strings[e.1.module]? = some module), ∀ e' ∈ (order.order linker.map).filter
      (fun e => linker.strings[e.1.module]? = some module),
      (linker.strings[e.1.name]?).getD "" = (linker.strings[e'.1.name]?).getD "" → e.1 = e'.1 := by
    intro e he e' he' heq
    obtain ⟨hmem, hmodule⟩ := List.mem_filter.1 he
    obtain ⟨hmem', hmodule'⟩ := List.mem_filter.1 he'
    obtain ⟨_, name, -, hname⟩ := h.keys e ((order.perm _).mem_iff.1 hmem)
    obtain ⟨_, name', -, hname'⟩ := h.keys e' ((order.perm _).mem_iff.1 hmem')
    rw [hname, hname'] at heq
    obtain rfl : name = name' := heq
    have hnames : linker.Names e.1 (module, name) := ⟨of_decide_eq_true hmodule, hname⟩
    exact hnames.injective h ⟨of_decide_eq_true hmodule', hname'⟩
  have hnodup := hkeys.of_map
  refine List.Nodup.map_on (fun e he e' he' heq => ?_) hnodup
  have hkey := hinj e he e' he' heq
  exact List.inj_on_of_nodup_map hkeys he he' hkey

/-- The names and values that a call inserts, in order, and the module it inserts them under. -/
inductive Inserts (linker : Linker) : LinkerOp → String → List (String × Extern) → Prop
  | defineInstance {store store' : Store} {moduleName : String} {instance_ : ℕ}
      {exports : List (String × Extern)} (h : store.exports instance_ = .ok (exports, store')) :
      Inserts linker (.defineInstance store moduleName instance_) moduleName exports
  | aliasModule {order : HashOrder} {module asModule : String} :
      Inserts linker (.aliasModule order module asModule) asModule (linker.aliased order module)

theorem aliasModule_eq (order : HashOrder) (module asModule : String) :
    linker.aliasModule order module asModule
      = ((linker.internStr module).2.internStr asModule).2.insertItems
        (((order.order ((linker.internStr module).2.internStr asModule).2.map).filter
          fun e => e.1.module = (linker.internStr module).1).map fun e =>
            (⟨e.1.name, ((linker.internStr module).2.internStr asModule).1⟩, e.2)) := rfl

theorem aliasModule_spec (h : linker.Inv) (order : HashOrder) (module asModule : String) :
    ∃ linker', linker.aliasModule order module asModule
        = .ok (resultOf (insertAll linker.defs (under asModule (linker.aliased order module))).2, linker')
      ∧ linker'.Inv
      ∧ linker'.defs = (insertAll linker.defs (under asModule (linker.aliased order module))).1 := by
  obtain ⟨hinv₁, hi₁, hmodule⟩ := internStr_spec h module
  obtain ⟨hinv₂, hi₂, hasModule⟩ := internStr_spec hinv₁ asModule
  have hi := hi₁.trans hi₂
  rw [← defs_interns h hinv₂ hi, aliasModule_eq, hi.map]
  refine insertItems_spec hinv₂ ?_
  -- Both lists run through the entries whose module is that name.
  have hfilter : ((order.order linker.map).filter fun e => linker.strings[e.1.module]? = some module)
      = (order.order linker.map).filter fun e => e.1.module = (linker.internStr module).1 := by
    refine List.filter_congr fun e he => ?_
    obtain ⟨module', -, hmodule', -⟩ := h.keys e ((order.perm _).mem_iff.1 he)
    refine decide_eq_decide.2 ⟨fun heq => ?_, fun heq => ?_⟩
    · exact hinv₁.strings.injective (hi₁.getElem? heq) hmodule
    · rw [← heq, hi₁.getElem? hmodule'] at hmodule
      rw [hmodule', hmodule]
  rw [aliased, hfilter, under, List.map_map]
  refine List.forall₂_map_left_iff.2 (List.forall₂_map_right_iff.2 (List.forall₂_same.2 ?_))
  intro e he
  obtain ⟨-, name, -, hname⟩ := h.keys e ((order.perm _).mem_iff.1 (List.mem_filter.1 he).1)
  refine ⟨⟨hasModule, ?_⟩, rfl⟩
  rw [Function.comp, hname]
  exact hi.getElem? hname

/-- A call that inserts does as a write-once map does. -/
theorem step_spec (h : linker.Inv) {op : LinkerOp} {module : String} {items : List (String × Extern)}
    (hins : linker.Inserts op module items) :
    ∃ linker', linker.step op
        = .ok (.defined (resultOf (insertAll linker.defs (under module items)).2), linker')
      ∧ linker'.Inv ∧ linker'.defs = (insertAll linker.defs (under module items)).1 := by
  cases hins with
  | defineInstance hexports =>
    obtain ⟨hinv, hi, hitems⟩ := importKeys_spec module h
    obtain ⟨linker', hinsert, hinv', hdefs⟩ := insertItems_spec hinv hitems
    rw [defs_interns h hinv hi] at hinsert hdefs
    refine ⟨linker', ?_, hinv', hdefs⟩
    simp only [step, defineInstance, hexports, hinsert, bind, Except.bind, pure, Except.pure]
  | aliasModule =>
    obtain ⟨linker', halias, hspec⟩ := aliasModule_spec h _ _ _
    refine ⟨linker', ?_, hspec⟩
    simp only [step, halias, bind, Except.bind, pure, Except.pure]

/-! ## Refinement -/

theorem mem_under {module : String} {items : List (String × Extern)} {k : String × String}
    (h : k ∈ (under module items).map Prod.fst) : k.1 = module ∧ items.lookup k.2 ≠ none := by
  obtain ⟨e, he, rfl⟩ := List.mem_map.1 h
  obtain ⟨e', he', rfl⟩ := List.mem_map.1 he
  refine ⟨rfl, fun hnone => ?_⟩
  have hne := List.lookup_eq_none_iff.1 hnone e' he'
  simp at hne

/-- What a call inserts is what it is to define. -/
theorem Inserts.news (h : linker.Inv) {op : LinkerOp} {module : String}
    {items : List (String × Extern)} (hins : linker.Inserts op module items) :
    op.News linker.defs module fun n => items.lookup n := by
  cases hins with
  | defineInstance hexports => exact .defineInstance hexports
  | @aliasModule order source =>
    have hlookup : (fun n => (linker.aliased order source).lookup n)
        = fun n => linker.defs (source, n) := by
      funext n
      refine Option.ext fun v => ?_
      rw [WriteOnce.lookup_eq_some_iff_mem (aliased_nodup h order source), mem_aliased h order]
    rw [hlookup]
    exact .aliasModule

theorem Inserts.step (h : linker.Inv) {op : LinkerOp} {module : String}
    {items : List (String × Extern)} (hins : linker.Inserts op module items) :
    ∃ out linker', linker.step op = .ok (out, linker') ∧ linker'.Inv
      ∧ op.Step linker.defs out linker'.defs := by
  obtain ⟨linker', hstep, hinv, hdefs⟩ := step_spec h hins
  refine ⟨_, linker', hstep, hinv, ?_⟩
  rcases hall : (insertAll linker.defs (under module items)).2 with _ | k
  · have hadd : linker'.defs = linker.defs.add module fun n => items.lookup n := by
      funext k
      rw [hdefs, WriteOnce.insertAll_lookup hall, lookup_under]
      rfl
    rw [hadd]
    refine .defined (hins.news h) fun n hn => ?_
    obtain ⟨v, hv⟩ := Option.ne_none_iff_exists'.1 hn
    exact (WriteOnce.insertAll_accepted_iff.1 hall).1 ((module, n), v)
      (List.mem_map.2 ⟨(n, v), WriteOnce.mem_of_lookup hv, rfl⟩)
  · obtain ⟨hmem, hsome⟩ := WriteOnce.insertAll_clash hall
    obtain ⟨rfl, hname⟩ := mem_under hmem
    refine .refused (hins.news h) ⟨fun k' v hk' => ?_, fun k' v hk' => ?_⟩ ⟨hname, ?_⟩
    · rw [hdefs]
      exact WriteOnce.insertAll_keeps hk'
    · rw [hdefs] at hk'
      refine (WriteOnce.insertAll_only hk').imp_right fun hk' => ?_
      rw [lookup_under] at hk'
      by_cases hm : k'.1 = k.1
      · rw [if_pos hm] at hk'
        exact ⟨hm, hk'⟩
      · rw [if_neg hm] at hk'
        cases hk'
    · rw [hdefs]
      exact Option.isSome_iff_ne_none.1 hsome

/-- The exports of the instance cannot be had. -/
def Panics : LinkerOp → Prop
  | .defineInstance store _ instance_ => ∃ f, store.exports instance_ = .error f
  | _ => False

theorem step_refines (h : linker.Inv) (op : LinkerOp) :
    Linker.Panics op ∨ ∃ out linker', linker.step op = .ok (out, linker') ∧ linker'.Inv
      ∧ op.Step linker.defs out linker'.defs := by
  cases op with
  | defineInstance store module instance_ =>
    rcases hexports : store.exports instance_ with f | ⟨exports, store'⟩
    · exact .inl ⟨f, hexports⟩
    · exact .inr (Inserts.step h (.defineInstance hexports))
  | aliasModule order module asModule => exact .inr (Inserts.step h .aliasModule)
  | get module name => exact .inr ⟨_, linker, rfl, h, .get⟩

theorem run_refines : ∀ (ops : List LinkerOp) {linker : Linker}, linker.Inv →
    (∃ op ∈ ops, Linker.Panics op) ∨ ∃ outs linker', linker.run ops = .ok (outs, linker') ∧ linker'.Inv
      ∧ LinkerOp.Run linker.defs ops outs linker'.defs
  | [], linker, h => .inr ⟨[], linker, rfl, h, .nil⟩
  | op :: ops, linker, h => by
    rcases step_refines h op with hpanics | ⟨out, linker₁, hstep, hinv, hspec⟩
    · exact .inl ⟨op, List.mem_cons_self, hpanics⟩
    · rcases run_refines ops hinv with ⟨op', hop', hpanics⟩ | ⟨outs, linker₂, hrun, hinv₂, hrest⟩
      · exact .inl ⟨op', List.mem_cons_of_mem _ hop', hpanics⟩
      · refine .inr ⟨out :: outs, linker₂, ?_, hinv₂, .cons hspec hrest⟩
        simp only [run, hstep, hrun, bind, Except.bind, pure, Except.pure]

end Linker

/-- Whatever calls are made of a new linker, and unless the exports of an instance cannot be had, it
returns what a write-once map from pairs of names returns, and has its definitions. -/
theorem linker_refines_writeOnce (ops : List LinkerOp) :
    (∃ op ∈ ops, Linker.Panics op) ∨ ∃ outs linker defs, Linker.new.run ops = .ok (outs, linker)
      ∧ LinkerOp.Run (fun _ => none) ops outs defs
      ∧ (∀ module name, linker.get module name = defs (module, name)) ∧ linker.Inv := by
  rcases Linker.run_refines ops Linker.inv_new with hpanics | ⟨outs, linker, hrun, hinv, hspec⟩
  · exact .inl hpanics
  · exact .inr ⟨outs, linker, linker.defs, hrun, hspec, fun _ _ => rfl, hinv⟩

/-! ## Refused definitions -/

/-- The linkers that calls of a new one leave. -/
def Linker.Reachable (linker : Linker) : Prop := ∃ ops outs, Linker.new.run ops = .ok (outs, linker)

theorem Linker.inv_of_run : ∀ (ops : List LinkerOp) {linker linker' : Linker}
    {outs : List LinkerOutput}, linker.Inv → linker.run ops = .ok (outs, linker') → linker'.Inv
  | [], linker, linker', outs, h, hrun => by
    obtain ⟨-, rfl⟩ := Prod.mk.inj (Except.ok.inj hrun)
    exact h
  | op :: ops, linker, linker', outs, h, hrun => by
    obtain ⟨⟨out, linker₁⟩, hstep, hrun⟩ := bind_eq_ok.1 hrun
    obtain ⟨⟨outs', linker₂⟩, hrest, hrun⟩ := bind_eq_ok.1 hrun
    obtain ⟨-, rfl⟩ := Prod.mk.inj (Except.ok.inj hrun)
    refine inv_of_run ops ?_ hrest
    rcases step_refines h op with hpanics | ⟨out', linker₁', hstep', hinv, -⟩
    · cases op with
      | defineInstance store module instance_ =>
        obtain ⟨f, hf⟩ := hpanics
        simp only [step, defineInstance, hf, bind, Except.bind] at hstep
        cases hstep
      | _ => exact hpanics.elim
    · rw [hstep] at hstep'
      obtain ⟨-, rfl⟩ := Prod.mk.inj (Except.ok.inj hstep')
      exact hinv

/-- The first of the items that cannot be defined under the name of a module, since it is defined there
already, or shares its name with one before it; the items before it can be. -/
structure Linker.FirstClash (linker : Linker) (module : String) (pre : List (String × Extern))
    (clash : String × Extern) : Prop where
  fresh : ∀ item ∈ pre, linker.get module item.1 = none
  nodup : (pre.map Prod.fst).Nodup
  defined : linker.get module clash.1 ≠ none ∨ clash.1 ∈ pre.map Prod.fst

/-- What a call that is refused leaves: the items before the clash are defined. -/
theorem Linker.refused_spec {linker linker' : Linker} (h : linker.Inv) {op : LinkerOp}
    {module : String} {items : List (String × Extern)} (hins : linker.Inserts op module items)
    {e : Error} (hstep : linker.step op = .ok (.defined (.error e), linker')) :
    ∃ pre clash post, items = pre ++ clash :: post ∧ e = .alreadyDefined module clash.1
      ∧ linker.FirstClash module pre clash
      ∧ ∀ m n, linker'.get m n
        = (linker.get m n).or (if m = module then pre.lookup n else none) := by
  obtain ⟨linker₁, hstep', -, hdefs⟩ := step_spec h hins
  rw [hstep] at hstep'
  obtain ⟨hresult, rfl⟩ := Prod.mk.inj (Except.ok.inj hstep')
  have hresult := LinkerOutput.defined.inj hresult
  rcases hall : (insertAll linker.defs (under module items)).2 with _ | k
  · rw [hall] at hresult
    cases hresult
  · rw [hall] at hresult
    obtain ⟨pre', v, post', heq, hpre, hsome, hsplit⟩ := WriteOnce.insertAll_split hall
    obtain ⟨pre, rest, rfl, rfl, hrest⟩ := List.map_eq_append_iff.1 heq
    obtain ⟨clash, post, rfl, hclash, -⟩ := List.map_eq_cons_iff.1 hrest
    obtain rfl := (Prod.mk.inj hclash).1
    obtain ⟨hfresh, hnodup⟩ := WriteOnce.insertAll_accepted_iff.1 hpre
    have hlookup := lookup_under module pre (module, clash.1)
    rw [under, if_pos rfl] at hlookup
    rw [WriteOnce.insertAll_lookup hpre, hlookup, Option.isSome_or, Bool.or_eq_true] at hsome
    refine ⟨pre, clash, post, rfl, Except.error.inj hresult, ⟨?_, ?_, ?_⟩, fun m n => ?_⟩
    · exact fun item hitem => hfresh ((module, item.1), item.2) (List.mem_map_of_mem hitem)
    · rw [List.map_map] at hnodup
      refine List.Nodup.of_map (module, ·) ?_
      rwa [List.map_map]
    · refine hsome.imp Option.isSome_iff_ne_none.1 fun hpresent => ?_
      obtain ⟨v', hv'⟩ := Option.isSome_iff_exists.1 hpresent
      exact List.mem_map.2 ⟨(clash.1, v'), WriteOnce.mem_of_lookup hv', rfl⟩
    have hget := congrFun (hdefs.trans hsplit) (m, n)
    rw [WriteOnce.insertAll_lookup hpre] at hget
    exact hget.trans (congrArg _ (lookup_under module pre (m, n)))

/-- A call that is refused changes nothing exactly where the first item is refused. -/
theorem Linker.refused_unchanged_iff {linker linker' : Linker} (h : linker.Inv) {op : LinkerOp}
    {module : String} {items : List (String × Extern)} (hins : linker.Inserts op module items)
    {e : Error} (hstep : linker.step op = .ok (.defined (.error e), linker')) :
    (∀ m n, linker'.get m n = linker.get m n) ↔
      ∃ first ∈ items.head?, linker.get module first.1 ≠ none := by
  obtain ⟨linker₁, hstep', -, hdefs⟩ := step_spec h hins
  rw [hstep] at hstep'
  obtain ⟨hresult, rfl⟩ := Prod.mk.inj (Except.ok.inj hstep')
  have hresult := LinkerOutput.defined.inj hresult
  have hall : (insertAll linker.defs (under module items)).2 ≠ none := by
    intro hnone
    rw [hnone] at hresult
    cases hresult
  have hsame : (∀ m n, linker'.get m n = linker.get m n)
      ↔ (insertAll linker.defs (under module items)).1 = linker.defs := by
    rw [← hdefs]
    exact ⟨fun hget => funext fun k => hget k.1 k.2, fun heq m n => congrFun heq (m, n)⟩
  rw [hsame, WriteOnce.insertAll_unchanged_iff hall]
  cases items <;> simp [under, defs, Option.isSome_iff_ne_none]

/-- In every linker that calls leave, a call that is refused names the first item that clashes, keeps every
definition and adds the items before that one, so that it changes nothing exactly where it is the first of
all. -/
theorem refused_adds_items_before {linker linker' : Linker} (h : linker.Reachable) {op : LinkerOp}
    {module : String} {items : List (String × Extern)} (hins : linker.Inserts op module items)
    {e : Error} (hstep : linker.step op = .ok (.defined (.error e), linker')) :
    (∃ pre clash post, items = pre ++ clash :: post ∧ e = .alreadyDefined module clash.1
      ∧ linker.FirstClash module pre clash
      ∧ ∀ m n, linker'.get m n
        = (linker.get m n).or (if m = module then pre.lookup n else none))
      ∧ ((∀ m n, linker'.get m n = linker.get m n) ↔
        ∃ first ∈ items.head?, linker.get module first.1 ≠ none) := by
  obtain ⟨ops, outs, hrun⟩ := h
  have hinv := Linker.inv_of_run ops Linker.inv_new hrun
  exact ⟨Linker.refused_spec hinv hins hstep, Linker.refused_unchanged_iff hinv hins hstep⟩

section Example

/-- A module with one function, which is exported under the given names. -/
def exportingModule (names : List String) : TranslatedModule where
  types := [0]
  functions := [⟨0, 0⟩]
  exports := names.map fun name => (name, .function 0)
  numEscapedFunctions := 1

def exportingInstance (address : ℕ) (names : List String) : Instance :=
  { instanceOf 0x8000 address (exportingModule names) calleeOffsets {} with
    exports := names.map fun _ => none }

/-- A store with an instance that exports `y`, and one that exports `x` and `y`. -/
def exportingStore : Store :=
  let (_, store) := ({} : Store).pushInstance (exportingInstance 0x3000 ["y"])
  let (_, store) := store.pushInstance (exportingInstance 0x6000 ["x", "y"])
  store

/-- A linker where `y` is defined under the name `m`. -/
def definedLinker : Linker := ⟨[("y", 1), ("m", 0)], ["m", "y"], [(⟨1, 0⟩, .func 0)]⟩

theorem definedLinker_reachable : definedLinker.Reachable :=
  ⟨[.defineInstance exportingStore "m" 0], [.defined (.ok ())], rfl⟩

/-- The exports of the second instance are refused under that name, and leave `x`. -/
theorem not_refused_changes_nothing :
    definedLinker.Reachable ∧ ∃ exports store linker store',
      exportingStore.exports 0 = .ok (exports, store)
      ∧ definedLinker.defineInstance store "m" 1
        = .ok ((.error (.alreadyDefined "m" "y"), linker), store')
      ∧ definedLinker.get "m" "x" = none ∧ linker.get "m" "x" = some (.func 1) :=
  ⟨definedLinker_reachable, _, _, _, _, rfl, rfl, rfl, rfl⟩

/-- Those of the first instance are refused, too, and leave nothing. -/
theorem refused_adds_items_before_first :
    ∃ linker, definedLinker.step (.defineInstance exportingStore "m" 0)
        = .ok (.defined (.error (.alreadyDefined "m" "y")), linker)
      ∧ ∀ m n, linker.get m n = definedLinker.get m n := by
  obtain ⟨linker, hstep⟩ : ∃ linker, definedLinker.step (.defineInstance exportingStore "m" 0)
      = .ok (.defined (.error (.alreadyDefined "m" "y")), linker) := ⟨_, rfl⟩
  have hins : definedLinker.Inserts (.defineInstance exportingStore "m" 0) "m" [("y", .func 0)] :=
    .defineInstance rfl
  have hspec := refused_adds_items_before definedLinker_reachable hins hstep
  exact ⟨linker, hstep, hspec.2.2 ⟨("y", .func 0), rfl, by decide⟩⟩

end Example

end K23VM
