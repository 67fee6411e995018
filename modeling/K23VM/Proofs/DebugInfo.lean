import K23VM.Translate.DebugInfo
import Mathlib.Tactic

/-!
# The DWARF sections of a module

Every section that is recognised replaces the `Dwarf` that the sections before it left, so that of the
sections it holds itself only the last one stays.
-/

namespace K23VM

open Wasmparser (Payload)

variable {S R L : Type} (g : Gimli S R L)

/-! ## Sections -/

/-- The section that a payload is recognised as, with its data. -/
def recognised? : Payload → Option (DwarfSection × List UInt8)
  | .customSection (.other name data) => (DwarfSection.ofName name).map (·, data)
  | _ => none

def dwarfSections (payloads : List Payload) : List (DwarfSection × List UInt8) :=
  payloads.filterMap recognised?

/-- What is done for a section that is recognised. -/
def DebugInfo.collect (info : DebugInfo S R L) (s : DwarfSection × List UInt8) : DebugInfo S R L :=
  let (dwarf, info) := info.setSection g s.2 s.1
  { info with
    dwarf :=
      { dwarf with
        ranges := g.rangeLists info.debugRanges info.debugRnglists
        locations := g.locationLists info.debugLoc info.debugLoclists } }

/-- Names of recognised sections begin like the name of a debug section. -/
theorem isDwarfName_of_ofName {name : String} {k : DwarfSection}
    (h : DwarfSection.ofName name = some k) : isDwarfName name = true := by
  unfold DwarfSection.ofName at h
  split at h
  all_goals first | decide | cases h

theorem translatePayload_collect (info : DebugInfo S R L) (p : Payload) :
    info.translatePayload g p = (recognised? p).elim info (info.collect g) := by
  cases p with
  | customSection contents =>
    cases contents with
    | other name data =>
      simp only [DebugInfo.translatePayload, DebugInfo.translateCustomSection, recognised?]
      rcases hname : DwarfSection.ofName name with _ | k
      · simp [DebugInfo.translateDwarfSection, hname]
      · rw [if_pos (isDwarfName_of_ofName hname)]
        simp [DebugInfo.translateDwarfSection, hname, DebugInfo.collect]
    | _ => rfl
  | _ => rfl

theorem debugInfo_eq (payloads : List Payload) :
    debugInfo g payloads = (dwarfSections payloads).foldl (DebugInfo.collect g) (.default g) := by
  unfold debugInfo dwarfSections
  rw [List.foldl_filterMap]
  congr 1
  funext info p
  rw [translatePayload_collect]
  cases recognised? p <;> rfl

/-! ## What is kept -/

/-- The debug information has the data of a section in its `Dwarf`; the package indices are not part of
that. -/
def DebugInfo.Holds (info : DebugInfo S R L) : DwarfSection × List UInt8 → Prop
  | (.debugAbbrev, data) => info.dwarf.debugAbbrev = g.section_ .debugAbbrev data
  | (.debugAddr, data) => info.dwarf.debugAddr = g.section_ .debugAddr data
  | (.debugInfo, data) => info.dwarf.debugInfo = g.section_ .debugInfo data
  | (.debugLine, data) => info.dwarf.debugLine = g.section_ .debugLine data
  | (.debugLineStr, data) => info.dwarf.debugLineStr = g.section_ .debugLineStr data
  | (.debugStr, data) => info.dwarf.debugStr = g.section_ .debugStr data
  | (.debugStrOffsets, data) => info.dwarf.debugStrOffsets = g.section_ .debugStrOffsets data
  | (.debugStrSup, data) =>
    info.dwarf.sup = some { DwarfFields.default g with debugStr := g.section_ .debugStr data }
  | (.debugTypes, data) => info.dwarf.debugTypes = g.section_ .debugTypes data
  | (.debugLoc, data) => info.debugLoc = g.section_ .debugLoc data
    ∧ info.dwarf.locations = g.locationLists info.debugLoc info.debugLoclists
  | (.debugLoclists, data) => info.debugLoclists = g.section_ .debugLoclists data
    ∧ info.dwarf.locations = g.locationLists info.debugLoc info.debugLoclists
  | (.debugRanges, data) => info.debugRanges = g.section_ .debugRanges data
    ∧ info.dwarf.ranges = g.rangeLists info.debugRanges info.debugRnglists
  | (.debugRnglists, data) => info.debugRnglists = g.section_ .debugRnglists data
    ∧ info.dwarf.ranges = g.rangeLists info.debugRanges info.debugRnglists
  | (.debugCuIndex, _) | (.debugTuIndex, _) => True

/-- The data of the section can be read off a `Dwarf` that was built for another section: the lists are
kept beside it, and the data of the others reads as if there was none. -/
def DwarfSection.Survives : DwarfSection × List UInt8 → Prop
  | (.debugStrSup, _) => False
  | (.debugLoc, _) | (.debugLoclists, _) | (.debugRanges, _) | (.debugRnglists, _)
  | (.debugCuIndex, _) | (.debugTuIndex, _) => True
  | (k, data) => g.default_ k = g.section_ k data

variable {g} {info : DebugInfo S R L} {s s' : DwarfSection × List UInt8}

/-- The debug information has no data for a section. -/
def DebugInfo.Lacks (g : Gimli S R L) (info : DebugInfo S R L) : DwarfSection → Prop
  | .debugAbbrev => info.dwarf.debugAbbrev = g.default_ .debugAbbrev
  | .debugAddr => info.dwarf.debugAddr = g.default_ .debugAddr
  | .debugInfo => info.dwarf.debugInfo = g.default_ .debugInfo
  | .debugLine => info.dwarf.debugLine = g.default_ .debugLine
  | .debugLineStr => info.dwarf.debugLineStr = g.default_ .debugLineStr
  | .debugStr => info.dwarf.debugStr = g.default_ .debugStr
  | .debugStrOffsets => info.dwarf.debugStrOffsets = g.default_ .debugStrOffsets
  | .debugStrSup => info.dwarf.sup = none
  | .debugTypes => info.dwarf.debugTypes = g.default_ .debugTypes
  | .debugLoc => info.debugLoc = g.default_ .debugLoc
  | .debugLoclists => info.debugLoclists = g.default_ .debugLoclists
  | .debugRanges => info.debugRanges = g.default_ .debugRanges
  | .debugRnglists => info.debugRnglists = g.default_ .debugRnglists
  | .debugCuIndex => info.debugCuIndex = g.default_ .debugCuIndex
  | .debugTuIndex => info.debugTuIndex = g.default_ .debugTuIndex

theorem holds_collect (info : DebugInfo S R L) (s : DwarfSection × List UInt8) :
    (info.collect g s).Holds g s := by
  obtain ⟨k, data⟩ := s
  cases k <;> first | rfl | exact trivial | exact ⟨rfl, rfl⟩

theorem survives_of_holds (h : (info.collect g s').Holds g s) (hne : s.1 ≠ s'.1) :
    DwarfSection.Survives g s := by
  obtain ⟨k, data⟩ := s
  obtain ⟨k', data'⟩ := s'
  cases k <;> cases k' <;> first | exact h | exact trivial | exact absurd rfl hne | cases h

theorem holds_collect_of_ne (hs : DwarfSection.Survives g s) (h : info.Holds g s)
    (hne : s.1 ≠ s'.1) : (info.collect g s').Holds g s := by
  obtain ⟨k, data⟩ := s
  obtain ⟨k', data'⟩ := s'
  cases k <;> cases k' <;>
    first | exact hs | exact trivial | exact absurd rfl hne | exact hs.elim | exact ⟨h.1, rfl⟩

theorem lacks_collect {k : DwarfSection} (h : info.Lacks g k) (hne : k ≠ s'.1) :
    (info.collect g s').Lacks g k := by
  obtain ⟨k', data'⟩ := s'
  cases k <;> cases k' <;> first | rfl | exact h | exact absurd rfl hne

theorem holds_foldl (hs : DwarfSection.Survives g s) :
    ∀ {sections : List (DwarfSection × List UInt8)} {info : DebugInfo S R L}, info.Holds g s →
      s.1 ∉ sections.map Prod.fst → (sections.foldl (DebugInfo.collect g) info).Holds g s
  | [], _, h, _ => h
  | s' :: sections, _, h, hnot => by
    rw [List.map_cons, List.mem_cons, not_or] at hnot
    rw [List.foldl_cons]
    exact holds_foldl hs (holds_collect_of_ne hs h hnot.1) hnot.2

theorem lacks_foldl {k : DwarfSection} :
    ∀ {sections : List (DwarfSection × List UInt8)} {info : DebugInfo S R L}, info.Lacks g k →
      k ∉ sections.map Prod.fst → (sections.foldl (DebugInfo.collect g) info).Lacks g k
  | [], _, h, _ => h
  | s' :: sections, _, h, hnot => by
    rw [List.map_cons, List.mem_cons, not_or] at hnot
    rw [List.foldl_cons]
    exact lacks_foldl (lacks_collect h hnot.1) hnot.2

/-- Of the sections that a `Dwarf` holds itself, only the last section can be one whose data matters. -/
theorem holds_foldl_iff {sections : List (DwarfSection × List UInt8)} (info : DebugInfo S R L)
    (hdistinct : (sections.map Prod.fst).Nodup) :
    (∀ s ∈ sections, (sections.foldl (DebugInfo.collect g) info).Holds g s) ↔
      ∀ s ∈ sections.dropLast, DwarfSection.Survives g s := by
  rcases List.eq_nil_or_concat' sections with rfl | ⟨init, last, rfl⟩
  · simp
  · rw [List.map_append, List.nodup_append] at hdistinct
    obtain ⟨hinit, -, hlast⟩ := hdistinct
    have hne : ∀ s ∈ init, s.1 ≠ last.1 := fun s hs =>
      hlast s.1 (List.mem_map_of_mem hs) last.1 (by simp)
    rw [List.foldl_append, List.dropLast_concat]
    constructor
    · intro h s hs
      exact survives_of_holds (h s (List.mem_append_left _ hs)) (hne s hs)
    · intro h s hs
      rcases List.mem_append.1 hs with hs | hs
      · refine holds_collect_of_ne (h s hs) ?_ (hne s hs)
        obtain ⟨before, after, rfl⟩ := List.append_of_mem hs
        rw [List.map_append, List.nodup_append, List.map_cons, List.nodup_cons] at hinit
        rw [List.foldl_append, List.foldl_cons]
        exact holds_foldl (h s hs) (holds_collect _ s) hinit.2.1.1
      · obtain rfl := List.mem_singleton.1 hs
        exact holds_collect _ s

/-! ## Orders -/

variable {A B : DebugInfo S R L}

/-- Two debug informations have the same data for a section. -/
def DebugInfo.Agree (A B : DebugInfo S R L) : DwarfSection → Prop
  | .debugAbbrev => A.dwarf.debugAbbrev = B.dwarf.debugAbbrev
  | .debugAddr => A.dwarf.debugAddr = B.dwarf.debugAddr
  | .debugInfo => A.dwarf.debugInfo = B.dwarf.debugInfo
  | .debugLine => A.dwarf.debugLine = B.dwarf.debugLine
  | .debugLineStr => A.dwarf.debugLineStr = B.dwarf.debugLineStr
  | .debugStr => A.dwarf.debugStr = B.dwarf.debugStr
  | .debugStrOffsets => A.dwarf.debugStrOffsets = B.dwarf.debugStrOffsets
  | .debugStrSup => A.dwarf.sup = B.dwarf.sup
  | .debugTypes => A.dwarf.debugTypes = B.dwarf.debugTypes
  | .debugLoc => A.debugLoc = B.debugLoc
  | .debugLoclists => A.debugLoclists = B.debugLoclists
  | .debugRanges => A.debugRanges = B.debugRanges
  | .debugRnglists => A.debugRnglists = B.debugRnglists
  | .debugCuIndex | .debugTuIndex => True

theorem agree_of_holds (hA : A.Holds g s) (hB : B.Holds g s) : A.Agree B s.1 := by
  obtain ⟨k, data⟩ := s
  cases k <;>
    first | exact trivial | exact hA.1.trans hB.1.symm | exact Eq.trans hA (Eq.symm hB)

theorem agree_of_lacks {k : DwarfSection} (hA : A.Lacks g k) (hB : B.Lacks g k) : A.Agree B k := by
  cases k <;> first | exact trivial | exact Eq.trans hA (Eq.symm hB)

/-- The lists are built from the sections beside the `Dwarf`. -/
def DebugInfo.ListsBuilt (g : Gimli S R L) (info : DebugInfo S R L) : Prop :=
  info.dwarf.ranges = g.rangeLists info.debugRanges info.debugRnglists
    ∧ info.dwarf.locations = g.locationLists info.debugLoc info.debugLoclists

theorem dwarf_eq_of_agree (hA : A.ListsBuilt g) (hB : B.ListsBuilt g) (h : ∀ k, A.Agree B k) :
    A.dwarf = B.dwarf := by
  have hranges : A.dwarf.ranges = B.dwarf.ranges := by
    rw [hA.1, hB.1, show A.debugRanges = B.debugRanges from h .debugRanges,
      show A.debugRnglists = B.debugRnglists from h .debugRnglists]
  have hlocations : A.dwarf.locations = B.dwarf.locations := by
    rw [hA.2, hB.2, show A.debugLoc = B.debugLoc from h .debugLoc,
      show A.debugLoclists = B.debugLoclists from h .debugLoclists]
  exact Dwarf.ext (h .debugAbbrev) (h .debugAddr) (h .debugInfo) (h .debugLine) (h .debugLineStr)
    (h .debugStr) (h .debugStrOffsets) (h .debugTypes) hranges hlocations (h .debugStrSup)

theorem listsBuilt_collect (info : DebugInfo S R L) (s : DwarfSection × List UInt8) :
    (info.collect g s).ListsBuilt g := by
  obtain ⟨k, data⟩ := s
  cases k <;> exact ⟨rfl, rfl⟩

theorem lacks_default (k : DwarfSection) : (DebugInfo.default g).Lacks g k := by
  cases k <;> rfl

/-- Two orders of the same sections leave the same `Dwarf` where both keep the data of all of them. -/
theorem dwarf_eq_of_perm {sections sections' : List (DwarfSection × List UInt8)}
    (hperm : sections'.Perm sections)
    (h : ∀ s ∈ sections, (sections.foldl (DebugInfo.collect g) (.default g)).Holds g s)
    (h' : ∀ s ∈ sections', (sections'.foldl (DebugInfo.collect g) (.default g)).Holds g s) :
    (sections'.foldl (DebugInfo.collect g) (.default g)).dwarf
      = (sections.foldl (DebugInfo.collect g) (.default g)).dwarf := by
  have hagree : ∀ k, (sections'.foldl (DebugInfo.collect g) (.default g)).Agree
      (sections.foldl (DebugInfo.collect g) (.default g)) k := by
    intro k
    by_cases hk : k ∈ sections.map Prod.fst
    · obtain ⟨s, hs, rfl⟩ := List.mem_map.1 hk
      exact agree_of_holds (h' s (hperm.mem_iff.2 hs)) (h s hs)
    · have hk' : k ∉ sections'.map Prod.fst := fun hmem => hk ((hperm.map Prod.fst).mem_iff.1 hmem)
      exact agree_of_lacks (lacks_foldl (lacks_default k) hk') (lacks_foldl (lacks_default k) hk)
  rcases List.eq_nil_or_concat' sections with rfl | ⟨init, last, rfl⟩
  · rw [hperm.eq_nil]
  · rcases List.eq_nil_or_concat' sections' with rfl | ⟨init', last', rfl⟩
    · simp at hperm
    · refine dwarf_eq_of_agree (g := g) ?_ ?_ hagree
      · rw [List.foldl_append]
        exact listsBuilt_collect _ last'
      · rw [List.foldl_append]
        exact listsBuilt_collect _ last

/-- The debug information of a module has the data of every recognised section exactly where each of
them but the last survives the sections after it; orders of the same sections for which that holds
leave the same `Dwarf`. -/
theorem dwarf_accumulates_iff (g : Gimli S R L) {payloads : List Payload}
    (hdistinct : ((dwarfSections payloads).map Prod.fst).Nodup) :
    ((∀ s ∈ dwarfSections payloads, (debugInfo g payloads).Holds g s) ↔
        ∀ s ∈ (dwarfSections payloads).dropLast, DwarfSection.Survives g s)
      ∧ ∀ payloads', (dwarfSections payloads').Perm (dwarfSections payloads) →
        (∀ s ∈ (dwarfSections payloads).dropLast, DwarfSection.Survives g s) →
        (∀ s ∈ (dwarfSections payloads').dropLast, DwarfSection.Survives g s) →
        (debugInfo g payloads' : DebugInfo S R L).dwarf = (debugInfo g payloads).dwarf := by
  rw [debugInfo_eq]
  refine ⟨holds_foldl_iff _ hdistinct, fun payloads' hperm h h' => ?_⟩
  have hdistinct' : ((dwarfSections payloads').map Prod.fst).Nodup :=
    (hperm.map Prod.fst).nodup_iff.2 hdistinct
  rw [debugInfo_eq]
  exact dwarf_eq_of_perm hperm ((holds_foldl_iff _ hdistinct).2 h) ((holds_foldl_iff _ hdistinct').2 h')

/-- Readers that keep the bytes. -/
def bytesReader : Gimli (List UInt8) (List UInt8 × List UInt8) (List UInt8 × List UInt8) where
  section_ _ data := data
  default_ _ := []
  rangeLists := Prod.mk
  defaultRangeLists := ([], [])
  locationLists := Prod.mk
  defaultLocationLists := ([], [])

/-- A module with two custom sections of debug data. -/
def abbrevAndInfo : List Payload :=
  [.customSection (.other ".debug_abbrev" [1]), .customSection (.other ".debug_info" [2])]

/-- The abbreviations are lost to the section that follows, and the other order loses the other
section. -/
theorem not_dwarf_accumulates_abbrevAndInfo :
    dwarfSections abbrevAndInfo = [(.debugAbbrev, [1]), (.debugInfo, [2])]
      ∧ ¬ (debugInfo bytesReader abbrevAndInfo).Holds bytesReader (.debugAbbrev, [1])
      ∧ (debugInfo bytesReader abbrevAndInfo.reverse).dwarf
        ≠ (debugInfo bytesReader abbrevAndInfo).dwarf := by
  refine ⟨by decide, ?_, ?_⟩
  · intro h
    cases (show ([] : List UInt8) = [1] from h)
  · intro h
    have habbrev := congrArg (fun d => d.debugAbbrev) h
    cases (show ([1] : List UInt8) = [] from habbrev)

/-- The ranges are kept beside a `Dwarf` for the section that follows. -/
theorem dwarf_accumulates_iff_rangesAndInfo :
    (debugInfo bytesReader [.customSection (.other ".debug_ranges" [1]),
      .customSection (.other ".debug_info" [2])]).Holds bytesReader (.debugRanges, [1]) := by
  refine (dwarf_accumulates_iff bytesReader (by decide)).1.2 (fun s hs => ?_) _ List.mem_cons_self
  obtain rfl := List.mem_singleton.1 (show s ∈ [(DwarfSection.debugRanges, [1])] from hs)
  exact trivial

end K23VM
