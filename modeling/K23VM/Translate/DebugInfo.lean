import K23VM.Translate.Payload

/-!
# Debug information

The custom sections with DWARF data are collected while a module is translated.  What `gimli` makes of
the bytes of a section is a parameter.
-/

namespace K23VM

open Wasmparser (BinaryReaderError Payload CustomSection)

/-- The sections that `translate_dwarf_section` recognises. -/
inductive DwarfSection where
  | debugAbbrev | debugAddr | debugInfo | debugLine | debugLineStr | debugStr | debugStrOffsets
  | debugStrSup | debugTypes
  | debugLoc | debugLoclists | debugRanges | debugRnglists
  | debugCuIndex | debugTuIndex
  deriving DecidableEq, Repr

def DwarfSection.ofName : String → Option DwarfSection
  | ".debug_abbrev" => some .debugAbbrev
  | ".debug_addr" => some .debugAddr
  | ".debug_info" => some .debugInfo
  | ".debug_line" => some .debugLine
  | ".debug_line_str" => some .debugLineStr
  | ".debug_str" => some .debugStr
  | ".debug_str_offsets" => some .debugStrOffsets
  | ".debug_str_sup" => some .debugStrSup
  | ".debug_types" => some .debugTypes
  | ".debug_loc" => some .debugLoc
  | ".debug_loclists" => some .debugLoclists
  | ".debug_ranges" => some .debugRanges
  | ".debug_rnglists" => some .debugRnglists
  | ".debug_cu_index" => some .debugCuIndex
  | ".debug_tu_index" => some .debugTuIndex
  | _ => none

/-- The readers of `gimli`: one for the bytes of each section, and one over two sections for the range
lists and the location lists. -/
structure Gimli (S R L : Type) where
  section_ : DwarfSection → List UInt8 → S
  default_ : DwarfSection → S
  rangeLists : S → S → R
  defaultRangeLists : R
  locationLists : S → S → L
  defaultLocationLists : L

/-- `gimli::Dwarf`, without its supplementary object file. -/
structure DwarfFields (S R L : Type) where
  debugAbbrev : S
  debugAddr : S
  debugInfo : S
  debugLine : S
  debugLineStr : S
  debugStr : S
  debugStrOffsets : S
  debugTypes : S
  ranges : R
  locations : L
  deriving DecidableEq, Repr

@[ext] structure Dwarf (S R L : Type) extends DwarfFields S R L where
  sup : Option (DwarfFields S R L)
  deriving DecidableEq, Repr

structure DebugInfo (S R L : Type) where
  dwarf : Dwarf S R L
  debugLoc : S
  debugLoclists : S
  debugRanges : S
  debugRnglists : S
  debugCuIndex : S
  debugTuIndex : S
  deriving DecidableEq, Repr

variable {S R L : Type} (g : Gimli S R L)

def DwarfFields.default : DwarfFields S R L where
  debugAbbrev := g.default_ .debugAbbrev
  debugAddr := g.default_ .debugAddr
  debugInfo := g.default_ .debugInfo
  debugLine := g.default_ .debugLine
  debugLineStr := g.default_ .debugLineStr
  debugStr := g.default_ .debugStr
  debugStrOffsets := g.default_ .debugStrOffsets
  debugTypes := g.default_ .debugTypes
  ranges := g.defaultRangeLists
  locations := g.defaultLocationLists

def Dwarf.default : Dwarf S R L := { DwarfFields.default g with sup := none }

def DebugInfo.default : DebugInfo S R L where
  dwarf := .default g
  debugLoc := g.default_ .debugLoc
  debugLoclists := g.default_ .debugLoclists
  debugRanges := g.default_ .debugRanges
  debugRnglists := g.default_ .debugRnglists
  debugCuIndex := g.default_ .debugCuIndex
  debugTuIndex := g.default_ .debugTuIndex

/-- The branches of the match: a section goes to a new `Dwarf`, or to the debug information. -/
def DebugInfo.setSection (info : DebugInfo S R L) (data : List UInt8) :
    DwarfSection → Dwarf S R L × DebugInfo S R L
  | .debugAbbrev =>
    ({ Dwarf.default g with debugAbbrev := g.section_ .debugAbbrev data }, info)
  | .debugAddr => ({ Dwarf.default g with debugAddr := g.section_ .debugAddr data }, info)
  | .debugInfo => ({ Dwarf.default g with debugInfo := g.section_ .debugInfo data }, info)
  | .debugLine => ({ Dwarf.default g with debugLine := g.section_ .debugLine data }, info)
  | .debugLineStr =>
    ({ Dwarf.default g with debugLineStr := g.section_ .debugLineStr data }, info)
  | .debugStr => ({ Dwarf.default g with debugStr := g.section_ .debugStr data }, info)
  | .debugStrOffsets =>
    ({ Dwarf.default g with debugStrOffsets := g.section_ .debugStrOffsets data }, info)
  | .debugStrSup =>
    ({ Dwarf.default g with
      sup := some { DwarfFields.default g with debugStr := g.section_ .debugStr data } }, info)
  | .debugTypes => ({ Dwarf.default g with debugTypes := g.section_ .debugTypes data }, info)
  | .debugLoc => (.default g, { info with debugLoc := g.section_ .debugLoc data })
  | .debugLoclists => (.default g, { info with debugLoclists := g.section_ .debugLoclists data })
  | .debugRanges => (.default g, { info with debugRanges := g.section_ .debugRanges data })
  | .debugRnglists => (.default g, { info with debugRnglists := g.section_ .debugRnglists data })
  | .debugCuIndex => (.default g, { info with debugCuIndex := g.section_ .debugCuIndex data })
  | .debugTuIndex => (.default g, { info with debugTuIndex := g.section_ .debugTuIndex data })

/-- The `Dwarf` is built anew for every section that is recognised. -/
def DebugInfo.translateDwarfSection (info : DebugInfo S R L) (name : String) (data : List UInt8) :
    DebugInfo S R L :=
  match DwarfSection.ofName name with
  | none => info
  | some section_ =>
    let (dwarf, info) := info.setSection g data section_
    { info with
      dwarf :=
        { dwarf with
          ranges := g.rangeLists info.debugRanges info.debugRnglists
          locations := g.locationLists info.debugLoc info.debugLoclists } }

/-- `trim_end_matches`; a string of `n` characters ends in fewer than `n + 1` copies of a pattern. -/
def trimEndMatches (pat : List Char) : ℕ → List Char → List Char
  | 0, s => s
  | n + 1, s =>
    if pat.isSuffixOf s then trimEndMatches pat n (s.take (s.length - pat.length)) else s

/-- Whether a custom section is taken for one with DWARF data. -/
def isDwarfName (name : String) : Bool :=
  ".debug_".toList.isPrefixOf (trimEndMatches ".dwo".toList name.length name.toList)

def DebugInfo.translateCustomSection (info : DebugInfo S R L) : CustomSection → DebugInfo S R L
  | .targetFeatures _ | .name _ | .producers _ => info
  | .other name data =>
    if isDwarfName name then info.translateDwarfSection g name data else info

def DebugInfo.translatePayload (info : DebugInfo S R L) : Payload → DebugInfo S R L
  | .customSection contents => info.translateCustomSection g contents
  | _ => info

/-- The debug information that the payloads of a module leave. -/
def debugInfo (payloads : List Payload) : DebugInfo S R L :=
  payloads.foldl (DebugInfo.translatePayload g) (.default g)

end K23VM
