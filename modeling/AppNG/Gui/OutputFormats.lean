import Mathlib.Data.List.Induction
import Mathlib.Data.List.Nodup

/-!
# Gui.OutputFormats

`AbstractRequestProcessor.determineFormatAndType`: the format and the type of the output, by what the path asks
for and what is the default.

A loop looks for the format and the type that are requested, and for the default format. What it does not find is
filled in then: a format without types gives way to the default one, and the type may be the default one of the
format, or its first one.

* `found_select`: what the loop has found.
* `considered`: the format for which a type is looked for in the end.
* `determined_iff`: it throws exactly if that format has no type.
* `determines`: what is chosen, and what of the request is met.
-/

namespace AppNG
namespace Gui
namespace OutputFormats

/-! ## The code -/

structure OutputType where
  id : String
  isDefault : Option Bool := none
  deriving DecidableEq, Repr

structure OutputFormat where
  id : String
  isDefault : Option Bool := none
  outputTypes : List OutputType
  deriving DecidableEq, Repr

/-- Ids of formats are distinct, and there is at least one. -/
structure PlatformConfig where
  outputFormats : List OutputFormat
  distinct : (outputFormats.map OutputFormat.id).Nodup
  nonempty : outputFormats ≠ []

structure Path where
  outputFormat : Option String
  outputType : Option String

/-- The fields of the processor, the attribute of the request and the variable for the default format. -/
structure Selection where
  outputFormat : Option OutputFormat := none
  outputType : Option OutputType := none
  explicitFormat : Bool := false
  defaultFormat : Option OutputFormat := none

structure IllegalArgument where
  message : String
  deriving DecidableEq, Repr

variable (path : Path)

/-- The last type with the id that is requested. -/
def selectType (s : Selection) (outputType : OutputType) : Selection :=
  if some outputType.id = path.outputType then { s with outputType := some outputType } else s

def noteDefault (s : Selection) (outputFormat : OutputFormat) : Selection :=
  if outputFormat.isDefault = some true then { s with defaultFormat := some outputFormat } else s

/-- The body of the loop over the formats. -/
def select (s : Selection) (outputFormat : OutputFormat) : Selection :=
  let s := noteDefault s outputFormat
  if some outputFormat.id = path.outputFormat then
    outputFormat.outputTypes.foldl (selectType path)
      { s with outputFormat := some outputFormat, explicitFormat := true }
  else s

def fillFormat (first : OutputFormat) (s : Selection) : Except IllegalArgument OutputFormat :=
  match s.outputFormat with
  | some outputFormat => .ok outputFormat
  | none =>
    match s.defaultFormat with
    | some defaultFormat => .ok defaultFormat
    | none =>
      if first.outputTypes = [] then .error ⟨"no output-types defined for output-format " ++ first.id⟩ else .ok first

/-- The format that a type is looked for in. -/
def switchFormat (s : Selection) (outputFormat : OutputFormat) : OutputFormat :=
  match s.defaultFormat with
  | some defaultFormat =>
    if outputFormat.outputTypes = [] ∧ defaultFormat ≠ outputFormat then defaultFormat else outputFormat
  | none => outputFormat

def fillType (s : Selection) (outputFormat : OutputFormat) : Except IllegalArgument (OutputFormat × OutputType) :=
  match s.outputType with
  | some outputType => .ok (outputFormat, outputType)
  | none =>
    let outputFormat := switchFormat s outputFormat
    match outputFormat.outputTypes.find? fun outputType => outputType.isDefault = some true with
    | some outputType => .ok (outputFormat, outputType)
    | none =>
      match outputFormat.outputTypes with
      | [] => .error ⟨"no output-formats defined for selected format " ++ outputFormat.id⟩
      | outputType :: _ => .ok (outputFormat, outputType)

def determineFormatAndType (outputFormats : List OutputFormat) : Except IllegalArgument (OutputFormat × OutputType) :=
  match outputFormats with
  | [] => .error ⟨"no output-formats defined in master.xml"⟩
  | first :: _ =>
    let s := outputFormats.foldl (select path) {}
    (fillFormat first s).bind (fillType s)

/-! ## The loop -/

def lastDefault (outputFormats : List OutputFormat) : Option OutputFormat :=
  (outputFormats.filter fun format => format.isDefault = some true).getLast?

/-- What the loop has found in some formats. -/
structure Found (outputFormats : List OutputFormat) (s : Selection) : Prop where
  format : ∀ format, s.outputFormat = some format → format ∈ outputFormats ∧ some format.id = path.outputFormat
  noFormat : s.outputFormat = none → s.outputType = none ∧ ∀ format ∈ outputFormats, some format.id ≠ path.outputFormat
  type : ∀ outputType, s.outputType = some outputType →
    ∃ format, s.outputFormat = some format ∧ outputType ∈ format.outputTypes ∧ some outputType.id = path.outputType
  noType : ∀ format, s.outputFormat = some format → s.outputType = none →
    ∀ outputType ∈ format.outputTypes, some outputType.id ≠ path.outputType
  default : s.defaultFormat = lastDefault outputFormats

variable {path}

theorem foldl_selectType (path : Path) (outputTypes : List OutputType) : ∀ {s : Selection},
    (outputTypes.foldl (selectType path) s).outputFormat = s.outputFormat ∧
    (outputTypes.foldl (selectType path) s).defaultFormat = s.defaultFormat ∧
    ((∃ outputType ∈ outputTypes, some outputType.id = path.outputType ∧
        (outputTypes.foldl (selectType path) s).outputType = some outputType) ∨
      (∀ outputType ∈ outputTypes, some outputType.id ≠ path.outputType) ∧
        (outputTypes.foldl (selectType path) s).outputType = s.outputType) := by
  induction outputTypes with
  | nil => exact ⟨rfl, rfl, .inr ⟨nofun, rfl⟩⟩
  | cons outputType outputTypes ih =>
    intro s
    obtain ⟨hformat, hdefault, htype⟩ := ih (s := selectType path s outputType)
    rw [List.foldl_cons, hformat, hdefault]
    by_cases hid : some outputType.id = path.outputType
    · refine ⟨by rw [selectType, if_pos hid], by rw [selectType, if_pos hid], .inl ?_⟩
      rcases htype with ⟨later, hmem, hlater, heq⟩ | ⟨_, heq⟩
      · exact ⟨later, List.mem_cons_of_mem _ hmem, hlater, heq⟩
      · exact ⟨outputType, List.mem_cons_self, hid, by rw [heq, selectType, if_pos hid]⟩
    · refine ⟨by rw [selectType, if_neg hid], by rw [selectType, if_neg hid], ?_⟩
      rcases htype with ⟨later, hmem, hlater, heq⟩ | ⟨hnone, heq⟩
      · exact .inl ⟨later, List.mem_cons_of_mem _ hmem, hlater, heq⟩
      · exact .inr ⟨List.forall_mem_cons.mpr ⟨hid, hnone⟩, by rw [heq, selectType, if_neg hid]⟩

@[simp] theorem noteDefault_outputFormat (s : Selection) (format : OutputFormat) :
    (noteDefault s format).outputFormat = s.outputFormat := by
  rw [noteDefault]
  split
  · rfl
  · rfl

@[simp] theorem noteDefault_outputType (s : Selection) (format : OutputFormat) :
    (noteDefault s format).outputType = s.outputType := by
  rw [noteDefault]
  split
  · rfl
  · rfl

section Step

variable {outputFormats : List OutputFormat} {s : Selection} {format : OutputFormat}

theorem Found.noteDefault (h : Found path outputFormats s) (format : OutputFormat) :
    (noteDefault s format).defaultFormat = lastDefault (outputFormats ++ [format]) := by
  rw [OutputFormats.noteDefault, lastDefault, List.filter_append, List.getLast?_append]
  by_cases hdefault : format.isDefault = some true
  · simp [hdefault]
  · simp [hdefault, h.default, lastDefault]

/-- A format that was requested was not there before, so no type has been found. -/
theorem Found.fresh (h : Found path outputFormats s) (hnew : format.id ∉ outputFormats.map OutputFormat.id)
    (hid : some format.id = path.outputFormat) : s.outputType = none := by
  cases hs : s.outputFormat with
  | none => exact (h.noFormat hs).1
  | some f =>
    obtain ⟨hmem, hf⟩ := h.format f hs
    exact absurd (List.mem_map.mpr ⟨f, hmem, Option.some.inj (hf.trans hid.symm)⟩) hnew

theorem found_select (h : Found path outputFormats s) (hnew : format.id ∉ outputFormats.map OutputFormat.id) :
    Found path (outputFormats ++ [format]) (select path s format) := by
  have hdefault := h.noteDefault format
  have hlast : format ∈ outputFormats ++ [format] := List.mem_append_right _ List.mem_cons_self
  simp only [select]
  by_cases hid : some format.id = path.outputFormat
  · rw [if_pos hid]
    obtain ⟨hformat', hdefault', htype'⟩ := foldl_selectType path format.outputTypes
      (s := { OutputFormats.noteDefault s format with outputFormat := some format, explicitFormat := true })
    refine ⟨fun f hf => ?_, fun hnone => ?_, fun outputType hout => ?_, fun f hf hnone => ?_,
      hdefault'.trans hdefault⟩
    · rw [hformat'] at hf
      obtain rfl := Option.some.inj hf
      exact ⟨hlast, hid⟩
    · rw [hformat'] at hnone
      cases hnone
    · rcases htype' with ⟨outputType', hmem, htypeId, heq⟩ | ⟨_, heq⟩
      · rw [heq] at hout
        obtain rfl := Option.some.inj hout
        exact ⟨format, hformat', hmem, htypeId⟩
      · rw [heq, noteDefault_outputType, h.fresh hnew hid] at hout
        cases hout
    · rw [hformat'] at hf
      obtain rfl := Option.some.inj hf
      rcases htype' with ⟨outputType', _, _, heq⟩ | ⟨hall, _⟩
      · rw [heq] at hnone
        cases hnone
      · exact hall
  · rw [if_neg hid]
    refine ⟨fun f hf => ?_, fun hnone => ?_, fun outputType hout => ?_, fun f hf hnone => ?_, hdefault⟩
    · rw [noteDefault_outputFormat] at hf
      obtain ⟨hmem, hf⟩ := h.format f hf
      exact ⟨List.mem_append_left _ hmem, hf⟩
    · rw [noteDefault_outputFormat] at hnone
      obtain ⟨htype, hall⟩ := h.noFormat hnone
      refine ⟨by rw [noteDefault_outputType, htype], fun f hf => ?_⟩
      rcases List.mem_append.mp hf with hf | hf
      · exact hall f hf
      · rw [List.mem_singleton.mp hf]
        exact hid
    · rw [noteDefault_outputType] at hout
      obtain ⟨f, hf, hmem, htypeId⟩ := h.type outputType hout
      exact ⟨f, by rw [noteDefault_outputFormat, hf], hmem, htypeId⟩
    · rw [noteDefault_outputFormat] at hf
      rw [noteDefault_outputType] at hnone
      exact h.noType f hf hnone

end Step

theorem found_loop (outputFormats : List OutputFormat) (hdistinct : (outputFormats.map OutputFormat.id).Nodup) :
    Found path outputFormats (outputFormats.foldl (select path) {}) := by
  induction outputFormats using List.reverseRecOn with
  | nil => exact ⟨nofun, fun _ => ⟨rfl, nofun⟩, nofun, nofun, rfl⟩
  | append_singleton outputFormats format ih =>
    rw [List.map_append, List.map_singleton, List.nodup_append] at hdistinct
    rw [List.foldl_append, List.foldl_cons, List.foldl_nil]
    refine found_select (ih hdistinct.1) fun hmem => ?_
    exact hdistinct.2.2 format.id hmem format.id List.mem_cons_self rfl

/-! ## What is chosen -/

def requested (path : Path) (config : PlatformConfig) : Option OutputFormat :=
  config.outputFormats.find? fun format => some format.id = path.outputFormat

/-- The format that is requested, else the default one, which is the last that is marked, or else the first one.
The default one also replaces one that has no types. -/
def considered (path : Path) (config : PlatformConfig) : OutputFormat :=
  match requested path config with
  | some format => if format.outputTypes = [] then (lastDefault config.outputFormats).getD format else format
  | none => (lastDefault config.outputFormats).getD (config.outputFormats.head config.nonempty)

theorem mem_of_lastDefault {outputFormats : List OutputFormat} {format : OutputFormat}
    (h : lastDefault outputFormats = some format) : format ∈ outputFormats :=
  (List.mem_filter.mp (List.mem_of_getLast? h)).1

theorem mem_considered (path : Path) (config : PlatformConfig) : considered path config ∈ config.outputFormats := by
  have hdefault : ∀ format ∈ config.outputFormats, (lastDefault config.outputFormats).getD format ∈ config.outputFormats := by
    intro format hmem
    cases h : lastDefault config.outputFormats with
    | none => exact hmem
    | some f => exact mem_of_lastDefault h
  rw [considered]
  cases h : requested path config with
  | none => exact hdefault _ (List.head_mem config.nonempty)
  | some format =>
    have hmem : format ∈ config.outputFormats := List.mem_of_find?_eq_some h
    dsimp only
    split
    · exact hdefault format hmem
    · exact hmem

theorem requested_eq {path : Path} {config : PlatformConfig} {format : OutputFormat}
    (hmem : format ∈ config.outputFormats) (hid : some format.id = path.outputFormat) :
    requested path config = some format := by
  rw [requested, ← hid]
  cases hfound : config.outputFormats.find? fun f => some f.id = some format.id with
  | none =>
    have hnone := List.find?_eq_none.mp hfound format hmem
    simp at hnone
  | some found =>
    have hid' := List.find?_some hfound
    rw [decide_eq_true_eq] at hid'
    exact congrArg some (List.inj_on_of_nodup_map config.distinct (List.mem_of_find?_eq_some hfound) hmem
      (Option.some.inj hid'))

/-- The loop finds the format that is requested. -/
theorem Found.requested {path : Path} {config : PlatformConfig} {s : Selection}
    (h : Found path config.outputFormats s) : s.outputFormat = requested path config := by
  cases hs : s.outputFormat with
  | none =>
    refine (List.find?_eq_none.mpr fun format hmem => ?_).symm
    simpa using (h.noFormat hs).2 format hmem
  | some format =>
    obtain ⟨hmem, hid⟩ := h.format format hs
    exact (requested_eq hmem hid).symm

theorem determine_eq_bind {outputFormats : List OutputFormat} (h : outputFormats ≠ []) :
    determineFormatAndType path outputFormats = (fillFormat (outputFormats.head h) (outputFormats.foldl (select path) {})).bind
      (fillType (outputFormats.foldl (select path) {})) := by
  cases outputFormats with
  | nil => exact absurd rfl h
  | cons first formats => rfl

theorem fillType_none {s : Selection} (h : s.outputType = none) (format : OutputFormat) :
    (∃ outputType ∈ (switchFormat s format).outputTypes,
      fillType s format = .ok (switchFormat s format, outputType)) ∨
    (switchFormat s format).outputTypes = [] ∧ ∃ e, fillType s format = .error e := by
  simp only [fillType, h]
  generalize switchFormat s format = format'
  cases hdefault : format'.outputTypes.find? fun outputType => outputType.isDefault = some true with
  | some outputType => exact .inl ⟨outputType, List.mem_of_find?_eq_some hdefault, rfl⟩
  | none =>
    cases htypes : format'.outputTypes with
    | nil => exact .inr ⟨rfl, _, rfl⟩
    | cons outputType outputTypes => exact .inl ⟨outputType, List.mem_cons_self, rfl⟩

/-- The format that was found, else the default one, else the first one. -/
def chosen (first : OutputFormat) (s : Selection) : OutputFormat := s.outputFormat.getD (s.defaultFormat.getD first)

theorem Found.considered_eq {path : Path} {config : PlatformConfig} {s : Selection}
    (h : Found path config.outputFormats s) :
    considered path config = switchFormat s (chosen (config.outputFormats.head config.nonempty) s) := by
  rw [considered, ← h.requested, ← h.default, chosen, switchFormat]
  cases s.outputFormat with
  | none =>
    cases s.defaultFormat with
    | none => rfl
    | some defaultFormat => simp
  | some format =>
    cases s.defaultFormat with
    | none => simp
    | some defaultFormat =>
      by_cases heq : defaultFormat = format
      · simp [heq]
      · simp [heq]

/-- Only the first format is refused for having no type before one is looked for. -/
theorem fill_cases (first : OutputFormat) (s : Selection) :
    (fillFormat first s).bind (fillType s) = fillType s (chosen first s) ∨
    (switchFormat s (chosen first s)).outputTypes = [] ∧ ∃ e, (fillFormat first s).bind (fillType s) = .error e := by
  rw [fillFormat, chosen]
  cases s.outputFormat with
  | some format => exact .inl rfl
  | none =>
    rw [switchFormat]
    cases s.defaultFormat with
    | some defaultFormat => exact .inl rfl
    | none =>
      by_cases hnil : first.outputTypes = []
      · exact .inr ⟨hnil, _, by rw [if_pos hnil]; rfl⟩
      · exact .inl (by rw [if_neg hnil]; rfl)

theorem switchFormat_of_mem {s : Selection} {format : OutputFormat} {outputType : OutputType}
    (h : outputType ∈ format.outputTypes) : switchFormat s format = format := by
  unfold switchFormat
  split
  · exact if_neg fun hboth => List.ne_nil_of_mem h hboth.1
  · rfl

/-- A type of the format that is considered, which is the one requested of that format; or it has no type. -/
theorem determined_cases (path : Path) (config : PlatformConfig) :
    (∃ outputType ∈ (considered path config).outputTypes,
      determineFormatAndType path config.outputFormats = .ok (considered path config, outputType) ∧
        (requested path config = some (considered path config) →
          (∃ outputType ∈ (considered path config).outputTypes, some outputType.id = path.outputType) →
            some outputType.id = path.outputType)) ∨
    (considered path config).outputTypes = [] ∧
      ∃ e, determineFormatAndType path config.outputFormats = .error e := by
  have hfound : Found path config.outputFormats (config.outputFormats.foldl (select path) {}) :=
    found_loop config.outputFormats config.distinct
  rw [determine_eq_bind config.nonempty]
  generalize config.outputFormats.foldl (select path) {} = s at hfound ⊢
  rw [hfound.considered_eq]
  rcases fill_cases (config.outputFormats.head config.nonempty) s with heq | hthrew
  · rw [heq]
    cases htype : s.outputType with
    | some outputType =>
      -- the type that was found is one of the format, which therefore stays
      obtain ⟨format, hs, hmem, hid⟩ := hfound.type outputType htype
      have hchosen : chosen (config.outputFormats.head config.nonempty) s = format := by
        rw [chosen, hs, Option.getD_some]
      rw [hchosen, switchFormat_of_mem hmem]
      exact .inl ⟨outputType, hmem, by rw [fillType, htype], fun _ _ => hid⟩
    | none =>
      rcases fillType_none htype (chosen (config.outputFormats.head config.nonempty) s) with
        ⟨outputType, hmem, hok⟩ | ⟨hnil, hthrew⟩
      · refine .inl ⟨outputType, hmem, hok, fun hrequested hexists => ?_⟩
        obtain ⟨outputType', hmem', hid'⟩ := hexists
        have hs := hfound.requested.trans hrequested
        exact absurd hid' (hfound.noType _ hs htype outputType' hmem')
      · exact .inr ⟨hnil, hthrew⟩
  · exact .inr hthrew

theorem determined_iff (path : Path) (config : PlatformConfig) :
    (∃ e, determineFormatAndType path config.outputFormats = .error e) ↔ (considered path config).outputTypes = [] := by
  rcases determined_cases path config with ⟨outputType, hmem, hok, _⟩ | ⟨hnil, hthrew⟩
  · rw [hok]
    exact iff_of_false nofun (List.ne_nil_of_mem hmem)
  · exact iff_of_true hthrew hnil

theorem considered_requested {path : Path} {config : PlatformConfig} {format : OutputFormat}
    (hmem : format ∈ config.outputFormats) (hid : some format.id = path.outputFormat)
    (htypes : format.outputTypes ≠ []) : considered path config = format := by
  rw [considered, requested_eq hmem hid]
  exact if_neg htypes

theorem determines (path : Path) (config : PlatformConfig) :
    (∀ format outputType, determineFormatAndType path config.outputFormats = .ok (format, outputType) →
      format ∈ config.outputFormats ∧ outputType ∈ format.outputTypes) ∧
    (∀ format ∈ config.outputFormats, some format.id = path.outputFormat → format.outputTypes ≠ [] →
      ∃ outputType, determineFormatAndType path config.outputFormats = .ok (format, outputType) ∧
        ((∃ outputType ∈ format.outputTypes, some outputType.id = path.outputType) →
          some outputType.id = path.outputType)) ∧
    ∀ e, determineFormatAndType path config.outputFormats = .error e → (considered path config).outputTypes = [] := by
  refine ⟨fun format outputType hok => ?_, fun format hmem hid htypes => ?_,
    fun e hthrew => (determined_iff path config).mp ⟨e, hthrew⟩⟩
  · rcases determined_cases path config with ⟨outputType', hmem, hok', _⟩ | ⟨_, e, hthrew⟩
    · rw [hok'] at hok
      obtain ⟨rfl, rfl⟩ := Prod.mk.inj (Except.ok.inj hok)
      exact ⟨mem_considered path config, hmem⟩
    · rw [hthrew] at hok
      cases hok
  · have hconsidered := considered_requested hmem hid htypes
    rcases determined_cases path config with ⟨outputType, _, hok, hchosen⟩ | ⟨hnil, _⟩
    · rw [hconsidered] at hok hchosen
      exact ⟨outputType, hok, hchosen (requested_eq hmem hid)⟩
    · rw [hconsidered] at hnil
      exact absurd hnil htypes

end OutputFormats
end Gui
end AppNG
