import RoveMapping.MappingApi.Config

/-! # What a reload reports

A result of `action_config` that is `ok` speaks for the booleans, integers, floats and strings of the mapping.
Entries of other types are passed over before the request is made.
-/
namespace RoveMapping.MappingApi
open Fallible
set_option autoImplicit false

/-- The setters keep the name and the value that they are given, and a name is text. -/
def ConfigEnv.SettersKeep (env : ConfigEnv) : Prop :=
  ∀ k value p, env.parameter k value = .ok p → k = .str p.name ∧ p.value = value

/-- A reply has one result for each parameter of the request. -/
def ConfigEnv.RepliesToEach (env : ConfigEnv) : Prop :=
  ∀ sent successful, env.callAsync sent = .ok (.results successful) → successful.length = sent.length

/-- The mapping of parameters that the file gives. -/
def Loaded (env : ConfigEnv) (path : Value) (items : List (Key × Yaml)) : Prop :=
  ∃ cfg doc, configFile env path = .ok cfg ∧ env.isFile cfg = true ∧ env.safeLoad cfg = .ok (.dict doc) ∧
    selected doc = .dict items

def Requested (env : ConfigEnv) (items : List (Key × Yaml)) (sent : List Parameter) (successful : List Bool) : Prop :=
  env.available = true ∧ rosParams env items = .ok sent ∧ env.callAsync sent = .ok (.results successful)

def Applied (sent : List Parameter) (successful : List Bool) (item : Key × Yaml) : Prop :=
  ∃ (i : ℕ) (p : Parameter), sent[i]? = some p ∧ item.1 = .str p.name ∧ item.2.scalar = some p.value ∧
    successful[i]? = some true

def Ok (dict : Dict) (ok : Bool) : Prop := dict.lookup "ok" = some (.bool ok)

/-- A reload whose result is `ok` applied the entries of some kind, and a rejected parameter makes it fail. -/
structure Speaks (env : ConfigEnv) (path : Value) (dict : Dict) (kind : Key × Yaml → Prop) : Prop where
  applied : Ok dict true → ∃ items sent successful, Loaded env path items ∧ Requested env items sent successful ∧
    ∀ item ∈ items, kind item → Applied sent successful item
  rejected : ∀ items sent successful, Loaded env path items → Requested env items sent successful →
    false ∈ successful → Ok dict false

section Reload

variable {env : ConfigEnv}

theorem rosParams_mem {items : List (Key × Yaml)} {sent : List Parameter} (hSent : rosParams env items = .ok sent)
    {item : Key × Yaml} (hItem : item ∈ items) {value : Scalar} (hScalar : item.2.scalar = some value) :
    ∃ p ∈ sent, env.parameter item.1 value = .ok p := by
  induction items generalizing sent with
  | nil => cases hItem
  | cons head items ih =>
    obtain ⟨k, v⟩ := head
    rw [rosParams] at hSent
    cases hHead : v.scalar with
    | none =>
      rw [hHead] at hSent
      cases hItem with
      | head => simp [hHead] at hScalar
      | tail _ hItem => exact ih hSent hItem
    | some first =>
      rw [hHead] at hSent
      obtain ⟨p, hParameter, hRest⟩ := bind_ok hSent
      obtain ⟨others, hOthers, hAll⟩ := bind_ok hRest
      cases hAll
      cases hItem with
      | head =>
        obtain rfl : first = value := Option.some.inj (hHead.symm.trans hScalar)
        exact ⟨p, .head _, hParameter⟩
      | tail _ hItem =>
        obtain ⟨q, hMem, hItem⟩ := ih hOthers hItem
        exact ⟨q, .tail _ hMem, hItem⟩

theorem failedNames_eq_nil_iff {sent : List Parameter} {successful : List Bool} {failed : List String}
    (hFailed : failedNames sent successful = .ok failed) : failed = [] ↔ false ∉ successful := by
  have hLength := length_of_mapM_ok hFailed
  rw [← List.length_eq_zero_iff, hLength, List.length_eq_zero_iff, List.filter_eq_nil_iff]
  constructor
  · intro hAll hMem
    obtain ⟨i, hi⟩ := List.mem_iff_getElem?.mp hMem
    exact hAll (false, i) (List.mk_mem_zipIdx_iff_getElem?.mpr hi) rfl
  · rintro hNone ⟨set, i⟩ hMem hFalse
    obtain rfl : set = false := by simpa using hFalse
    exact hNone (List.mem_of_getElem? (List.mk_mem_zipIdx_iff_getElem?.mp hMem))

/-- The positional match of names with results tells a rejected parameter. -/
theorem setResult_results {sent : List Parameter} {successful : List Bool} {dict : Dict}
    (hResult : setResult env sent (.results successful) = .ok dict) :
    (Ok dict true → false ∉ successful) ∧ (false ∈ successful → Ok dict false) := by
  obtain ⟨failed, hFailed, hDict⟩ := bind_ok hResult
  rw [← failedNames_eq_nil_iff hFailed]
  split at hDict
  · rename_i hSome
    cases hDict
    exact ⟨nofun, fun _ => rfl⟩
  · rename_i hNone
    cases hDict
    have hNil := not_not.mp hNone
    constructor
    · intro _
      exact hNil
    · intro hMem
      exact absurd hMem ((failedNames_eq_nil_iff hFailed).mp hNil)

theorem failure_not_ok (message : String) (more : Dict) : ¬Ok (failure message ++ more) true := nofun

theorem callSetParams_ok_true {params : Yaml} {dict : Dict} (h : callSetParams env params = .ok dict) (hOk : Ok dict true) :
    ∃ items sent successful, params = .dict items ∧ Requested env items sent successful ∧ false ∉ successful := by
  unfold callSetParams at h
  split at h
  · cases h
    exact absurd hOk (failure_not_ok _ [])
  · rename_i hAvailable
    split at h
    · rename_i items
      obtain ⟨sent, hSent, hRest⟩ := bind_ok h
      split at hRest
      · cases hRest
        exact absurd hOk (failure_not_ok _ [])
      · obtain ⟨reply, hReply, hResult⟩ := bind_ok hRest
        cases reply with
        | timeout =>
          cases hResult
          exact absurd hOk (failure_not_ok _ [])
        | exception text =>
          rw [setResult] at hResult
          split at hResult
          · cases hResult
            exact absurd hOk (failure_not_ok _ [])
          · cases hResult
        | results successful =>
          exact ⟨items, sent, successful, rfl, ⟨by simpa using hAvailable, hSent, hReply⟩, (setResult_results hResult).1 hOk⟩
    · cases h

theorem callSetParams_rejected {items : List (Key × Yaml)} {sent : List Parameter} {successful : List Bool} {dict : Dict}
    (hRequested : Requested env items sent successful) (h : callSetParams env (.dict items) = .ok dict)
    (hRejected : false ∈ successful) : Ok dict false := by
  obtain ⟨hAvailable, hSent, hReply⟩ := hRequested
  simp only [callSetParams, hAvailable, Bool.true_eq_false, if_false] at h
  rw [hSent] at h
  obtain ⟨_, hSame, hRest⟩ := bind_ok h
  cases hSame
  split at hRest
  · cases hRest
    rfl
  · obtain ⟨reply, hReply', hResult⟩ := bind_ok hRest
    obtain rfl := Except.ok.inj (hReply.symm.trans hReply')
    exact (setResult_results hResult).2 hRejected

theorem ok_append_path {result : Dict} {cfg : String} {ok : Bool} :
    Ok (if result.lookup "ok" = some (.bool true) then result ++ [("path", .text cfg)] else result) ok ↔ Ok result ok := by
  unfold Ok
  split
  · rename_i hTrue
    rw [List.lookup_append, hTrue, Option.some_or]
  · rfl

theorem actionConfig_of_loaded {path : Value} {items : List (Key × Yaml)} {dict : Dict} (hLoaded : Loaded env path items)
    (h : actionConfig env path = .ok dict) :
    ∃ result, callSetParams env (.dict items) = .ok result ∧ ∀ ok, Ok dict ok ↔ Ok result ok := by
  obtain ⟨cfg, doc, hPath, hFile, hLoad, hSelected⟩ := hLoaded
  obtain ⟨_, hSame, hRest⟩ := bind_ok h
  obtain rfl := Except.ok.inj (hPath.symm.trans hSame)
  simp only [hFile, Bool.true_eq_false, if_false, hLoad, hSelected] at hRest
  obtain ⟨result, hResult, hDict⟩ := bind_ok hRest
  cases hDict
  exact ⟨result, hResult, fun ok => ok_append_path⟩

theorem loaded_of_ok {path : Value} {dict : Dict} (h : actionConfig env path = .ok dict) (hOk : Ok dict true) :
    ∃ items, Loaded env path items := by
  obtain ⟨cfg, hPath, hRest⟩ := bind_ok h
  split at hRest
  · cases hRest
    exact absurd hOk (failure_not_ok _ [])
  · rename_i hFile
    split at hRest
    · cases hRest
      exact absurd hOk (failure_not_ok _ [])
    · rename_i doc hLoad
      obtain ⟨result, hResult, hDict⟩ := bind_ok hRest
      cases hDict
      obtain ⟨items, _, _, hSelected, -⟩ := callSetParams_ok_true hResult (ok_append_path.mp hOk)
      exact ⟨items, cfg, doc, hPath, by simpa using hFile, hLoad, hSelected⟩
    · cases hRest

theorem applied_of_requested (hSetters : env.SettersKeep) (hReplies : env.RepliesToEach) {items : List (Key × Yaml)}
    {sent : List Parameter} {successful : List Bool} (hRequested : Requested env items sent successful)
    (hAll : false ∉ successful) {item : Key × Yaml} (hItem : item ∈ items) (hScalar : item.2.scalar.isSome) :
    Applied sent successful item := by
  obtain ⟨-, hSent, hReply⟩ := hRequested
  obtain ⟨value, hScalar⟩ := Option.isSome_iff_exists.mp hScalar
  obtain ⟨p, hMem, hParameter⟩ := rosParams_mem hSent hItem hScalar
  obtain ⟨hName, hValue⟩ := hSetters _ _ _ hParameter
  obtain ⟨i, hi⟩ := List.mem_iff_getElem?.mp hMem
  have hLt : i < successful.length := by
    rw [hReplies sent successful hReply]
    exact (List.getElem?_eq_some_iff.mp hi).1
  refine ⟨i, p, hi, hName, hScalar.trans (congrArg some hValue.symm), ?_⟩
  rw [List.getElem?_eq_getElem hLt]
  cases hSet : successful[i] with
  | true => rfl
  | false => exact absurd (hSet ▸ List.getElem_mem hLt) hAll

/-- What is reported as applied was applied, entries of other types apart. -/
theorem actionConfig_speaks (env : ConfigEnv) (hSetters : env.SettersKeep) (hReplies : env.RepliesToEach) (path : Value)
    (dict : Dict) (h : actionConfig env path = .ok dict) : Speaks env path dict fun item => item.2.scalar.isSome := by
  constructor
  · intro hOk
    obtain ⟨items, hLoaded⟩ := loaded_of_ok h hOk
    obtain ⟨result, hResult, hSame⟩ := actionConfig_of_loaded hLoaded h
    obtain ⟨_, sent, successful, hItems, hRequested, hAll⟩ := callSetParams_ok_true hResult ((hSame true).mp hOk)
    cases hItems
    exact ⟨items, sent, successful, hLoaded, hRequested,
      fun item hItem hScalar => applied_of_requested hSetters hReplies hRequested hAll hItem hScalar⟩
  · intro items sent successful hLoaded hRequested hRejected
    obtain ⟨result, hResult, hSame⟩ := actionConfig_of_loaded hLoaded h
    exact (hSame false).mpr (callSetParams_rejected hRequested hResult hRejected)

end Reload

/-- A node that takes every parameter, with a file that sets one cell size and lists two sensors. -/
def sensorsEnv : ConfigEnv where
  configPath := "rtabmap.yaml"
  home := none
  getpwnam := fun _ => .ok none
  environ := fun _ => .ok none
  isFile := fun _ => true
  safeLoad := fun _ => .ok (.dict [(.str "Grid/CellSize", .str "0.05"), (.str "Odom/Sensors", .other)])
  repr := id
  available := true
  parameter := fun k value =>
    match k with
    | .str name => .ok ⟨name, value⟩
    | .other _ => .error (.other "AssertionError: The 'name' field must be of type 'str'")
  callAsync := fun sent => .ok (.results (sent.map fun _ => true))

theorem sensorsEnv_settersKeep : sensorsEnv.SettersKeep := by
  intro k value p hParameter
  cases k with
  | str name =>
    cases hParameter
    exact ⟨rfl, rfl⟩
  | other text => cases hParameter

theorem sensorsEnv_repliesToEach : sensorsEnv.RepliesToEach := by
  intro sent successful hReply
  cases hReply
  exact List.length_map _

def sensorsDict : Dict := [("ok", .bool true), ("message", .text "Applied 1 parameters"), ("path", .text "rtabmap.yaml")]

theorem actionConfig_sensors : actionConfig sensorsEnv .null = .ok sensorsDict := by decide +kernel

theorem actionConfig_speaks_sensors : Speaks sensorsEnv .null sensorsDict fun item => item.2.scalar.isSome :=
  actionConfig_speaks sensorsEnv sensorsEnv_settersKeep sensorsEnv_repliesToEach .null sensorsDict actionConfig_sensors

/-- The list of sensors is not sent, and the result is `ok` all the same. -/
theorem actionConfig_silent_sensors :
    ¬∀ env : ConfigEnv, env.SettersKeep → env.RepliesToEach → ∀ (path : Value) (dict : Dict),
      actionConfig env path = .ok dict → Speaks env path dict fun _ => True := by
  intro hAlways
  have hSpeaks := hAlways sensorsEnv sensorsEnv_settersKeep sensorsEnv_repliesToEach .null sensorsDict actionConfig_sensors
  obtain ⟨items, sent, successful, hLoaded, -, hApplied⟩ := hSpeaks.applied rfl
  obtain ⟨_, doc, -, -, hLoad, hSelected⟩ := hLoaded
  cases hLoad
  cases hSelected
  obtain ⟨_, _, -, -, hScalar, -⟩ := hApplied (.str "Odom/Sensors", .other) (by simp) trivial
  cases hScalar

end RoveMapping.MappingApi
