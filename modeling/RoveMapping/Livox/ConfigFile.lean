import Mathlib.Data.List.ReduceOption
import RoveMapping.Library.Fallible
import RoveMapping.Livox.DeviceConfig
import RoveMapping.Livox.Driver

/-! # The configuration file

`LivoxLidarConfigParser` reads the settings of the lidars from a JSON document, and `InitLivoxLidar` keeps them with the
indices of the lidars. A value of the wrong type fails an assertion of the JSON library.
-/
namespace RoveMapping.Livox
set_option autoImplicit false

open Resumption

inductive JsonValue where
  | null
  | bool (value : Bool)
  | int (value : ℤ)
  | double (value : Float)
  | string (value : String)
  | array (elements : List JsonValue)
  | object (members : List (String × JsonValue))

namespace JsonValue

/-- `HasMember` with the value of the member. -/
def member (name : String) : JsonValue → Option (Option JsonValue)
  | object members => some ((members.find? fun entry => entry.1 = name).map Prod.snd)
  | _ => none

def getInt : JsonValue → Option ℤ
  | int value => if -2 ^ 31 ≤ value ∧ value < 2 ^ 31 then some value else none
  | _ => none

def getFloat : JsonValue → Option Float32
  | int value => some (Float.ofInt value).toFloat32
  | double value => some value.toFloat32
  | _ => none

def getString : JsonValue → Option String
  | string value => some value
  | _ => none

def memberOr {α : Type} (value : JsonValue) (name : String) (absent : α) (read : JsonValue → Option α) : Option α := do
  match ← value.member name with
  | some found => read found
  | none => some absent

end JsonValue

def toInt8 (value : ℤ) : ℤ := value.bmod (2 ^ 8)

def ConfigOption.name : ConfigOption → String
  | .dataType => "pcl_data_type"
  | .scanPattern => "pattern_mode"
  | .blindSpot => "blind_spot_set"
  | .dualEmit => "dual_emit_en"

section Parser

def parseExtrinsics (value : JsonValue) : Option ExtParameter := do
  let roll ← value.memberOr "roll" 0 JsonValue.getFloat
  let pitch ← value.memberOr "pitch" 0 JsonValue.getFloat
  let yaw ← value.memberOr "yaw" 0 JsonValue.getFloat
  let x ← value.memberOr "x" 0 JsonValue.getInt
  let y ← value.memberOr "y" 0 JsonValue.getInt
  let z ← value.memberOr "z" 0 JsonValue.getInt
  some ⟨roll, pitch, yaw, x, y, z⟩

/-- The value in the file, or `-1` where it has none. The casts are to `int8_t`, also for the blind spot. -/
def parseSetting (config : JsonValue) (option : ConfigOption) : Option ℤ :=
  config.memberOr option.name (-1) fun value => value.getInt.map toInt8

variable (ipStringToNum : String → UInt32)

def noExtrinsics : ExtParameter := ⟨0, 0, 0, 0, 0, 0⟩

/-- The body of the loop of `ParseUserConfigs`; a configuration without an address is skipped. -/
def parseUserConfig (config : JsonValue) : Option (Option UserLivoxLidarConfig) := do
  match ← config.member "ip" with
  | none => some none
  | some ip =>
    let handle := ipStringToNum (← ip.getString)
    let pclDataType ← parseSetting config .dataType
    let patternMode ← parseSetting config .scanPattern
    let blindSpotSet ← parseSetting config .blindSpot
    let dualEmitEn ← parseSetting config .dualEmit
    let extrinsicParam ← config.memberOr "extrinsic_parameter" noExtrinsics parseExtrinsics
    some (some ⟨handle, pclDataType, patternMode, blindSpotSet, dualEmitEn, extrinsicParam⟩)

def parseUserConfigs (configs : List JsonValue) : Option (List UserLivoxLidarConfig) := do
  some ((← configs.mapM (parseUserConfig ipStringToNum)).reduceOption)

/-- `none` is a document that could not be read. The caller goes on with what it has where the parser returns `false`. -/
def parse : Option JsonValue → Option (List UserLivoxLidarConfig)
  | none => some []
  | some doc => do
    match ← doc.member "lidar_configs" with
    | some (.array configs) => parseUserConfigs ipStringToNum configs
    | _ => some []

end Parser

namespace CacheIndex

variable {cache cache' : CacheIndex} {handle : UInt32}

theorem getFreeIndex_some {index : Index} (h : cache.getFreeIndex kLivoxLidarType handle = (some index, cache')) :
    cache'.mapIndex (keyOf handle) = some index ∧
    ∀ handle', handle' ≠ handle → cache'.mapIndex (keyOf handle') = cache.mapIndex (keyOf handle') := by
  rw [getFreeIndex, generateIndexKey, if_pos rfl] at h
  simp only at h
  split at h
  · cases h
    exact ⟨‹_›, fun _ _ => rfl⟩
  · split at h <;> cases h
    refine ⟨?_, fun handle' hNe => ?_⟩
    · rw [mapIndex_assign, if_pos rfl]
    · rw [mapIndex_assign, if_neg hNe]

theorem getFreeIndex_none (h : cache.getFreeIndex kLivoxLidarType handle = (none, cache')) :
    cache' = cache ∧ cache.mapIndex (keyOf handle) = none := by
  rw [getFreeIndex, generateIndexKey, if_pos rfl] at h
  simp only at h
  split at h
  · cases h
  · split at h <;> cases h
    exact ⟨rfl, ‹_›⟩

end CacheIndex

namespace Station

/-- The configuration that counts for an address is the last one with it. -/
def lastOf (userConfigs : List UserLivoxLidarConfig) (handle : UInt32) : Option UserLivoxLidarConfig :=
  userConfigs.reverse.find? fun config => config.handle = handle

theorem lastOf_append (userConfigs : List UserLivoxLidarConfig) (config : UserLivoxLidarConfig) (handle : UInt32) :
    lastOf (userConfigs ++ [config]) handle = if config.handle = handle then some config else lastOf userConfigs handle := by
  rw [lastOf, List.reverse_append, List.reverse_singleton, List.singleton_append, List.find?_cons]
  split <;> simp_all [lastOf]

structure InitLidars.Holds (lidars : InitLidars) (seen : List UserLivoxLidarConfig) : Prop where
  cache : lidars.cache.Ok
  last : ∀ handle i, lidars.cache.mapIndex (CacheIndex.keyOf handle) = some i →
    lastOf seen handle = some (lidars.configs i) ∧ lidars.lidarExtrinsics handle = some (lidars.configs i).extParam

theorem InitLidars.Holds.add {lidars : InitLidars} {seen : List UserLivoxLidarConfig} (h : lidars.Holds seen)
    (config : UserLivoxLidarConfig) : (lidars.add config).Holds (seen ++ [config]) := by
  have hOk := h.cache.getFreeIndex kLivoxLidarType config.handle
  rw [InitLidars.add]
  split
  · rename_i index cache hFree
    obtain ⟨hIndex, hOthers⟩ := CacheIndex.getFreeIndex_some hFree
    rw [hFree] at hOk
    refine ⟨hOk, fun handle i hMap => ?_⟩
    rw [lastOf_append]
    by_cases hHandle : config.handle = handle
    · subst hHandle
      obtain rfl : index = i := Option.some_inj.mp (hIndex.symm.trans hMap)
      simp
    · -- an index belongs to one address
      have hNe : i ≠ index := by
        rintro rfl
        exact hHandle (keyOf_injective (hOk.distinct _ _ _ hIndex hMap))
      rw [if_neg hHandle]
      simp only [Function.update_of_ne hNe, Function.update_of_ne (Ne.symm hHandle)]
      exact h.last handle i (hOthers handle (Ne.symm hHandle) ▸ hMap)
  · rename_i cache hFree
    obtain ⟨rfl, hNone⟩ := CacheIndex.getFreeIndex_none hFree
    refine ⟨h.cache, fun handle i hMap => ?_⟩
    have hHandle : config.handle ≠ handle := by
      rintro rfl
      rw [hNone] at hMap
      cases hMap
    rw [lastOf_append, if_neg hHandle]
    exact h.last handle i hMap

theorem holds_initLivoxLidar (userConfigs : List UserLivoxLidarConfig) : (initLivoxLidar userConfigs).Holds userConfigs := by
  induction userConfigs using List.reverseRecOn with
  | nil => exact ⟨CacheIndex.ok_initial, nofun⟩
  | append_singleton seen config ih =>
    rw [initLivoxLidar, List.foldl_append]
    exact ih.add config

/-- The lidars of the driver have the indices that its configuration gives them. -/
theorem cache_initLivoxLidar (userConfigs : List UserLivoxLidarConfig) :
    (initLivoxLidar userConfigs).cache = Driver.registered (userConfigs.map UserLivoxLidarConfig.handle) := by
  have hAdd (lidars : InitLidars) (config : UserLivoxLidarConfig) :
      (lidars.add config).cache = (lidars.cache.getFreeIndex kLivoxLidarType config.handle).2 := by
    rw [InitLidars.add]
    split <;> rename_i hFree <;> rw [hFree]
  rw [Driver.registered, List.foldl_map]
  refine (List.foldl_hom InitLidars.cache ?_).symm
  exact fun lidars config => (hAdd lidars config).symm

end Station

section Parsed

variable {ipStringToNum : String → UInt32} {entry : JsonValue} {config : UserLivoxLidarConfig}

/-- The entries of the file that the parser goes through. -/
def lidarConfigs : Option JsonValue → List JsonValue
  | some doc =>
    match doc.member "lidar_configs" with
    | some (some (.array configs)) => configs
    | _ => []
  | none => []

/-- A configuration is what the file says about the lidar, with the casts. -/
structure Describes (ipStringToNum : String → UInt32) (entry : JsonValue) (config : UserLivoxLidarConfig) : Prop where
  ip : ∃ ip, entry.member "ip" = some (some (.string ip)) ∧ ipStringToNum ip = config.handle
  settings : ∀ option, parseSetting entry option = some (config.setting option)
  extrinsics : entry.memberOr "extrinsic_parameter" noExtrinsics parseExtrinsics = some config.extrinsicParam

theorem describes_of_parse (h : parseUserConfig ipStringToNum entry = some (some config)) :
    Describes ipStringToNum entry config := by
  obtain ⟨found, hMember, h⟩ := Option.bind_eq_some_iff.mp h
  cases found with
  | none => cases h
  | some ip =>
    obtain ⟨text, hText, h⟩ := Option.bind_eq_some_iff.mp h
    obtain ⟨pclDataType, hData, h⟩ := Option.bind_eq_some_iff.mp h
    obtain ⟨patternMode, hPattern, h⟩ := Option.bind_eq_some_iff.mp h
    obtain ⟨blindSpotSet, hBlind, h⟩ := Option.bind_eq_some_iff.mp h
    obtain ⟨dualEmitEn, hDual, h⟩ := Option.bind_eq_some_iff.mp h
    obtain ⟨extrinsicParam, hExtrinsics, h⟩ := Option.bind_eq_some_iff.mp h
    cases h
    have hString : ip = .string text := by
      cases ip with
      | string value => exact congrArg _ (Option.some_inj.mp hText)
      | _ => cases hText
    refine ⟨⟨text, hString ▸ hMember, rfl⟩, fun option => ?_, hExtrinsics⟩
    cases option with
    | dataType => exact hData
    | scanPattern => exact hPattern
    | blindSpot => exact hBlind
    | dualEmit => exact hDual

/-- The address of an entry. -/
def addressOf (ipStringToNum : String → UInt32) (entry : JsonValue) : Option UInt32 :=
  match entry.member "ip" with
  | some (some (.string ip)) => some (ipStringToNum ip)
  | _ => none

/-- The last entry with an address. -/
def lastEntry (ipStringToNum : String → UInt32) (entries : List JsonValue) (handle : UInt32) : Option JsonValue :=
  entries.reverse.find? fun entry => addressOf ipStringToNum entry = some handle

theorem addressOf_of_parse {found : Option UserLivoxLidarConfig} (h : parseUserConfig ipStringToNum entry = some found) :
    addressOf ipStringToNum entry = found.map UserLivoxLidarConfig.handle := by
  cases found with
  | some config =>
    obtain ⟨ip, hMember, hHandle⟩ := (describes_of_parse h).ip
    simp [addressOf, hMember, hHandle]
  | none =>
    obtain ⟨ip, hMember, h⟩ := Option.bind_eq_some_iff.mp h
    cases ip with
    | none => simp [addressOf, hMember]
    | some value => simp [Option.bind_eq_some_iff] at h

/-- The configuration that counts for an address is made of the last entry with it. -/
theorem lastOf_reduceOption {entries : List JsonValue} {parsed : List (Option UserLivoxLidarConfig)}
    (h : entries.mapM (parseUserConfig ipStringToNum) = some parsed) (handle : UInt32) :
    Station.lastOf parsed.reduceOption handle =
      (lastEntry ipStringToNum entries handle).bind fun entry => (parseUserConfig ipStringToNum entry).join := by
  induction entries generalizing parsed with
  | nil =>
    cases h
    rfl
  | cons entry rest ih =>
    rw [List.mapM_cons] at h
    obtain ⟨found, hFound, h⟩ := Option.bind_eq_some_iff.mp h
    obtain ⟨others, hOthers, h⟩ := Option.bind_eq_some_iff.mp h
    cases h
    have hAddress := addressOf_of_parse hFound
    have hRest := ih hOthers
    rw [Station.lastOf, lastEntry] at hRest ⊢
    rw [List.reverse_cons, List.find?_append]
    cases found with
    | none =>
      rw [List.reduceOption_cons_of_none, hRest]
      simp [hAddress]
    | some config =>
      rw [List.reduceOption_cons_of_some, List.reverse_cons, List.find?_append, hRest]
      cases hLater : rest.reverse.find? fun entry => decide (addressOf ipStringToNum entry = some handle) with
      | none => by_cases hHandle : config.handle = handle <;> simp [hAddress, hHandle, hFound]
      | some later =>
        -- a later entry with the address has a configuration, so this one does not count
        obtain ⟨found, hFoundLater⟩ := Fallible.exists_of_mapM hOthers (List.mem_reverse.mp (List.mem_of_find?_eq_some hLater))
        have hHandle : addressOf ipStringToNum later = some handle := by simpa using List.find?_some hLater
        obtain ⟨counts, rfl, -⟩ := Option.map_eq_some_iff.mp ((addressOf_of_parse hFoundLater).symm.trans hHandle)
        simp [hFoundLater]

theorem exists_lastEntry {doc : Option JsonValue} {userConfigs : List UserLivoxLidarConfig} {handle : UInt32}
    (h : parse ipStringToNum doc = some userConfigs) (hLast : Station.lastOf userConfigs handle = some config) :
    ∃ entry, lastEntry ipStringToNum (lidarConfigs doc) handle = some entry ∧ Describes ipStringToNum entry config := by
  have hParsed : ∃ parsed, (lidarConfigs doc).mapM (parseUserConfig ipStringToNum) = some parsed ∧
      parsed.reduceOption = userConfigs := by
    cases doc with
    | none =>
      cases h
      exact ⟨[], rfl, rfl⟩
    | some doc =>
      obtain ⟨found, hMember, h⟩ := Option.bind_eq_some_iff.mp h
      simp only [lidarConfigs, hMember]
      cases found with
      | none =>
        cases h
        exact ⟨[], rfl, rfl⟩
      | some value =>
        cases value with
        | array configs =>
          obtain ⟨parsed, hParsed, h⟩ := Option.bind_eq_some_iff.mp h
          exact ⟨parsed, hParsed, Option.some_inj.mp h⟩
        | _ =>
          cases h
          exact ⟨[], rfl, rfl⟩
  obtain ⟨parsed, hParsed, rfl⟩ := hParsed
  rw [lastOf_reduceOption hParsed] at hLast
  obtain ⟨entry, hEntry, hJoin⟩ := Option.bind_eq_some_iff.mp hLast
  exact ⟨entry, hEntry, describes_of_parse (Option.join_eq_some_iff.mp hJoin)⟩

theorem parseSetting_cases {option : ConfigOption} {value : ℤ} (h : parseSetting entry option = some value) :
    entry.member option.name = some none ∧ value = -1 ∨
    ∃ n, entry.member option.name = some (some (.int n)) ∧ value = toInt8 n := by
  obtain ⟨found, hMember, h⟩ := Option.bind_eq_some_iff.mp h
  cases found with
  | none =>
    cases h
    exact .inl ⟨hMember, rfl⟩
  | some number =>
    obtain ⟨n, hInt, rfl⟩ := Option.map_eq_some_iff.mp h
    cases number with
    | int value =>
      rw [JsonValue.getInt] at hInt
      split at hInt <;> cases hInt
      exact .inr ⟨_, hMember, rfl⟩
    | _ => cases hInt

theorem Describes.of_configured (h : Describes ipStringToNum entry config) {option : ConfigOption}
    (hConfigured : config.Configured option) :
    ∃ n, entry.member option.name = some (some (.int n)) ∧ toInt8 n ≠ -1 ∧ config.setting option = toInt8 n := by
  rcases parseSetting_cases (h.settings option) with ⟨-, hNone⟩ | ⟨n, hMember, hValue⟩
  · exact absurd hNone hConfigured
  · exact ⟨n, hMember, hValue ▸ hConfigured, hValue⟩

theorem Describes.setting_eq (h : Describes ipStringToNum entry config) {option : ConfigOption} {n : ℤ}
    (hMember : entry.member option.name = some (some (.int n))) : config.setting option = toInt8 n := by
  rcases parseSetting_cases (h.settings option) with ⟨hNone, -⟩ | ⟨m, hOther, hValue⟩
  · rw [hMember] at hNone
    cases hNone
  · rw [hMember] at hOther
    cases hOther
    exact hValue

end Parsed

/-- The value that is sent for a setting; a dual emission is switched on or off. -/
def ConfigOption.wire (option : ConfigOption) (value : ℤ) : ℤ :=
  match option with
  | .dualEmit => if value = 0 then 0 else 1
  | _ => value

theorem sent_eq (config : UserLivoxLidarConfig) (option : ConfigOption) :
    config.sent option = option.wire (config.setting option) := by
  cases option <;> rfl

end RoveMapping.Livox
