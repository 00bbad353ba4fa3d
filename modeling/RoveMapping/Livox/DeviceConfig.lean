import RoveMapping.Livox.Distribution
import RoveMapping.Livox.PubHandler

/-! # The configuration of a lidar

`LidarInfoChangeCallback` sends a lidar the settings of its configuration and remembers them in `set_bits`; the
callbacks of the settings clear their bits, and the last one lets the lidar be sampled. The requests of a lidar may be
answered in any order, and the driver runs on meanwhile.
-/
namespace RoveMapping.Livox
set_option autoImplicit false

open Resumption

/-- `LivoxLidarConfigCodeBit`, by the place of the bit. -/
inductive ConfigOption where
  | dataType
  | scanPattern
  | blindSpot
  | dualEmit
deriving DecidableEq

def ConfigOption.place : ConfigOption → ℕ
  | .dataType => 0
  | .scanPattern => 1
  | .blindSpot => 2
  | .dualEmit => 3

def ConfigOption.bit (option : ConfigOption) : BitVec 32 := BitVec.twoPow 32 option.place

/-- A setting is `-1` where the configuration does not have it. -/
structure UserLivoxLidarConfig where
  handle : UInt32
  pclDataType : ℤ
  patternMode : ℤ
  blindSpotSet : ℤ
  dualEmitEn : ℤ
  extrinsicParam : ExtParameter

namespace UserLivoxLidarConfig

variable (config : UserLivoxLidarConfig)

def setting : ConfigOption → ℤ
  | .dataType => config.pclDataType
  | .scanPattern => config.patternMode
  | .blindSpot => config.blindSpotSet
  | .dualEmit => config.dualEmitEn

/-- The value in the request to the lidar. -/
def sent : ConfigOption → ℤ
  | .dualEmit => if config.dualEmitEn = 0 then 0 else 1
  | option => config.setting option

def Configured (option : ConfigOption) : Prop := config.setting option ≠ -1

instance (option : ConfigOption) : Decidable (config.Configured option) := inferInstanceAs (Decidable (_ ≠ _))

/-- `kLivoxLidarCartesianCoordinateLowData`: the points are in centimetres. -/
def lowData : ℤ := 2

/-- What `InitLivoxLidar` hands to `AddLidarsExtParam`. -/
def extParam : ExtParameter :=
  if config.pclDataType = lowData then
    { config.extrinsicParam with
      x := config.extrinsicParam.x.tdiv 10
      y := config.extrinsicParam.y.tdiv 10
      z := config.extrinsicParam.z.tdiv 10 }
  else config.extrinsicParam

end UserLivoxLidarConfig

/-- `livox_status`, as far as the callbacks tell it apart. -/
inductive LivoxStatus where
  | success
  | timeout
  | failure

/-- `requests` are those without an answer; `asked`, `noticed`, `acks` and `failed` record what has happened. -/
structure LidarSetup where
  config : UserLivoxLidarConfig
  setBits : BitVec 32
  requests : List (ConfigOption × ℤ)
  asked : List (ConfigOption × ℤ)
  noticed : Bool
  acks : List (ConfigOption × ℤ)
  failed : Bool

namespace LidarSetup

def initial (config : UserLivoxLidarConfig) : LidarSetup := ⟨config, 0, [], [], false, [], false⟩

variable (s : LidarSetup)

def send (option : ConfigOption) : LidarSetup :=
  { s with
    requests := s.requests ++ [(option, s.config.sent option)]
    asked := s.asked ++ [(option, s.config.sent option)] }

def request (option : ConfigOption) : LidarSetup :=
  if s.config.Configured option then { s.send option with setBits := s.setBits ||| option.bit } else s

/-- The critical section of `LidarInfoChangeCallback`. -/
def lidarInfoChangeCallback : LidarSetup :=
  (((LidarSetup.request { s with noticed := true } .dataType).request .scanPattern).request .blindSpot).request .dualEmit

/-- What the callbacks of the settings do, and whether the lidar goes over to sampling. -/
def settingCallback (option : ConfigOption) (value : ℤ) : LivoxStatus → LidarSetup × Bool
  | .success =>
    let setBits := s.setBits &&& ~~~option.bit
    ({ s with setBits := setBits, acks := s.acks ++ [(option, value)] }, setBits = 0)
  | .timeout => (s.send option, false)
  | .failure => ({ s with failed := true }, false)

def setDataTypeCallback : ℤ → LivoxStatus → LidarSetup × Bool := s.settingCallback .dataType
def setPatternModeCallback : ℤ → LivoxStatus → LidarSetup × Bool := s.settingCallback .scanPattern
def setBlindSpotCallback : ℤ → LivoxStatus → LidarSetup × Bool := s.settingCallback .blindSpot
def setDualEmitCallback : ℤ → LivoxStatus → LidarSetup × Bool := s.settingCallback .dualEmit

def callback : ConfigOption → ℤ → LivoxStatus → LidarSetup × Bool
  | .dataType => s.setDataTypeCallback
  | .scanPattern => s.setPatternModeCallback
  | .blindSpot => s.setBlindSpotCallback
  | .dualEmit => s.setDualEmitCallback

/-- One of the requests is answered. -/
def answer (k : ℕ) (status : LivoxStatus) : Option (LidarSetup × Bool) :=
  s.requests[k]?.map fun (option, value) => callback { s with requests := s.requests.eraseIdx k } option value status

theorem callback_eq (option : ConfigOption) : s.callback option = s.settingCallback option := by cases option <;> rfl

end LidarSetup

/-- The lidars with what the driver knows of their settings. -/
structure Station where
  lds : Lds
  setups : Index → LidarSetup

inductive StationLabel where
  | infoChange (handle : UInt32)
  | answer (i : Index) (k : ℕ) (status : LivoxStatus)
  | requestExit
  | exitSignal
  | frame (entries : List (PointPacket × UInt64))
  | produce
  | consume

namespace Station

/-- The devices are static, so without a configuration all settings are zero. -/
def unset : UserLivoxLidarConfig := ⟨0, 0, 0, 0, 0, ⟨0, 0, 0, 0, 0, 0⟩⟩

/-- What `InitLivoxLidar` fills in. -/
structure InitLidars where
  cache : CacheIndex
  configs : Index → UserLivoxLidarConfig
  lidarExtrinsics : UInt32 → Option ExtParameter

/-- The body of the loop of `InitLivoxLidar`. -/
def InitLidars.add (lidars : InitLidars) (config : UserLivoxLidarConfig) : InitLidars :=
  match lidars.cache.getFreeIndex kLivoxLidarType config.handle with
  | (some index, cache) =>
    { cache := cache
      configs := Function.update lidars.configs index config
      lidarExtrinsics := Function.update lidars.lidarExtrinsics config.handle (some config.extParam) }
  | (none, cache) => { lidars with cache := cache }

def initLivoxLidar (userConfigs : List UserLivoxLidarConfig) : InitLidars :=
  userConfigs.foldl InitLidars.add ⟨.initial, fun _ => unset, fun _ => none⟩

def initial (userConfigs : List UserLivoxLidarConfig) (queueSize : BitVec 32) (lddc : Lddc) : Station where
  lds := { Lds.initial queueSize lddc with cache := (initLivoxLidar userConfigs).cache }
  setups i := .initial ((initLivoxLidar userConfigs).configs i)

variable (s : Station)

def setLds (lds : Lds) : Station := { s with lds := lds }

def setSetup (i : Index) (setup : LidarSetup) : Station := { s with setups := Function.update s.setups i setup }

/-- A lidar without an index gets one, and no settings. -/
def lidarInfoChangeCallback (handle : UInt32) : Station :=
  match s.lds.cache.getIndex kLivoxLidarType handle with
  | none => s.setLds { s.lds with cache := (s.lds.cache.getFreeIndex kLivoxLidarType handle).2 }
  | some i => s.setSetup i (s.setups i).lidarInfoChangeCallback

def answer (i : Index) (k : ℕ) (status : LivoxStatus) : Option Station :=
  ((s.setups i).answer k status).map fun (setup, sampling) =>
    (s.setSetup i setup).setLds (if sampling then s.lds.startSampling i else s.lds)

def next : StationLabel → Option Station
  | .infoChange handle => some (s.lidarInfoChangeCallback handle)
  | .answer i k status => s.answer i k status
  | .requestExit => (s.lds.next .requestExit).map s.setLds
  | .exitSignal => (s.lds.next .exitSignal).map s.setLds
  | .frame entries => (s.lds.next (.frame entries)).map s.setLds
  | .produce => (s.lds.next .produce).map s.setLds
  | .consume => (s.lds.next .consume).map s.setLds

abbrev Run : Station → Station → Prop := Reaches next fun _ _ => True

end Station

section Bits

theorem place_injective : Function.Injective ConfigOption.place := by
  intro option option' h
  cases option <;> cases option' <;> first | rfl | cases h

theorem place_lt (option : ConfigOption) : option.place < 32 := by cases option <;> decide

def Waits (setBits : BitVec 32) (option : ConfigOption) : Prop := setBits.getLsbD option.place = true

theorem waits_or (setBits : BitVec 32) (option option' : ConfigOption) :
    Waits (setBits ||| option.bit) option' ↔ Waits setBits option' ∨ option' = option := by
  simp only [Waits, ConfigOption.bit, BitVec.getLsbD_or, BitVec.getLsbD_twoPow, Bool.or_eq_true, Bool.and_eq_true,
    decide_eq_true_eq]
  constructor
  · rintro (hOld | ⟨-, hPlace⟩)
    · exact .inl hOld
    · exact .inr (place_injective hPlace.symm)
  · rintro (hOld | rfl)
    · exact .inl hOld
    · exact .inr ⟨place_lt _, rfl⟩

theorem waits_andNot (setBits : BitVec 32) (option option' : ConfigOption) :
    Waits (setBits &&& ~~~option.bit) option' ↔ Waits setBits option' ∧ option' ≠ option := by
  simp only [Waits, ConfigOption.bit, BitVec.getLsbD_and, BitVec.getLsbD_not, BitVec.getLsbD_twoPow, Bool.and_eq_true,
    Bool.not_eq_true', Bool.and_eq_false_iff, decide_eq_false_iff_not, decide_eq_true_eq, place_lt, not_true_eq_false,
    false_or, true_and]
  refine and_congr_right fun _ => not_congr ⟨fun h => place_injective h.symm, fun h => h ▸ rfl⟩

/-- Only the bits of the settings are ever set. -/
def OnlyOptions (setBits : BitVec 32) : Prop :=
  ∀ place, setBits.getLsbD place = true → ∃ option : ConfigOption, option.place = place

theorem OnlyOptions.or {setBits : BitVec 32} (h : OnlyOptions setBits) (option : ConfigOption) :
    OnlyOptions (setBits ||| option.bit) := by
  intro place hSet
  simp only [ConfigOption.bit, BitVec.getLsbD_or, BitVec.getLsbD_twoPow, Bool.or_eq_true, Bool.and_eq_true,
    decide_eq_true_eq] at hSet
  rcases hSet with hOld | ⟨-, hPlace⟩
  · exact h place hOld
  · exact ⟨option, hPlace⟩

theorem OnlyOptions.andNot {setBits : BitVec 32} (h : OnlyOptions setBits) (option : ConfigOption) :
    OnlyOptions (setBits &&& ~~~option.bit) := by
  intro place hSet
  rw [BitVec.getLsbD_and, Bool.and_eq_true] at hSet
  exact h place hSet.1

theorem OnlyOptions.eq_zero_iff {setBits : BitVec 32} (h : OnlyOptions setBits) :
    setBits = 0 ↔ ∀ option, ¬Waits setBits option := by
  constructor
  · rintro rfl option
    simp [Waits]
  · intro hNone
    refine BitVec.eq_of_getLsbD_eq fun place _ => ?_
    simp only [BitVec.ofNat_eq_ofNat, BitVec.getLsbD_zero, Bool.eq_false_iff]
    intro hSet
    obtain ⟨option, rfl⟩ := h place hSet
    exact hNone option hSet

end Bits

namespace LidarSetup

variable (s : LidarSetup)

/-- Every configured setting was acknowledged, with the value that was sent for it. -/
def Acknowledged : Prop := ∀ option, s.config.Configured option → (option, s.config.sent option) ∈ s.acks

structure Ok : Prop where
  only : OnlyOptions s.setBits
  requests : ∀ entry ∈ s.requests, s.noticed ∧ s.config.Configured entry.1 ∧ entry.2 = s.config.sent entry.1
  asked : ∀ entry ∈ s.asked, s.config.Configured entry.1 ∧ entry.2 = s.config.sent entry.1
  acks : ∀ entry ∈ s.acks, s.config.Configured entry.1 ∧ entry.2 = s.config.sent entry.1
  outstanding : s.failed = false → ∀ option, Waits s.setBits option → option ∈ s.requests.map Prod.fst

/-- Every setting of a lidar that was noticed has been asked for. -/
def Asked : Prop := s.noticed → ∀ option, s.config.Configured option → (option, s.config.sent option) ∈ s.asked

/-- A setting that does not wait for its answer has been acknowledged. -/
def Settled : Prop := s.noticed → ∀ option, s.config.Configured option →
  Waits s.setBits option ∨ (option, s.config.sent option) ∈ s.acks

variable {s}

section Requests

theorem request_unchanged (option : ConfigOption) : (s.request option).config = s.config ∧
    (s.request option).noticed = s.noticed ∧ (s.request option).acks = s.acks ∧ (s.request option).failed = s.failed := by
  rw [request]
  split <;> exact ⟨rfl, rfl, rfl, rfl⟩

@[simp] theorem config_request (option : ConfigOption) : (s.request option).config = s.config := (request_unchanged option).1
@[simp] theorem noticed_request (option : ConfigOption) : (s.request option).noticed = s.noticed := (request_unchanged option).2.1
@[simp] theorem acks_request (option : ConfigOption) : (s.request option).acks = s.acks := (request_unchanged option).2.2.1

theorem waits_request (option option' : ConfigOption) : Waits (s.request option).setBits option' ↔
    Waits s.setBits option' ∨ option' = option ∧ s.config.Configured option := by
  rw [request]
  split
  · rename_i hConfigured
    exact (waits_or ..).trans (or_congr_right (and_iff_left hConfigured).symm)
  · rename_i hNot
    exact (or_iff_left fun h => hNot h.2).symm

theorem ok_initial (config : UserLivoxLidarConfig) : (initial config).Ok where
  only place hSet := by simp [initial] at hSet
  requests _ hEntry := by cases hEntry
  asked _ hEntry := by cases hEntry
  acks _ hEntry := by cases hEntry
  outstanding _ option hWaits := absurd hWaits ((OnlyOptions.eq_zero_iff fun _ hSet => by simp at hSet).mp rfl option)

theorem Ok.send (h : s.Ok) {option : ConfigOption} (hNoticed : s.noticed) (hConfigured : s.config.Configured option) :
    (s.send option).Ok where
  only := h.only
  requests entry hEntry := by
    rcases List.mem_append.mp hEntry with hOld | hNew
    · exact h.requests entry hOld
    · rw [List.mem_singleton.mp hNew]
      exact ⟨hNoticed, hConfigured, rfl⟩
  asked entry hEntry := by
    rcases List.mem_append.mp hEntry with hOld | hNew
    · exact h.asked entry hOld
    · rw [List.mem_singleton.mp hNew]
      exact ⟨hConfigured, rfl⟩
  acks := h.acks
  outstanding hFailed option' hWaits := by
    rw [LidarSetup.send, List.map_append]
    exact List.mem_append_left _ (h.outstanding hFailed option' hWaits)

theorem Ok.request (h : s.Ok) (hNoticed : s.noticed) (option : ConfigOption) : (s.request option).Ok := by
  rw [LidarSetup.request]
  split
  · rename_i hConfigured
    have hSend := h.send hNoticed hConfigured
    refine ⟨h.only.or option, hSend.requests, hSend.asked, h.acks, fun hFailed option' hWaits => ?_⟩
    rcases (waits_or ..).mp hWaits with hOld | rfl
    · exact hSend.outstanding hFailed option' hOld
    · exact List.mem_map.mpr ⟨(option', s.config.sent option'), List.mem_append_right _ List.mem_cons_self, rfl⟩
  · exact h

theorem Ok.lidarInfoChangeCallback (h : s.Ok) : s.lidarInfoChangeCallback.Ok := by
  have hNoticed : LidarSetup.Ok { s with noticed := true } :=
    ⟨h.only, fun entry hEntry => ⟨rfl, (h.requests entry hEntry).2⟩, h.asked, h.acks, h.outstanding⟩
  refine Ok.request (Ok.request (Ok.request (Ok.request hNoticed ?_ _) ?_ _) ?_ _) ?_ _ <;> simp

theorem waits_lidarInfoChangeCallback {option : ConfigOption} (h : s.config.Configured option) :
    Waits s.lidarInfoChangeCallback.setBits option := by
  simp only [lidarInfoChangeCallback, waits_request, config_request]
  cases option <;> simp [h]

theorem lidarInfoChangeCallback_unchanged :
    s.lidarInfoChangeCallback.config = s.config ∧ s.lidarInfoChangeCallback.acks = s.acks := by
  simp [lidarInfoChangeCallback]

theorem asked_request (option : ConfigOption) : (s.request option).asked =
    s.asked ++ if s.config.Configured option then [(option, s.config.sent option)] else [] := by
  rw [request]
  split
  · rfl
  · rw [List.append_nil]

theorem asked_lidarInfoChangeCallback : s.lidarInfoChangeCallback.Asked := by
  intro _ option hConfigured
  rw [lidarInfoChangeCallback_unchanged.1] at hConfigured ⊢
  simp only [lidarInfoChangeCallback, asked_request, config_request]
  cases option <;> simp [hConfigured]

theorem settled_lidarInfoChangeCallback : s.lidarInfoChangeCallback.Settled := by
  intro _ option hConfigured
  rw [lidarInfoChangeCallback_unchanged.1] at hConfigured
  exact .inl (waits_lidarInfoChangeCallback hConfigured)

end Requests

section Answers

variable {s' : LidarSetup} {k : ℕ} {status : LivoxStatus} {sampling : Bool}

theorem mem_of_mem_eraseIdx_or {α : Type} {xs : List α} {k : ℕ} {a x : α} (h : xs[k]? = some a) (hMem : x ∈ xs) :
    x = a ∨ x ∈ xs.eraseIdx k := by
  obtain ⟨n, hn, rfl⟩ := List.mem_iff_getElem.mp hMem
  by_cases hEq : n = k
  · subst hEq
    rw [List.getElem?_eq_getElem hn, Option.some_inj] at h
    exact .inl h
  · exact .inr (List.mem_eraseIdx_iff_getElem.mpr ⟨n, hn, hEq, rfl⟩)

/-- What an answer does to the settings of a lidar. -/
structure Answered (s s' : LidarSetup) (sampling : Bool) : Prop where
  config : s'.config = s.config
  noticed : s'.noticed = s.noticed
  acks : ∀ entry ∈ s.acks, entry ∈ s'.acks
  asked : ∀ entry ∈ s.asked, entry ∈ s'.asked
  ok : s'.Ok
  settled : s'.Settled
  last : sampling = true → s'.setBits = 0 ∧ s.noticed ∧ ∃ option, s.config.Configured option
  others : sampling = false → s'.setBits = 0 → s.setBits = 0

theorem Ok.answer (h : s.Ok) (hSettled : s.Settled) (hAnswer : s.answer k status = some (s', sampling)) :
    Answered s s' sampling := by
  obtain ⟨⟨option, value⟩, hRequest, hCallback⟩ := Option.map_eq_some_iff.mp hAnswer
  simp only [callback_eq] at hCallback
  obtain ⟨hNoticed, hConfigured, hValue⟩ := h.requests _ (List.mem_of_getElem? hRequest)
  obtain rfl : value = s.config.sent option := hValue
  have hRest : ∀ entry ∈ s.requests.eraseIdx k,
      s.noticed ∧ s.config.Configured entry.1 ∧ entry.2 = s.config.sent entry.1 := fun entry hEntry =>
    h.requests entry (List.mem_of_mem_eraseIdx hEntry)
  have hOthers (hFailed : s.failed = false) {option' : ConfigOption} (hWaits : Waits s.setBits option') :
      option' = option ∨ option' ∈ (s.requests.eraseIdx k).map Prod.fst := by
    obtain ⟨entry, hEntry, rfl⟩ := List.mem_map.mp (h.outstanding hFailed option' hWaits)
    rcases mem_of_mem_eraseIdx_or hRequest hEntry with rfl | hOther
    · exact .inl rfl
    · exact .inr (List.mem_map_of_mem hOther)
  cases status with
  | success =>
    cases hCallback
    refine ⟨rfl, rfl, fun entry => List.mem_append_left _, fun _ => id,
      ⟨h.only.andNot option, hRest, h.asked, fun entry hEntry => ?_, fun hFailed option' hWaits => ?_⟩,
      fun _ option' hConfigured' => ?_, fun hZero => ⟨of_decide_eq_true hZero, hNoticed, option, hConfigured⟩, fun hNot hZero => ?_⟩
    · rcases List.mem_append.mp hEntry with hOld | hNew
      · exact h.acks entry hOld
      · rw [List.mem_singleton.mp hNew]
        exact ⟨hConfigured, rfl⟩
    · obtain ⟨hWaits, hNe⟩ := (waits_andNot ..).mp hWaits
      exact (hOthers hFailed hWaits).resolve_left hNe
    · by_cases hEq : option' = option
      · subst hEq
        exact .inr (List.mem_append_right _ List.mem_cons_self)
      · rcases hSettled hNoticed option' hConfigured' with hWaits | hAck
        · exact .inl ((waits_andNot ..).mpr ⟨hWaits, hEq⟩)
        · exact .inr (List.mem_append_left _ hAck)
    · exact absurd hZero (of_decide_eq_false hNot)
  | timeout =>
    cases hCallback
    refine ⟨rfl, rfl, fun _ => id, fun entry => List.mem_append_left _,
      ⟨h.only, fun entry hEntry => ?_, fun entry hEntry => ?_, h.acks, fun hFailed option' hWaits => ?_⟩, hSettled, nofun,
      fun _ => id⟩
    · rcases List.mem_append.mp hEntry with hOld | hNew
      · exact hRest entry hOld
      · rw [List.mem_singleton.mp hNew]
        exact ⟨hNoticed, hConfigured, rfl⟩
    · rcases List.mem_append.mp hEntry with hOld | hNew
      · exact h.asked entry hOld
      · rw [List.mem_singleton.mp hNew]
        exact ⟨hConfigured, rfl⟩
    · rw [LidarSetup.send, List.map_append, List.mem_append]
      rcases hOthers hFailed hWaits with rfl | hOther
      · exact .inr List.mem_cons_self
      · exact .inl hOther
  | failure =>
    cases hCallback
    exact ⟨rfl, rfl, fun _ => id, fun _ => id, ⟨h.only, hRest, h.asked, h.acks, nofun⟩, hSettled, nofun, fun _ => id⟩

end Answers

end LidarSetup

namespace Lds

/-- The poll thread has found the lidar sampling. -/
def Serves (i : Index) : Consumer → Prop
  | .storage j | .poll j | .pollQueue j | .publish j | .prePop j | .baseTime j | .pointsNum j _ | .points j _ _
  | .popUpdate j _ | .deliver j _ => j = i
  | .start | .wait | .lidar _ | .future | .returned => False

def Sampled (s : Lds) (i : Index) : Prop := (s.lidars i).connectState = .sampling

/-- What is taken from a queue is the packet of a lidar that is sampled. -/
def Gated (s : Lds) (i : Index) : Prop := s.publishedOn i ≠ [] ∨ Serves i s.consumer → s.Sampled i

variable {s s' : Lds} {i : Index}

theorem Gated.goto (h : s.Gated i) {consumer : Consumer} (hServes : Serves i consumer → s.Sampled i) : (s.goto consumer).Gated i :=
  fun hTaken => hTaken.elim (fun hPublished => h (.inl hPublished)) hServes

theorem Gated.consume (h : s.Gated i) (hNext : s.consume = some s') : s'.Gated i ∧ (s'.Sampled i ↔ s.Sampled i) := by
  have hGoto {consumer : Consumer} (hServes : Serves i consumer → s.Sampled i) :
      (s.goto consumer).Gated i ∧ ((s.goto consumer).Sampled i ↔ s.Sampled i) := ⟨h.goto hServes, .rfl⟩
  have hServed : Serves i s.consumer → s.Sampled i := fun hServes => h (.inr hServes)
  cases hConsumer : s.consumer with
  | start | future =>
    simp only [Lds.consume, hConsumer, Option.some_inj] at hNext
    subst hNext
    split <;> exact hGoto False.elim
  | wait =>
    simp only [Lds.consume, hConsumer] at hNext
    split at hNext
    · cases hNext
      exact ⟨fun hTaken => hTaken.elim (fun hPublished => h (.inl hPublished)) False.elim, .rfl⟩
    · cases hNext
  | lidar j =>
    simp only [Lds.consume, hConsumer] at hNext
    split at hNext
    · split at hNext <;> cases hNext
      · rename_i hSampling
        exact hGoto fun hEq => hEq ▸ hSampling
      · exact hGoto False.elim
    · cases hNext
      exact hGoto False.elim
  | storage j | poll j | pollQueue j =>
    rw [hConsumer] at hServed
    simp only [Lds.consume, hConsumer, Option.some_inj] at hNext
    subst hNext
    split
    · exact hGoto False.elim
    · exact hGoto hServed
  | prePop j =>
    rw [hConsumer] at hServed
    simp only [Lds.consume, hConsumer, Option.some_inj] at hNext
    subst hNext
    split <;> exact hGoto hServed
  | publish j =>
    rw [hConsumer] at hServed
    simp only [Lds.consume, hConsumer] at hNext
    split at hNext <;> cases hNext
    · split <;> exact hGoto hServed
    · split <;> exact hGoto hServed
    · exact hGoto hServed
    · exact hGoto hServed
  | baseTime j | pointsNum j baseTime | points j baseTime pointsNum =>
    rw [hConsumer] at hServed
    simp only [Lds.consume, hConsumer] at hNext
    obtain ⟨packet, -, rfl⟩ := Option.map_eq_some_iff.mp hNext
    exact hGoto hServed
  | popUpdate j packet =>
    rw [hConsumer] at hServed
    simp only [Lds.consume, hConsumer, Option.some_inj] at hNext
    subst hNext
    have hState : Sampled { s.setQueue j (s.queue j).queuePopUpdate with consumer := .deliver j packet } i ↔ s.Sampled i := by
      rw [Sampled, Sampled]
      exact (connectState_setQueue j i _).congr_left
    exact ⟨fun hTaken => hState.mpr (hTaken.elim (fun hPublished => h (.inl hPublished)) hServed), hState⟩
  | deliver j packet =>
    rw [hConsumer] at hServed
    simp only [Lds.consume, hConsumer, Option.some_inj] at hNext
    have hOther (hj : j ≠ i) : (s.publish j packet).publishedOn i = s.publishedOn i := by
      simp only [publish, publishedOn]
      split
      · rfl
      · split <;> simp [hj]
    obtain ⟨formatted, published, hPublish⟩ := publish_unchanged s j packet
    rw [hPublish] at hNext hOther
    subst hNext
    refine ⟨fun hTaken => hTaken.elim (fun hPublished => ?_) hServed, .rfl⟩
    by_cases hj : j = i
    · exact hServed hj
    · exact h (.inl (hOther hj ▸ hPublished))
  | returned => simp only [Lds.consume, hConsumer, reduceCtorEq] at hNext

theorem sampled_push (s : Lds) (job : Job) (pc : PushAt) (i : Index) : (s.push job pc).Sampled i ↔ s.Sampled i := by
  rw [Sampled, Sampled, connectState_push]

theorem Gated.produce (h : s.Gated i) (hNext : s.produce = some s') : s'.Gated i ∧ (s'.Sampled i ↔ s.Sampled i) := by
  rw [Lds.produce] at hNext
  split at hNext
  · rename_i pc job hPush
    cases hNext
    obtain ⟨hConsumer, -, -, -, -, hPublished⟩ := push_unchanged s job pc
    refine ⟨fun hTaken => (sampled_push s job pc i).mpr (h ?_), sampled_push s job pc i⟩
    rwa [publishedOn, hPublished, hConsumer] at hTaken
  · cases hNext
  · split at hNext <;> cases hNext <;> exact ⟨h, .rfl⟩

theorem sampled_startSampling (s : Lds) (i j : Index) : (s.startSampling i).Sampled j ↔ j = i ∨ s.Sampled j := by
  by_cases hj : j = i
  · subst hj
    simp [Sampled, startSampling]
  · simp [Sampled, startSampling, hj]

end Lds

/-- What holds of a lidar and its settings in every state. -/
structure Agrees (setup : LidarSetup) (lds : Lds) (i : Index) : Prop where
  ok : setup.Ok
  asked : setup.Asked
  settled : setup.Settled
  gated : lds.Gated i
  sampled : lds.Sampled i → (∃ option, setup.config.Configured option) ∧ setup.Acknowledged
  ready : setup.noticed → (∃ option, setup.config.Configured option) → setup.setBits = 0 → lds.Sampled i

namespace Agrees

variable {setup setup' : LidarSetup} {lds lds' : Lds} {i : Index} {sampling : Bool}

theorem of_lds (h : Agrees setup lds i) (hGated : lds'.Gated i) (hSampled : lds'.Sampled i ↔ lds.Sampled i) :
    Agrees setup lds' i :=
  ⟨h.ok, h.asked, h.settled, hGated, fun hNow => h.sampled (hSampled.mp hNow),
    fun hNoticed hSome hZero => hSampled.mpr (h.ready hNoticed hSome hZero)⟩

theorem lidarInfoChangeCallback (h : Agrees setup lds i) : Agrees setup.lidarInfoChangeCallback lds i := by
  obtain ⟨hConfig, hAcks⟩ := LidarSetup.lidarInfoChangeCallback_unchanged (s := setup)
  refine ⟨h.ok.lidarInfoChangeCallback, LidarSetup.asked_lidarInfoChangeCallback,
    LidarSetup.settled_lidarInfoChangeCallback, h.gated, ?_, ?_⟩
  · rw [LidarSetup.Acknowledged, hConfig, hAcks]
    exact h.sampled
  · rw [hConfig]
    rintro _ ⟨option, hConfigured⟩ hZero
    have hWaits := LidarSetup.waits_lidarInfoChangeCallback hConfigured
    exact absurd hWaits (h.ok.lidarInfoChangeCallback.only.eq_zero_iff.mp hZero option)

theorem startSampling (h : Agrees setup lds i) (j : Index) (hAnswered : j = i → (∃ option, setup.config.Configured option) ∧
    setup.Acknowledged) : Agrees setup (lds.startSampling j) i := by
  refine ⟨h.ok, h.asked, h.settled, fun hTaken => ?_, fun hNow => ?_, fun hNoticed hSome hZero => ?_⟩
  · exact (Lds.sampled_startSampling ..).mpr (.inr (h.gated hTaken))
  · rcases (Lds.sampled_startSampling ..).mp hNow with hEq | hBefore
    · exact hAnswered hEq.symm
    · exact h.sampled hBefore
  · exact (Lds.sampled_startSampling ..).mpr (.inr (h.ready hNoticed hSome hZero))

theorem answered (h : Agrees setup lds i) (hAnswered : setup.Answered setup' sampling) :
    Agrees setup' (if sampling then lds.startSampling i else lds) i := by
  have hAcknowledged (hAll : setup.Acknowledged) : setup'.Acknowledged := by
    intro option hConfigured
    rw [hAnswered.config] at hConfigured ⊢
    exact hAnswered.acks _ (hAll option hConfigured)
  have hSampled (hNow : lds.Sampled i) : (∃ option, setup'.config.Configured option) ∧ setup'.Acknowledged := by
    obtain ⟨hSome, hAll⟩ := h.sampled hNow
    exact ⟨hAnswered.config ▸ hSome, hAcknowledged hAll⟩
  have hAsked : setup'.Asked := by
    intro hNoticed option hConfigured
    rw [hAnswered.config] at hConfigured ⊢
    exact hAnswered.asked _ (h.asked (hAnswered.noticed ▸ hNoticed) option hConfigured)
  cases sampling with
  | false =>
    refine ⟨hAnswered.ok, hAsked, hAnswered.settled, h.gated, hSampled, fun hNoticed hSome hZero => ?_⟩
    exact h.ready (hAnswered.noticed ▸ hNoticed) (hAnswered.config ▸ hSome) (hAnswered.others rfl hZero)
  | true =>
    obtain ⟨hZero, hNoticed, hSome⟩ := hAnswered.last rfl
    have hNow : (lds.startSampling i).Sampled i := (Lds.sampled_startSampling ..).mpr (.inl rfl)
    refine ⟨hAnswered.ok, hAsked, hAnswered.settled, fun _ => hNow, fun _ => ⟨hAnswered.config ▸ hSome, fun option hConfigured => ?_⟩,
      fun _ _ _ => hNow⟩
    -- No bit is left, so no setting waits.
    have hNone := hAnswered.ok.only.eq_zero_iff.mp hZero option
    exact (hAnswered.settled (hAnswered.noticed ▸ hNoticed) option hConfigured).resolve_left hNone

end Agrees

namespace Station

def Ok (s : Station) : Prop := ∀ i, Agrees (s.setups i) s.lds i

variable {s s' : Station} {i : Index}

theorem ok_initial (userConfigs : List UserLivoxLidarConfig) (queueSize : BitVec 32) (lddc : Lddc) :
    (initial userConfigs queueSize lddc).Ok := by
  intro i
  refine ⟨LidarSetup.ok_initial _, nofun, nofun, fun hTaken => ?_, nofun, nofun⟩
  exact hTaken.elim (fun hPublished => absurd rfl hPublished) nofun

theorem Ok.setLds (h : s.Ok) {lds : Lds} (hLds : ∀ i, lds.Gated i ∧ (lds.Sampled i ↔ s.lds.Sampled i)) : (s.setLds lds).Ok :=
  fun i => (h i).of_lds (hLds i).1 (hLds i).2

theorem Ok.lidarInfoChangeCallback (h : s.Ok) (handle : UInt32) : (s.lidarInfoChangeCallback handle).Ok := by
  rw [Station.lidarInfoChangeCallback]
  split
  · exact h.setLds fun i => ⟨(h i).gated, .rfl⟩
  · rename_i j _
    intro i
    show Agrees (Function.update s.setups j (s.setups j).lidarInfoChangeCallback i) s.lds i
    by_cases hj : i = j
    · subst hj
      rw [Function.update_self]
      exact (h i).lidarInfoChangeCallback
    · rw [Function.update_of_ne hj]
      exact h i

theorem Ok.answer (h : s.Ok) {j : Index} {k : ℕ} {status : LivoxStatus} (hAnswer : s.answer j k status = some s') : s'.Ok := by
  obtain ⟨⟨setup, sampling⟩, hSetup, rfl⟩ := Option.map_eq_some_iff.mp hAnswer
  intro i
  show Agrees (Function.update s.setups j setup i) (if sampling then s.lds.startSampling j else s.lds) i
  by_cases hj : i = j
  · subst hj
    rw [Function.update_self]
    exact (h i).answered ((h i).ok.answer (h i).settled hSetup)
  · rw [Function.update_of_ne hj]
    split
    · exact (h i).startSampling j fun hEq => absurd hEq.symm hj
    · exact h i

theorem Ok.next {l : StationLabel} (h : s.Ok) (hNext : s.next l = some s') : s'.Ok := by
  cases l with
  | infoChange handle =>
    cases hNext
    exact h.lidarInfoChangeCallback handle
  | answer i k status => exact h.answer hNext
  | requestExit =>
    cases hNext
    exact h.setLds fun i => ⟨(h i).gated, .rfl⟩
  | exitSignal | frame entries =>
    obtain ⟨lds, hLds, rfl⟩ := Option.map_eq_some_iff.mp hNext
    simp only [Lds.next] at hLds
    split at hLds
    · cases hLds
      exact h.setLds fun i => ⟨(h i).gated, .rfl⟩
    · cases hLds
  | produce =>
    obtain ⟨lds, hLds, rfl⟩ := Option.map_eq_some_iff.mp hNext
    exact h.setLds fun i => (h i).gated.produce hLds
  | consume =>
    obtain ⟨lds, hLds, rfl⟩ := Option.map_eq_some_iff.mp hNext
    exact h.setLds fun i => (h i).gated.consume hLds

theorem Ok.run (h : s.Ok) (hRun : Run s s') : s'.Ok := by
  induction hRun with
  | refl => exact h
  | tail _ hStep ih =>
    obtain ⟨l, -, hNext⟩ := hStep
    exact ih.next hNext

/-- The configurations stay as they were read. -/
theorem Ok.config_next {l : StationLabel} (h : s.Ok) (hNext : s.next l = some s') (i : Index) :
    (s'.setups i).config = (s.setups i).config := by
  have hUpdate {j : Index} {setup : LidarSetup} (hConfig : setup.config = (s.setups j).config) :
      (Function.update s.setups j setup i).config = (s.setups i).config := by
    by_cases hj : i = j
    · subst hj
      rw [Function.update_self, hConfig]
    · rw [Function.update_of_ne hj]
  cases l with
  | infoChange handle =>
    cases hNext
    rw [Station.lidarInfoChangeCallback]
    split
    · rfl
    · exact hUpdate LidarSetup.lidarInfoChangeCallback_unchanged.1
  | answer j k status =>
    obtain ⟨⟨setup, sampling⟩, hSetup, rfl⟩ := Option.map_eq_some_iff.mp hNext
    exact hUpdate ((h j).ok.answer (h j).settled hSetup).config
  | requestExit =>
    cases hNext
    rfl
  | exitSignal | frame entries | produce | consume =>
    obtain ⟨lds, -, rfl⟩ := Option.map_eq_some_iff.mp hNext
    rfl

theorem Ok.config_run (h : s.Ok) (hRun : Run s s') (i : Index) : (s'.setups i).config = (s.setups i).config := by
  induction hRun with
  | refl => rfl
  | tail hBefore hStep ih =>
    obtain ⟨l, -, hNext⟩ := hStep
    exact ((h.run hBefore).config_next hNext i).trans ih

end Station

/-- Packets of a lidar are published only when every setting of its configuration has been acknowledged with its value,
and never where there is no setting. Once the requests to a lidar are answered without a failure, it is sampled if there
is a setting. -/
theorem settings_gate_the_topic {userConfigs : List UserLivoxLidarConfig} {queueSize : BitVec 32}
    {lddc : Lddc} {s : Station} (hRun : Station.Run (.initial userConfigs queueSize lddc) s) {i : Index}
    {config : UserLivoxLidarConfig} (hConfig : (Station.initLivoxLidar userConfigs).configs i = config) :
    (s.lds.publishedOn i ≠ [] → (∃ option, config.Configured option) ∧
      ∀ option, config.Configured option → (option, config.sent option) ∈ (s.setups i).acks) ∧
    ((s.setups i).noticed → (s.setups i).failed = false → (s.setups i).requests = [] →
      (s.lds.Sampled i ↔ ∃ option, config.Configured option)) := by
  have hInitial := Station.ok_initial userConfigs queueSize lddc
  have h := hInitial.run hRun i
  have hSame : (s.setups i).config = config := (hInitial.config_run hRun i).trans hConfig
  have hSampled := h.sampled
  rw [LidarSetup.Acknowledged, hSame] at hSampled
  refine ⟨fun hPublished => hSampled (h.gated (.inl hPublished)), fun hNoticed hFailed hNone => ⟨fun hNow => (hSampled hNow).1, ?_⟩⟩
  intro hSome
  refine h.ready hNoticed (hSame ▸ hSome) (h.ok.only.eq_zero_iff.mpr fun option hWaits => ?_)
  have hRequest := h.ok.outstanding hFailed option hWaits
  rw [hNone] at hRequest
  cases hRequest

/-- One of two settings is acknowledged at the second try. -/
theorem settings_gate_the_topic_retried : ∃ s : Station,
    Station.Run (.initial [⟨7, 1, 0, -1, -1, ⟨0, 0, 0, 0, 0, 0⟩⟩] 2 ⟨.livoxCustom, true, .toRos⟩) s ∧
    (s.lds.publishedOn 0).map StoragePacket.baseTime = [5] ∧ (ConfigOption.scanPattern, 0) ∈ (s.setups 0).acks ∧
    s.lds.Sampled 0 := by
  let config : UserLivoxLidarConfig := ⟨7, 1, 0, -1, -1, ⟨0, 0, 0, 0, 0, 0⟩⟩
  let entry : PointPacket × UInt64 := (⟨7, kLivoxLidarType, [⟨0, 0, 0, 0, 0, 0, 5⟩]⟩, 5)
  obtain ⟨s, hRun, hState⟩ : ∃ s : Station, Station.Run (.initial [config] 2 ⟨.livoxCustom, true, .toRos⟩) s ∧
      ((s.lds.publishedOn 0).map StoragePacket.baseTime, (s.setups 0).noticed, (s.setups 0).failed, (s.setups 0).requests) =
        ([5], true, false, []) :=
    Reaches.of_observed ([.infoChange 7, .answer 0 0 .timeout, .answer 0 0 .success, .answer 0 0 .success, .frame [entry]] ++
      List.replicate 12 .produce ++ List.replicate 13 .consume) _ (by decide +kernel)
  obtain ⟨hPublished, hState⟩ := Prod.mk.inj hState
  obtain ⟨hNoticed, hState⟩ := Prod.mk.inj hState
  obtain ⟨hFailed, hNone⟩ := Prod.mk.inj hState
  have hConfig : (Station.initLivoxLidar [config]).configs 0 = config := rfl
  have hScan : config.Configured .scanPattern := by decide
  obtain ⟨hAcks, hSampled⟩ := settings_gate_the_topic hRun hConfig
  refine ⟨s, hRun, hPublished, (hAcks fun hNil => ?_).2 .scanPattern hScan, (hSampled hNoticed hFailed hNone).mpr ⟨_, hScan⟩⟩
  rw [hNil] at hPublished
  cases hPublished

end RoveMapping.Livox
