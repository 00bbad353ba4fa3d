import RoveMapping.Library.PythonInt
import RoveMapping.MappingApi.Config
import RoveMapping.MappingApi.Export

/-! # The POST handler

`do_POST` reads the body, looks up the route and sends what its action returns. Nothing catches what the
header, the body or the action raise.
-/
namespace RoveMapping.MappingApi
open Resumption Fallible
set_option autoImplicit false

structure PostRequest where
  path : String
  /-- The value of the header, decoded as Latin-1. -/
  contentLength : Option (List UInt8)
  /-- What the client sends behind the headers. -/
  body : List UInt8

structure Response where
  code : ℕ
  body : Dict
deriving DecidableEq

/-- What `do_POST` has sent when it ends, and the exception that left it. -/
structure Exchange where
  sent : List Response
  escaped : Option Exc
deriving DecidableEq

structure Server where
  env : Env
  config : ConfigEnv
  /-- `json.loads`; `none` is whatever exception it raises. -/
  loads : List UInt8 → Option Value
  /-- Whether a buffer of that many bytes can be had. -/
  allocates : ℕ → Bool

inductive Route where
  | go | pause | restart | newMap | «export» | config
deriving DecidableEq

def Route.ofPath (p : String) : Option Route :=
  if p = "/mapping/go" then some .go
  else if p = "/mapping/pause" then some .pause
  else if p = "/mapping/restart" then some .restart
  else if p = "/mapping/new_map" then some .newMap
  else if p = "/mapping/export" then some .export
  else if p = "/mapping/config" then some .config
  else none

/-- `self.path.split("?")[0].rstrip("/")` -/
def routePath (path : String) : String := String.ofList (rstripSlashes (path.toList.takeWhile (· ≠ '?')))

/-! ## The body -/

def latin1 (bytes : List UInt8) : List Char := bytes.map fun byte => Char.ofNat byte.toNat

/-- `int(text)`, with the limit of 4300 digits. -/
def int (text : List Char) : Except Exc ℤ :=
  if 4300 < text.countP Char.isDigit then .error (.other "ValueError: Exceeds the limit (4300) for integer string conversion")
  else
    match PythonInt.parse text with
    | some n => .ok n
    | none => .error (.other "ValueError: invalid literal for int() with base 10")

/-- `int(self.headers.get("Content-Length") or 0)` -/
def lengthOf (request : PostRequest) : Except Exc ℤ :=
  match request.contentLength with
  | none | some [] => .ok 0
  | some (byte :: bytes) => int (latin1 (byte :: bytes))

/-- `self.rfile.read(n)`; `none` is an exception. -/
def read (server : Server) (request : PostRequest) (n : ℤ) : Option (List UInt8) :=
  if n < -1 ∨ 2 ^ 63 ≤ n then none
  else if n = -1 then some request.body
  else if server.allocates n.toNat then some (request.body.take n.toNat)
  else none

/-- `_body` behind the header: whatever fails, the body is an empty dictionary. -/
def decoded (server : Server) (request : PostRequest) (n : ℤ) : Value :=
  if n = 0 then .dict [] else ((read server request n).bind server.loads).getD (.dict [])

def Value.get (value : Value) (key : String) : Except Exc Value :=
  match value with
  | .dict items => .ok ((items.lookup key).getD .null)
  | _ => .error (.other "AttributeError: object has no attribute 'get'")

/-! ## The handler -/

def Result.toDict (result : Result) : Dict :=
  [("ok", .bool result.ok), ("message", .text result.message)] ++
    (result.path.map fun path => ("path", Entry.text path)).toList ++
    (result.sizeMb.map fun size => ("size_mb", Entry.number size)).toList ++
    (result.durationS.map fun duration => ("duration_s", Entry.number duration)).toList

def outcome (server : Server) (w : World) (action : Program api Result) : Except Exc Dict :=
  (action.run server.env.answer w).1.map Result.toDict

def perform (server : Server) (w : World) (body : Value) : Route → Except Exc Dict
  | .go => outcome server w actionStart
  | .pause => outcome server w actionPause
  | .restart => outcome server w actionReset
  | .newMap => outcome server w actionNewMap
  | .export => do
    let filename ← body.get "filename"
    outcome server w (actionExport filename)
  | .config => do
    let path ← body.get "path"
    actionConfig server.config path

/-- `_json`, with which every path through the handler ends that raises nothing. -/
def json (code : ℕ) (obj : Dict) : Exchange := ⟨[⟨code, obj⟩], none⟩

def escape (exc : Exc) : Exchange := ⟨[], some exc⟩

def doPost (server : Server) (w : World) (request : PostRequest) : Exchange :=
  let p := routePath request.path
  match lengthOf request with
  | .error exc => escape exc
  | .ok n =>
    match Route.ofPath p with
    | none => json 404 [("error", .text s!"Not found: {p}")]
    | some route =>
      match perform server w (decoded server request n) route with
      | .error exc => escape exc
      | .ok result => json (if result.lookup "ok" = some (.bool true) then 200 else 503) result

/-- One response, with the status that the route and the action's result ask for. -/
def Answered (server : Server) (w : World) (request : PostRequest) : Prop :=
  ∃ response, doPost server w request = ⟨[response], none⟩ ∧
    if (Route.ofPath (routePath request.path)).isNone then response.code = 404
    else (response.code = 200 ∧ response.body.lookup "ok" = some (.bool true)) ∨
      (response.code = 503 ∧ response.body.lookup "ok" = some (.bool false) ∧
        ∃ message, response.body.lookup "message" = some (.text message))

/-! ## Actions that raise nothing -/

section Completes
variable {env : Env} {α β : Type}

/-- From every state the program ends with a value. -/
def Completes (env : Env) (p : Program api α) : Prop :=
  ∀ w, ∃ value t ops, p.Runs env.answer w (.ok value) t ops

theorem Completes.pure (value : α) : Completes env (.pure value : Program api α) := fun w => ⟨value, w, [], .pure value w⟩

theorem Completes.bind {p : Program api α} {f : α → Program api β} (hp : Completes env p)
    (hf : ∀ value, Completes env (f value)) : Completes env (p >>= f) := by
  intro w
  obtain ⟨value, t, ops, hRuns⟩ := hp w
  obtain ⟨value', t', ops', hRest⟩ := hf value t
  exact ⟨value', t', _, hRuns.bind hRest⟩

theorem Completes.ask {op : Op} (h : ∀ w, ∃ a, (answer env w op).1 = .ok a) : Completes env (ask op) := by
  intro w
  obtain ⟨a, ha⟩ := h w
  exact ⟨a, _, _, ha ▸ ask_runs env w op⟩

theorem callEmpty_completes (svc : Service) : Completes env (callEmpty svc) := by
  intro w
  obtain ⟨result, ops, hRuns, -⟩ := callEmpty_runs env w svc
  exact ⟨result, _, ops, hRuns⟩

theorem writeState_completes (state : MappingState) : Completes env (ask (.writeState state)) :=
  .ask fun _ => ⟨(), rfl⟩

theorem readState_completes : Completes env (ask .readState) := .ask fun w => ⟨w.mappingState, rfl⟩

theorem actionStart_completes : Completes env actionStart := by
  apply readState_completes.bind
  intro state
  split
  · exact .pure _
  · apply (callEmpty_completes .resume).bind
    rintro ⟨ok, msg⟩
    cases ok with
    | false => exact .pure _
    | true => exact (writeState_completes .running).bind fun _ => .pure _

theorem actionPause_completes : Completes env actionPause := by
  apply readState_completes.bind
  intro state
  split
  · exact .pure _
  · apply (callEmpty_completes .pause).bind
    rintro ⟨ok, msg⟩
    cases ok with
    | false => exact .pure _
    | true => exact (writeState_completes .paused).bind fun _ => .pure _

theorem actionReset_completes : Completes env actionReset := by
  have hSleep : Completes env (ask .sleep) := .ask fun _ => ⟨(), rfl⟩
  have hReset : Completes env (ask .resetState) := .ask fun _ => ⟨(), rfl⟩
  have hResume : ∀ isPaused, Completes env (resumeBeforeReset isPaused) := by
    intro isPaused
    cases isPaused with
    | false => exact .pure _
    | true => exact (callEmpty_completes .resume).bind fun _ => hSleep
  apply readState_completes.bind
  intro state
  apply (hResume _).bind
  intro _
  apply (callEmpty_completes .reset).bind
  rintro ⟨ok, msg⟩
  cases ok with
  | false => exact .pure _
  | true => exact hReset.bind fun _ => .pure _

theorem actionNewMap_completes : Completes env actionNewMap :=
  (callEmpty_completes .trigger).bind fun _ => .pure _

theorem resumeAfterExport_completes (result : Result) : Completes env (resumeAfterExport result) := by
  apply (callEmpty_completes .resume).bind
  rintro ⟨ok, msg⟩
  cases ok with
  | false => exact .pure _
  | true => exact (writeState_completes .running).bind fun _ => .pure _

end Completes

/-! ## The export -/

/-- There is nothing to export, or the name can be made and no exception comes of the subprocess and of the
look for its file but the two that are named. -/
def ExportServed (env : Env) (w : World) (filename : Value) : Prop :=
  (w.file? rtabmapDb).isSome →
    env.makedirs = none ∧ filename.nameable = true ∧ ¬ ExportRaises env w (exportedName env filename)

section Export
variable {env : Env} {w t : World} {filename : Value} {r : Except Exc Result} {ops : List Op}

/-- From the decision to pause on: it fails where the export step does. -/
theorem exportStep_runs (env : Env) (w : World) (name : String) (wasRunning : Prop) [Decidable wasRunning] :
    ∃ r t ops, (if wasRunning then do
        pauseForExport
        let result ← runExport name
        resumeAfterExport result
      else runExport name : Program api Result).Runs env.answer w r t ops ∧ (Fails r ↔ ExportRaises env w name) := by
  split
  · obtain ⟨u, opsPause, hPause, -, hFiles⟩ := pauseForExport_runs env w
    obtain ⟨r, v, opsRun, hRun, -, hFails, -⟩ := runExport_runs env u name
    rw [exportRaises_congr hFiles] at hFails
    cases r with
    | error exc => exact ⟨_, _, _, hPause.bind hRun.bind_error, by simpa using hFails⟩
    | ok result =>
      obtain ⟨value, t, opsResume, hResume⟩ := resumeAfterExport_completes result v
      exact ⟨_, _, _, hPause.bind (hRun.bind hResume), by simpa using hFails⟩
  · obtain ⟨r, t, ops, hRun, -, hFails, -⟩ := runExport_runs env w name
    exact ⟨r, t, ops, hRun, hFails⟩

theorem actionExport_ok_iff (hRuns : (actionExport filename).Runs env.answer w r t ops) :
    ¬ Fails r ↔ ExportServed env w filename := by
  have hFile := ask_runs env w (.isFile rtabmapDb)
  cases hDb : (w.file? rtabmapDb).isSome with
  | false =>
    simp only [answer, hDb] at hFile
    obtain ⟨rfl, -⟩ := hRuns.unique (hFile.bind (.pure _ _))
    simp [ExportServed, hDb]
  | true =>
    simp only [answer, hDb] at hFile
    obtain ⟨_, opsName, hName, hEnd⟩ := exportName_probes env w filename
    rcases hEnd with ⟨hRaises, exc, rfl⟩ | ⟨hNamed, rfl⟩
    · obtain ⟨rfl, -⟩ := hRuns.unique (hFile.bind hName.bind_error)
      simp only [fails_error, not_true_eq_false, ExportServed, hDb, true_imp_iff, false_iff]
      rintro ⟨hMakedirs, hNameable, -⟩
      simp [hMakedirs, hNameable] at hRaises
    · have hRead := ask_runs env w .readState
      obtain ⟨r', t', opsRun, hRun, hFails⟩ := exportStep_runs env w (exportedName env filename)
        (w.mappingState = .running ∨ w.mappingState = .unknown)
      obtain ⟨rfl, -⟩ := hRuns.unique (hFile.bind (hName.bind (hRead.bind hRun)))
      rw [hFails, ExportServed]
      simp only [not_or, Option.not_isSome_iff_eq_none, Bool.not_eq_false] at hNamed
      simp [hDb, hNamed]

end Export

/-! ## Requests -/

/-- The condition that a route makes on what the body was decoded to. -/
def RouteServed (server : Server) (w : World) (body : Value) : Route → Prop
  | .go | .pause | .restart | .newMap => True
  | .export => ∃ items, body = .dict items ∧ ExportServed server.env w ((items.lookup "filename").getD .null)
  | .config => ∃ items, body = .dict items ∧ ConfigServed server.config ((items.lookup "path").getD .null)

/-- The header is a number, and a known route gets a body and a system that it is written for. -/
def Served (server : Server) (w : World) (request : PostRequest) : Prop :=
  ∃ n, lengthOf request = .ok n ∧ ∀ route, Route.ofPath (routePath request.path) = some route →
    RouteServed server w (decoded server request n) route

section Requests
variable {server : Server} {w : World} {request : PostRequest}

theorem outcome_of_completes {action : Program api Result} (h : Completes server.env action) :
    ∃ dict, outcome server w action = .ok dict := by
  obtain ⟨result, t, ops, hRuns⟩ := h w
  exact ⟨result.toDict, by rw [outcome, show action.run server.env.answer w = _ from hRuns]; rfl⟩

theorem outcome_export_iff (filename : Value) :
    (∃ dict, outcome server w (actionExport filename) = .ok dict) ↔ ExportServed server.env w filename := by
  obtain ⟨r, t, ops, hRuns⟩ : ∃ r t ops, (actionExport filename).Runs server.env.answer w r t ops :=
    Program.exists_runs _ w
  rw [← actionExport_ok_iff hRuns, outcome, show (actionExport filename).run server.env.answer w = _ from hRuns]
  cases r with
  | error exc => simp [Except.map]
  | ok result => simp [Except.map]

theorem outcome_stated {action : Program api Result} {dict : Dict} (h : outcome server w action = .ok dict) : Stated dict := by
  unfold outcome at h
  cases hResult : (action.run server.env.answer w).1 with
  | error exc => rw [hResult] at h; cases h
  | ok result =>
    rw [hResult] at h
    obtain rfl := Except.ok.inj h
    obtain ⟨ok, message, path, sizeMb, durationS⟩ := result
    cases ok with
    | true => exact .inl rfl
    | false => exact .inr ⟨rfl, message, rfl⟩

theorem get_bind_ok_iff {body : Value} {key : String} {action : Value → Except Exc Dict} :
    (∃ dict, (body.get key >>= action) = .ok dict) ↔
      ∃ items, body = .dict items ∧ ∃ dict, action ((items.lookup key).getD .null) = .ok dict := by
  rw [bind_ok_iff]
  cases body with
  | null | bool _ | int _ | float _ | str _ | list _ => simp [Value.get]
  | dict items => simp [Value.get]

theorem perform_ok_iff (body : Value) (route : Route) :
    (∃ dict, perform server w body route = .ok dict) ↔ RouteServed server w body route := by
  cases route with
  | go => exact ⟨fun _ => trivial, fun _ => outcome_of_completes actionStart_completes⟩
  | pause => exact ⟨fun _ => trivial, fun _ => outcome_of_completes actionPause_completes⟩
  | restart => exact ⟨fun _ => trivial, fun _ => outcome_of_completes actionReset_completes⟩
  | newMap => exact ⟨fun _ => trivial, fun _ => outcome_of_completes actionNewMap_completes⟩
  | «export» =>
    rw [perform, get_bind_ok_iff, RouteServed]
    simp only [outcome_export_iff]
  | config =>
    rw [perform, get_bind_ok_iff, RouteServed]
    simp only [actionConfig_ok_iff]

theorem perform_stated {body : Value} {route : Route} {dict : Dict} (h : perform server w body route = .ok dict) :
    Stated dict := by
  cases route with
  | go | pause | restart | newMap => exact outcome_stated h
  | «export» =>
    obtain ⟨filename, -, hExport⟩ := bind_ok h
    exact outcome_stated hExport
  | config =>
    obtain ⟨path, -, hConfig⟩ := bind_ok h
    exact actionConfig_stated hConfig

theorem served_of_answered (h : Answered server w request) : Served server w request := by
  obtain ⟨response, hExchange, -⟩ := h
  unfold doPost at hExchange
  cases hLength : lengthOf request with
  | error exc => rw [hLength] at hExchange; cases hExchange
  | ok n =>
    refine ⟨n, hLength, ?_⟩
    intro route hRoute
    simp only [hLength, hRoute] at hExchange
    rw [← perform_ok_iff]
    cases hPerform : perform server w (decoded server request n) route with
    | error exc => rw [hPerform] at hExchange; cases hExchange
    | ok dict => exact ⟨dict, rfl⟩

theorem answered_of_served (h : Served server w request) : Answered server w request := by
  obtain ⟨n, hLength, hRoutes⟩ := h
  unfold Answered doPost
  simp only [hLength]
  cases hRoute : Route.ofPath (routePath request.path) with
  | none => exact ⟨_, rfl, rfl⟩
  | some route =>
    obtain ⟨dict, hPerform⟩ := (perform_ok_iff _ route).mpr (hRoutes route hRoute)
    simp only [hPerform]
    refine ⟨_, rfl, ?_⟩
    rcases perform_stated hPerform with hOk | ⟨hOk, hMessage⟩
    · simp [hOk]
    · simp [hOk, hMessage]

/-- A request is answered exactly when its header is a number and, for the two routes that read the body,
the body is an object and its value one that the action can take. -/
theorem answered_iff (server : Server) (w : World) (request : PostRequest) :
    Answered server w request ↔ Served server w request := by
  constructor
  · exact served_of_answered
  · exact answered_of_served

theorem not_answered_of_silent (h : (doPost server w request).sent = []) : ¬ Answered server w request := by
  rintro ⟨response, hExchange, -⟩
  rw [hExchange] at h
  cases h

end Requests

/-- A server whose surroundings raise nothing; of the JSON documents it knows the empty list. -/
def obligingServer : Server where
  env := obliging
  config :=
    { configPath := "/opt/config/rtabmap.yaml", home := some "/root", getpwnam := fun _ => .ok none,
      environ := fun _ => .ok none, isFile := fun _ => true, safeLoad := fun _ => .ok .other, repr := id,
      available := true, parameter := fun _ value => .ok ⟨"", value⟩, callAsync := fun _ => .ok .timeout }
  loads bytes := if bytes = "[]".toUTF8.toList then some (.list []) else none
  allocates _ := true

/-- A body that is no object, a header that is no number, and an empty YAML file: the exception leaves the
handler, and nothing is sent. -/
theorem silent_requests :
    ¬ Answered obligingServer (mapped .running .running) ⟨"/mapping/export", some "2".toUTF8.toList, "[]".toUTF8.toList⟩ ∧
    ¬ Answered obligingServer (mapped .running .running) ⟨"/mapping/go", some "two".toUTF8.toList, []⟩ ∧
    ¬ Answered obligingServer (mapped .running .running) ⟨"/mapping/config", none, []⟩ := by
  refine ⟨not_answered_of_silent ?_, not_answered_of_silent ?_, not_answered_of_silent ?_⟩
  · decide +kernel
  · decide +kernel
  · decide +kernel

end RoveMapping.MappingApi
