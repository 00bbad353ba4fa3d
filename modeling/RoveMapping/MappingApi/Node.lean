import Mathlib.Data.Rat.Defs
import RoveMapping.Library.Machine

/-! # The mapping node: shared state, operations and service calls

The HTTP thread runs the action of one request at a time; the executor threads handle
`/rtabmap/info` between any two of its operations. Every block under `_state_lock` is one
operation, and so is every call that leaves the process.
-/
namespace RoveMapping.MappingApi
open Resumption
set_option autoImplicit false

inductive MappingState where
  | unknown | running | paused
  deriving DecidableEq, Repr

/-- What rtabmap itself is doing, whatever the API has recorded. -/
inductive Activity where
  | running | paused
  deriving DecidableEq, Repr

inductive Service where
  | pause | resume | reset | trigger
  deriving DecidableEq, Repr

def Service.name : Service → String
  | .pause => "/rtabmap/pause"
  | .resume => "/rtabmap/resume"
  | .reset => "/rtabmap/reset"
  | .trigger => "/rtabmap/trigger_new_map"

def Service.apply : Service → Activity → Activity
  | .pause, _ => .paused
  | .resume, _ => .running
  | .reset, activity => activity
  | .trigger, activity => activity

/-- The fields of `rtabmap_msgs/Info` that `_on_info` looks at; `hasattr` may fail for the first. -/
structure Info where
  nodesCount : Option Nat
  loopClosureId : Int
  deriving DecidableEq, Repr

structure File where
  size : Nat
  mtime : Nat
  deriving DecidableEq, Repr

structure World where
  mappingState : MappingState
  nodeCount : Nat
  loopClosures : Nat
  rtabmap : Activity
  published : List Info
  files : List (String × File)
  ticks : Nat
  deriving DecidableEq, Repr

inductive Exc where
  | fileNotFoundError (text : String)
  | timeoutExpired (text : String)
  | typeError (text : String)
  | other (text : String)
  deriving DecidableEq, Repr

/-- How a future ends: resolved, resolved with an exception, or not before the timeout. -/
inductive Reply where
  | done
  | exception (text : String)
  | timeout
  deriving DecidableEq, Repr

structure CompletedProcess where
  returncode : Int
  stdout : String
  stderr : String
  deriving DecidableEq, Repr

inductive Op where
  | readState
  | writeState (state : MappingState)
  | resetState
  | waitForService (svc : Service)
  | callAsync (svc : Service)
  | sleep
  | time
  | utcnow
  | isFile (path : String)
  | makedirs (path : String)
  | run (cmd : List String)
  | listdir (path : String)
  | getmtime (path : String)
  | getsize (path : String)
  deriving DecidableEq, Repr

@[reducible] def Op.Ans : Op → Type
  | .readState => MappingState
  | .writeState _ | .resetState | .sleep | .makedirs _ => Unit
  | .waitForService _ | .isFile _ => Bool
  | .callAsync _ => Reply
  | .time => ℚ
  | .utcnow => String
  | .run _ => CompletedProcess
  | .listdir _ => List String
  | .getmtime _ | .getsize _ => Nat

abbrev api : Signature := ⟨Op, Op.Ans, Exc⟩

def ask (op : Op) : Program api op.Ans := @Program.perform api op

structure Env where
  available : Service → Bool
  reply : Service → Reply
  /-- Whether rtabmap carries the request out, whatever the reply. -/
  effect : Service → Bool
  clock : Nat → ℚ
  utcnow : String
  makedirs : Option Exc
  run : Except Exc CompletedProcess
  /-- Files that rtabmap-export leaves behind, however it ends. -/
  exported : List (String × File)
  listdir : Option Exc
  getmtime : String → Option Exc
  getsize : String → Option Exc

def obliging : Env where
  available _ := true
  reply _ := .done
  effect _ := true
  clock _ := 0
  utcnow := "20240101_000000"
  makedirs := none
  run := .ok ⟨0, "", ""⟩
  exported := []
  listdir := none
  getmtime _ := none
  getsize _ := none

namespace World

def file? (w : World) (path : String) : Option File := w.files.lookup path

def call (w : World) (svc : Service) : World := { w with rtabmap := svc.apply w.rtabmap }

/-- `_on_info`, all of it under `_state_lock`. -/
def onInfo (w : World) (msg : Info) : World :=
  { w with
    mappingState := if w.mappingState = .unknown then .running else w.mappingState
    nodeCount := msg.nodesCount.getD w.nodeCount
    loopClosures := if msg.loopClosureId > 0 then w.loopClosures + 1 else w.loopClosures }

def write (w : World) (files : List (String × File)) : World :=
  { w with files := files ++ w.files.filter fun old => files.all fun new => new.1 ≠ old.1 }

def listdir (w : World) (dir : String) : List String :=
  w.files.filterMap fun (path, _) =>
    let name := path.toList.drop (dir.length + 1)
    if path.toList.take (dir.length + 1) = dir.toList ++ ['/'] ∧ '/' ∉ name then some (String.ofList name)
    else none

def stat (w : World) (failure : Option Exc) (path : String) (field : File → Nat) : Except Exc Nat :=
  match failure, w.file? path with
  | some exc, _ => .error exc
  | none, some file => .ok (field file)
  | none, none => .error (.fileNotFoundError path)

end World

def answer (env : Env) (w : World) : (op : Op) → Except Exc op.Ans × World
  | .readState => (.ok w.mappingState, w)
  | .writeState state => (.ok (), { w with mappingState := state })
  | .resetState => (.ok (), { w with mappingState := .running, nodeCount := 0, loopClosures := 0 })
  | .waitForService svc => (.ok (env.available svc), w)
  | .callAsync svc => (.ok (env.reply svc), if env.effect svc then w.call svc else w)
  | .sleep => (.ok (), w)
  | .time => (.ok (env.clock w.ticks), { w with ticks := w.ticks + 1 })
  | .utcnow => (.ok env.utcnow, w)
  | .isFile path => (.ok (w.file? path).isSome, w)
  | .makedirs _ => (env.makedirs.elim (.ok ()) .error, w)
  | .run _ => (env.run, w.write env.exported)
  | .listdir path => (env.listdir.elim (.ok (w.listdir path)) .error, w)
  | .getmtime path => (w.stat (env.getmtime path) path File.mtime, w)
  | .getsize path => (w.stat (env.getsize path) path File.size, w)

def sem : Semantics api Unit World Env := fun _ op env w => some (answer env w op)

/-- `/rtabmap/info` traffic between the operations of a request. rtabmap publishes only while
it runs; the executor handles the pending messages in any order. -/
inductive Event where
  | publish (msg : Info)
  | handle (index : Nat)
  deriving DecidableEq, Repr

def onEvent : Event → World → Option World
  | .publish msg, w =>
    if w.rtabmap = .running then some { w with published := w.published ++ [msg] } else none
  | .handle index, w =>
    w.published[index]?.map fun msg => { w.onInfo msg with published := w.published.eraseIdx index }

def callResult (svc : Service) : Reply → Bool × String
  | .done => (true, "ok")
  | .exception text => (false, text)
  | .timeout => (false, s!"{svc.name} timed out after 5.0s")

def callEmpty (svc : Service) : Program api (Bool × String) := do
  if ← ask (.waitForService svc) then
    let reply ← ask (.callAsync svc)
    return callResult svc reply
  else
    return (false, s!"{svc.name} not available — is rtabmap running?")

end RoveMapping.MappingApi
