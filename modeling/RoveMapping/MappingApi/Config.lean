import RoveMapping.Library.Fallible
import RoveMapping.MappingApi.Actions

/-! # Loading parameters from a YAML file

`action_config` and `call_set_params`. Neither touches the recorded state; what they ask of the
system, of PyYAML and of the parameter service is a `ConfigEnv`.
-/
namespace RoveMapping.MappingApi
open Fallible
set_option autoImplicit false

/-- A key of a decoded mapping: text, or a number, a date and so on. -/
inductive Key where
  | str (s : String)
  | other (text : String)
deriving DecidableEq

/-- What `yaml.safe_load` returns, as far as it is told apart: `other` is `None`, a list, a date, bytes or a set. -/
inductive Yaml where
  | bool (b : Bool)
  | int (n : ℤ)
  | float (bits : UInt64)
  | str (s : String)
  | dict (items : List (Key × Yaml))
  | other

inductive Scalar where
  | bool (b : Bool)
  | integer (n : ℤ)
  | double (bits : UInt64)
  | string (s : String)
deriving DecidableEq

structure Parameter where
  name : String
  value : Scalar
deriving DecidableEq

/-- How the future of `set_parameters` ends; `results` says of each parameter whether it was set. -/
inductive SetReply where
  | results (successful : List Bool)
  | exception (text : String)
  | timeout
deriving DecidableEq

structure ConfigEnv where
  /-- `CONFIG_PATH`, beside the script. -/
  configPath : String
  /-- The home directory of the process, from `HOME` or from the password database. -/
  home : Option String
  /-- `pwd.getpwnam(name).pw_dir`. There may be no such user, and a name with a NUL byte raises. -/
  getpwnam : String → Except Exc (Option String)
  environ : String → Except Exc (Option String)
  isFile : String → Bool
  /-- `open` and `yaml.safe_load`, with the text of whatever exception they raise. -/
  safeLoad : String → Except String Yaml
  repr : String → String
  available : Bool
  /-- The setters of `ParameterValue` and `Parameter`: they assert the types and ranges of the message. -/
  parameter : Key → Scalar → Except Exc Parameter
  callAsync : List Parameter → Except Exc SetReply

/-- An entry of a dictionary that is sent as JSON. -/
inductive Entry where
  | bool (b : Bool)
  | text (s : String)
  | number (q : ℚ)
deriving DecidableEq

abbrev Dict := List (String × Entry)

def failure (message : String) : Dict := [("ok", .bool false), ("message", .text message)]

/-! ## The path -/

def rstripSlashes (text : List Char) : List Char := (text.reverse.dropWhile (· = '/')).reverse

/-- `os.path.expanduser` -/
def expanduser (env : ConfigEnv) (path : String) : Except Exc String :=
  match path.toList with
  | '~' :: rest => do
    let name := rest.takeWhile (· ≠ '/')
    let userhome ← if name = [] then .ok env.home else env.getpwnam (String.ofList name)
    match userhome with
    | none => return path
    | some home =>
      let expanded := rstripSlashes home.toList ++ rest.dropWhile (· ≠ '/')
      return if expanded = [] then "/" else String.ofList expanded
  | _ => .ok path

def isWord (c : Char) : Bool := c.isAlphanum || c = '_'

/-- What `\$(\w+|\{[^}]*\})` matches behind a `$`: the name, the text that is matched, and the rest. -/
def reference : List Char → Option (List Char × List Char × List Char)
  | '\x7b' :: inner =>
    match inner.dropWhile (· ≠ '\x7d') with
    | _ :: rest =>
      let name := inner.takeWhile (· ≠ '\x7d')
      some (name, '\x7b' :: name ++ ['\x7d'], rest)
    | [] => none
  | text =>
    let name := text.takeWhile isWord
    if name = [] then none else some (name, name, text.dropWhile isWord)

/-- `os.path.expandvars`, in one pass: no value is expanded again. The text gets shorter in every turn. -/
def expandFrom (env : ConfigEnv) : ℕ → List Char → Except Exc (List Char)
  | 0, text => .ok text
  | _ + 1, [] => .ok []
  | turns + 1, '$' :: rest =>
    match reference rest with
    | some (name, matched, after) => do
      let value ← env.environ (String.ofList name)
      let tail ← expandFrom env turns after
      return (value.elim ('$' :: matched) String.toList) ++ tail
    | none => ('$' :: ·) <$> expandFrom env turns rest
  | turns + 1, c :: rest => (c :: ·) <$> expandFrom env turns rest

def expandvars (env : ConfigEnv) (path : String) : Except Exc String :=
  String.ofList <$> expandFrom env path.length path.toList

/-- `path or CONFIG_PATH`, expanded. -/
def configFile (env : ConfigEnv) (path : Value) : Except Exc String := do
  let chosen ←
    match path with
    | .str s => .ok (if s = "" then env.configPath else s)
    | value => if value.truthy then .error (.typeError "expected str, bytes or os.PathLike object") else .ok env.configPath
  expandvars env (← expanduser env chosen)

/-! ## The parameters -/

def Yaml.scalar : Yaml → Option Scalar
  | .bool b => some (.bool b)
  | .int n => some (.integer n)
  | .float bits => some (.double bits)
  | .str s => some (.string s)
  | .dict _ | .other => none

/-- The loop over the items: values of other types are passed over. -/
def rosParams (env : ConfigEnv) : List (Key × Yaml) → Except Exc (List Parameter)
  | [] => .ok []
  | (k, v) :: rest =>
    match v.scalar with
    | some value => do
      let p ← env.parameter k value
      let others ← rosParams env rest
      return p :: others
    | none => rosParams env rest

/-- `[ros_params[i].name for i, r in enumerate(results) if not r.successful]` -/
def failedNames (params : List Parameter) (successful : List Bool) : Except Exc (List String) :=
  (successful.zipIdx.filter fun r => !r.1).mapM fun r =>
    match params[r.2]? with
    | some p => .ok p.name
    | none => .error (.other "IndexError: list index out of range")

def listRepr (env : ConfigEnv) (names : List String) : String := "[" ++ ", ".intercalate (names.map env.repr) ++ "]"

def setParametersService : String := "/rtabmap/set_parameters"

def setResult (env : ConfigEnv) (params : List Parameter) : SetReply → Except Exc Dict
  | .timeout => .ok (failure "set_parameters timed out")
  | .exception text =>
    -- an empty text is falsy, and there is no result either
    if text ≠ "" then .ok (failure text) else .error (.other "AttributeError: 'NoneType' object has no attribute 'results'")
  | .results successful => do
    let failed ← failedNames params successful
    if failed ≠ [] then
      return failure s!"Failed: {listRepr env failed}" ++ [("loaded", .number (params.length - failed.length))]
    else
      return [("ok", .bool true), ("message", .text s!"Applied {params.length} parameters")]

def callSetParams (env : ConfigEnv) (params : Yaml) : Except Exc Dict :=
  if env.available = false then .ok (failure s!"{setParametersService} not available")
  else
    match params with
    | .dict items => do
      let params ← rosParams env items
      if params = [] then return failure "No settable parameters found"
      else
        let reply ← env.callAsync params
        setResult env params reply
    | _ => .error (.other "AttributeError: object has no attribute 'items'")

/-- `raw["rtabmap"]["ros__parameters"]` where there is such an entry, else `raw`. -/
def selected (items : List (Key × Yaml)) : Yaml :=
  match items.lookup (.str "rtabmap") with
  | some (.dict inner) => (inner.lookup (.str "ros__parameters")).getD (.dict items)
  | _ => .dict items

def actionConfig (env : ConfigEnv) (path : Value) : Except Exc Dict := do
  let cfg ← configFile env path
  if env.isFile cfg = false then return failure s!"File not found: {cfg}"
  else
    match env.safeLoad cfg with
    | .error text => return failure s!"YAML error: {text}"
    | .ok (.dict items) =>
      let result ← callSetParams env (selected items)
      return if result.lookup "ok" = some (.bool true) then result ++ [("path", .text cfg)] else result
    | .ok _ => .error (.other "AttributeError: object has no attribute 'get'")

/-! ## When it answers -/

/-- What the handler makes its status of: `ok`, and a message where it is false. -/
def Stated (dict : Dict) : Prop :=
  dict.lookup "ok" = some (.bool true) ∨
    (dict.lookup "ok" = some (.bool false) ∧ ∃ message, dict.lookup "message" = some (.text message))

/-- The setters accept every item that is not passed over. -/
def Accepted (env : ConfigEnv) (items : List (Key × Yaml)) : Prop :=
  ∀ item ∈ items, ∀ value, item.2.scalar = some value → ∃ p, env.parameter item.1 value = .ok p

/-- A reply with a text where it has failed, and with no failure behind the last parameter. -/
def ReplyNamed (params : List Parameter) : SetReply → Prop
  | .timeout => True
  | .exception text => text ≠ ""
  | .results successful => ∀ i, successful[i]? = some false → i < params.length

def ParamsServed (env : ConfigEnv) : Yaml → Prop
  | .dict items => Accepted env items ∧ ∀ params, rosParams env items = .ok params → params ≠ [] →
      ∃ reply, env.callAsync params = .ok reply ∧ ReplyNamed params reply
  | _ => False

/-- The path can be expanded; what it names is no file, no YAML, or a mapping, of which the selected part is
sent if the service is there. -/
def ConfigServed (env : ConfigEnv) (path : Value) : Prop :=
  ∃ cfg, configFile env path = .ok cfg ∧ (env.isFile cfg = true → ∀ raw, env.safeLoad cfg = .ok raw →
    ∃ items, raw = .dict items ∧ (env.available = true → ParamsServed env (selected items)))

section Served

variable {env : ConfigEnv}

theorem rosParams_ok_iff (items : List (Key × Yaml)) :
    (∃ params, rosParams env items = .ok params) ↔ Accepted env items := by
  induction items with
  | nil => exact ⟨fun _ => nofun, fun _ => ⟨[], rfl⟩⟩
  | cons item items ih =>
    obtain ⟨k, v⟩ := item
    rw [Accepted, List.forall_mem_cons, ← Accepted, ← ih, rosParams]
    cases v.scalar with
    | none => simp
    | some value =>
      rw [bind_ok_iff]
      constructor
      · rintro ⟨p, hHead, hRest⟩
        obtain ⟨others, hTail, -⟩ := bind_ok_iff.mp hRest
        refine ⟨?_, others, hTail⟩
        rintro _ ⟨⟩
        exact ⟨p, hHead⟩
      · rintro ⟨hHead, others, hTail⟩
        obtain ⟨p, hParameter⟩ := hHead value rfl
        exact ⟨p, hParameter, bind_ok_iff.mpr ⟨others, hTail, p :: others, rfl⟩⟩

theorem failedNames_ok_iff (params : List Parameter) (successful : List Bool) :
    (∃ failed, failedNames params successful = .ok failed) ↔ ∀ i, successful[i]? = some false → i < params.length := by
  rw [failedNames, mapM_ok_iff]
  constructor
  · intro h i hFailed
    obtain ⟨name, hName⟩ := h (false, i) (List.mem_filter.mpr ⟨List.mk_mem_zipIdx_iff_getElem?.mpr hFailed, rfl⟩)
    refine Nat.lt_of_not_le fun hEnd => ?_
    simp only [List.getElem?_eq_none hEnd] at hName
    cases hName
  · rintro h ⟨set, i⟩ hMem
    obtain ⟨hPair, hFailed⟩ := List.mem_filter.mp hMem
    obtain rfl : set = false := by simpa using hFailed
    have hLt : i < params.length := h i (List.mk_mem_zipIdx_iff_getElem?.mp hPair)
    exact ⟨params[i].name, by simp only [List.getElem?_eq_getElem hLt]⟩

theorem setResult_ok_iff (params : List Parameter) (reply : SetReply) :
    (∃ dict, setResult env params reply = .ok dict) ↔ ReplyNamed params reply := by
  cases reply with
  | timeout => exact ⟨fun _ => trivial, fun _ => ⟨_, rfl⟩⟩
  | exception text =>
    rw [setResult, ReplyNamed]
    split
    · rename_i hText
      exact ⟨fun _ => hText, fun _ => ⟨_, rfl⟩⟩
    · rename_i hText
      exact ⟨nofun, fun h => absurd h hText⟩
  | results successful =>
    rw [setResult, bind_ok_iff, ReplyNamed, ← failedNames_ok_iff]
    constructor
    · exact fun ⟨failed, hFailed, _⟩ => ⟨failed, hFailed⟩
    · rintro ⟨failed, hFailed⟩
      refine ⟨failed, hFailed, ?_⟩
      split <;> exact ⟨_, rfl⟩

theorem callSetParams_ok_iff (params : Yaml) :
    (∃ dict, callSetParams env params = .ok dict) ↔ (env.available = true → ParamsServed env params) := by
  unfold callSetParams
  cases hAvailable : env.available with
  | false => exact ⟨fun _ => nofun, fun _ => ⟨_, rfl⟩⟩
  | true =>
    simp only [Bool.true_eq_false, if_false, true_imp_iff]
    cases params with
    | bool _ | int _ | float _ | str _ | other => exact ⟨nofun, False.elim⟩
    | dict items =>
      rw [bind_ok_iff, ParamsServed, ← rosParams_ok_iff]
      constructor
      · rintro ⟨params, hParams, hSent⟩
        refine ⟨⟨params, hParams⟩, ?_⟩
        intro params' hParams' hSome
        obtain rfl := Except.ok.inj (hParams.symm.trans hParams')
        rw [if_neg hSome] at hSent
        obtain ⟨reply, hReply, hResult⟩ := bind_ok_iff.mp hSent
        exact ⟨reply, hReply, (setResult_ok_iff params reply).mp hResult⟩
      · rintro ⟨⟨params, hParams⟩, hReplies⟩
        refine ⟨params, hParams, ?_⟩
        split
        · exact ⟨_, rfl⟩
        · rename_i hSome
          obtain ⟨reply, hReply, hNamed⟩ := hReplies params hParams hSome
          exact bind_ok_iff.mpr ⟨reply, hReply, (setResult_ok_iff params reply).mpr hNamed⟩

theorem actionConfig_ok_iff (path : Value) :
    (∃ dict, actionConfig env path = .ok dict) ↔ ConfigServed env path := by
  rw [actionConfig, bind_ok_iff, ConfigServed]
  apply exists_congr
  intro cfg
  apply and_congr_right
  intro _
  cases hFile : env.isFile cfg with
  | false => exact ⟨fun _ => nofun, fun _ => ⟨_, rfl⟩⟩
  | true =>
    simp only [Bool.true_eq_false, if_false, true_imp_iff]
    cases hYaml : env.safeLoad cfg with
    | error text => exact ⟨fun _ => nofun, fun _ => ⟨_, rfl⟩⟩
    | ok raw =>
      simp only [Except.ok.injEq, forall_eq']
      cases raw with
      | bool _ | int _ | float _ | str _ | other => exact ⟨nofun, fun ⟨_, hDict, _⟩ => nomatch hDict⟩
      | dict items =>
        simp only [Yaml.dict.injEq, exists_eq_left']
        rw [← callSetParams_ok_iff, bind_ok_iff]
        constructor
        · exact fun ⟨result, hResult, _⟩ => ⟨result, hResult⟩
        · exact fun ⟨result, hResult⟩ => ⟨result, hResult, _, rfl⟩

theorem failure_stated (message : String) : Stated (failure message) := .inr ⟨rfl, message, rfl⟩

theorem Stated.append {dict : Dict} (h : Stated dict) (more : Dict) : Stated (dict ++ more) := by
  rcases h with hOk | ⟨hOk, message, hMessage⟩
  · exact .inl (by rw [List.lookup_append, hOk, Option.some_or])
  · exact .inr ⟨by rw [List.lookup_append, hOk, Option.some_or], message,
      by rw [List.lookup_append, hMessage, Option.some_or]⟩

theorem setResult_stated {params : List Parameter} {reply : SetReply} {dict : Dict}
    (h : setResult env params reply = .ok dict) : Stated dict := by
  cases reply with
  | timeout =>
    cases h
    exact failure_stated _
  | exception text =>
    rw [setResult] at h
    split at h
    · cases h
      exact failure_stated _
    · cases h
  | results successful =>
    obtain ⟨failed, -, hResult⟩ := bind_ok h
    split at hResult
    · cases hResult
      exact (failure_stated _).append _
    · cases hResult
      exact .inl rfl

theorem callSetParams_stated {params : Yaml} {dict : Dict} (h : callSetParams env params = .ok dict) : Stated dict := by
  unfold callSetParams at h
  split at h
  · cases h
    exact failure_stated _
  · split at h
    · obtain ⟨params, -, hSent⟩ := bind_ok h
      split at hSent
      · cases hSent
        exact failure_stated _
      · obtain ⟨reply, -, hResult⟩ := bind_ok hSent
        exact setResult_stated hResult
    · cases h

theorem actionConfig_stated {path : Value} {dict : Dict} (h : actionConfig env path = .ok dict) : Stated dict := by
  obtain ⟨cfg, -, hRest⟩ := bind_ok h
  split at hRest
  · cases hRest
    exact failure_stated _
  · split at hRest
    · cases hRest
      exact failure_stated _
    · obtain ⟨result, hResult, hDict⟩ := bind_ok hRest
      have hStated := callSetParams_stated hResult
      obtain rfl := Except.ok.inj hDict
      split
      · exact hStated.append _
      · exact hStated
    · cases hRest

end Served

end RoveMapping.MappingApi
