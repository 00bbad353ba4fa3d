import RoveMapping.Library.Fallible
import RoveMapping.Tuner.LaunchSource

/-! # The rendered launch file against the recorded parameters

Values are pasted between single quotes as they are. The rendered file is read back line by line:
code must be that of the template, and the literal of each entry is read by Python's rules for
single-quoted strings.
-/
namespace RoveMapping.Tuner.Template
open PythonLiteral Fallible
set_option autoImplicit false

def strip (front text : List Char) : Option (List Char) :=
  if front.isPrefixOf text then some (text.drop front.length) else none

/-- What the entries of a rendered file evaluate to, if all else is as in the template. -/
def readLaunch (named : List Char → Option ℕ) : List Line → List Char → Option (List (String × List ℕ))
  | [], text => if text = [] then some [] else none
  | .code code :: rest, text => do
    let after ← strip (code.toList ++ ['\n']) text
    readLaunch named rest after
  | .entry name _ :: rest, text => do
    let literal ← strip (opening name) text
    let (points, after) ← readLiteral named literal
    let next ← strip [',', '\n'] after
    let others ← readLaunch named rest next
    return (name, points) :: others

def recorded (value : String → String) : List Line → List (String × List ℕ)
  | [] => []
  | .code _ :: rest => recorded value rest
  | .entry name key :: rest => (name, codePoints (value key).toList) :: recorded value rest

/-- The launch file evaluates to the recorded parameters, and nothing else of it has changed. -/
def LaunchesRecorded (named : List Char → Option ℕ) (merged : List (String × String)) (rendered : List Char) : Prop :=
  readLaunch named launchTemplate rendered = some (recorded (recordedValue merged) launchTemplate)

/-- For every table of character names and every `ast.parse`. -/
def LaunchedIsRecorded : Prop := ∀ named parses overrides merged rendered,
  effectiveParams overrides launchText = .ok merged →
    render parses overrides launchText = .ok rendered → LaunchesRecorded named merged rendered

section Reading

variable {named : List Char → Option ℕ}

@[simp] theorem strip_append (front text : List Char) : strip front (front ++ text) = some text := by
  simp [strip]

theorem readLaunch_code (text : String) (lines : List Line) (after : List Char) :
    readLaunch named (.code text :: lines) ((text.toList ++ ['\n']) ++ after) = readLaunch named lines after := by
  simp only [readLaunch, strip_append, Option.bind_eq_bind, Option.bind_some]

theorem readLaunch_entry (name key : String) (lines : List Line) (literal : List Char) :
    readLaunch named (.entry name key :: lines) (opening name ++ literal) =
      (readLiteral named literal).bind fun (points, after) =>
        (strip [',', '\n'] after).bind fun next => (readLaunch named lines next).map ((name, points) :: ·) := by
  simp only [readLaunch, strip_append, Option.bind_eq_bind, Option.bind_some, Option.map_eq_bind]
  rfl

/-- A file with the values pasted in reads back as recorded exactly when every value is inert. -/
theorem readLaunch_filled_iff (value : String → String) (lines : List Line) :
    readLaunch named lines (filledText value lines) = some (recorded value lines) ↔
      ∀ key ∈ keys lines, inert (value key).toList = true := by
  induction lines with
  | nil => simp [readLaunch, filledText, recorded, keys]
  | cons line rest ih =>
    cases line with
    | code text =>
      have hText : filledText value (.code text :: rest) = (text.toList ++ ['\n']) ++ filledText value rest := rfl
      rw [hText, readLaunch_code]
      exact ih
    | entry name key =>
      have hText : filledText value (.entry name key :: rest) =
          opening name ++ ((value key).toList ++ '\'' :: ([',', '\n'] ++ filledText value rest)) := by
        simp [filledText, Line.filled]
      have hTail : literalBody ([',', '\n'] ++ filledText value rest) = none := by
        simp [literalBody, lineEnd]
      have hKeys : (∀ k ∈ keys (.entry name key :: rest), inert (value k).toList = true) ↔
          inert (value key).toList = true ∧ ∀ k ∈ keys rest, inert (value k).toList = true := by
        simp [keys, Line.key?]
      have hInert : inert (value key).toList = true →
          readLaunch named (.entry name key :: rest) (filledText value (.entry name key :: rest)) =
            (readLaunch named rest (filledText value rest)).map ((name, codePoints (value key).toList) :: ·) := by
        intro h
        rw [hText, readLaunch_entry, readLiteral_inert h, Option.bind_some]
        dsimp only
        rw [strip_append, Option.bind_some]
      rw [hKeys, ← ih]
      constructor
      · intro h
        have hValue : inert (value key).toList = true := by
          rw [hText, readLaunch_entry] at h
          obtain ⟨⟨points, after⟩, hRead, h⟩ := Option.bind_eq_some_iff.mp h
          obtain ⟨next, _, h⟩ := Option.bind_eq_some_iff.mp h
          obtain ⟨others, _, hEq⟩ := Option.map_eq_some_iff.mp h
          cases hEq
          exact inert_of_readLiteral hTail hRead
        rw [hInert hValue] at h
        obtain ⟨others, hOthers, hEq⟩ := Option.map_eq_some_iff.mp h
        cases hEq
        exact ⟨hValue, hOthers⟩
      · rintro ⟨hValue, hRest⟩
        rw [hInert hValue, hRest]
        rfl

end Reading

section Rendering

variable {overrides : List (String × Override)} {merged : List (String × String)} {template : List Char}

theorem mem_of_lookup {α : Type} {table : List (String × α)} {key : String} {value : α}
    (h : table.lookup key = some value) : (key, value) ∈ table := by
  obtain ⟨before, after, hTable, _⟩ := List.lookup_eq_some_iff.mp h
  rw [hTable]
  exact List.mem_append_right _ List.mem_cons_self

theorem lookup_of_mapM {f : String → Except Exc String} {found : List String}
    (h : found.mapM (fun key => (f key).map fun value => (key, value)) = .ok merged) :
    ∀ key ∈ found, ∃ value, f key = .ok value ∧ merged.lookup key = some value := by
  induction found generalizing merged with
  | nil => simp
  | cons key rest ih =>
    rw [List.mapM_cons] at h
    obtain ⟨pair, hPair, h⟩ := bind_ok h
    obtain ⟨others, hOthers, h⟩ := bind_ok h
    cases h
    cases hKey : f key with
    | error exc => rw [hKey] at hPair; cases hPair
    | ok value =>
      rw [hKey] at hPair
      cases hPair
      intro other hOther
      by_cases hEq : other = key
      · subst hEq
        exact ⟨value, hKey, by simp⟩
      · obtain ⟨value', hValue', hLookup⟩ := ih hOthers other ((List.mem_cons.mp hOther).resolve_left hEq)
        have hOther : (other == key) = false := beq_eq_false_iff_ne.mpr hEq
        exact ⟨value', hValue', by rw [List.lookup_cons, hOther]; exact hLookup⟩

theorem effectiveParams_ok (h : effectiveParams overrides template = .ok merged) :
    (∀ entry ∈ overrides, entry.1 ∈ placeholders template) ∧
      ∀ key ∈ placeholders template, ∃ value, paramValue overrides key = .ok value ∧ merged.lookup key = some value := by
  unfold effectiveParams at h
  dsimp only at h
  split at h
  · cases h
  · rename_i hKnown
    constructor
    · intro entry hEntry
      by_contra hMissing
      have hUnknown : entry.1 ∈ (overrides.map (·.1)).filter fun key => key ∉ (placeholders template).dedup :=
        List.mem_filter.mpr ⟨List.mem_map_of_mem hEntry, by simpa using hMissing⟩
      exact hKnown (List.ne_nil_of_mem hUnknown)
    · intro key hKey
      exact lookup_of_mapM h key (List.mem_dedup.mpr hKey)

theorem effectiveParams_of_known (hKnown : ∀ entry ∈ overrides, entry.1 ∈ placeholders template)
    (hDefault : ∀ key ∈ placeholders template, (defaults.lookup key).isSome) :
    ∃ merged, effectiveParams overrides template = .ok merged := by
  have hNone : ¬ (overrides.map (·.1)).filter (fun key => key ∉ (placeholders template).dedup) ≠ [] := by
    rw [not_not, List.filter_eq_nil_iff]
    intro key hKey
    obtain ⟨entry, hEntry, rfl⟩ := List.mem_map.mp hKey
    simpa using hKnown entry hEntry
  unfold effectiveParams
  dsimp only
  rw [if_neg hNone]
  apply mapM_ok_iff.mpr
  intro key hKey
  obtain ⟨value, hValue⟩ := Option.isSome_iff_exists.mp (hDefault key (List.mem_dedup.mp hKey))
  unfold paramValue
  cases overrides.lookup key with
  | some override => exact ⟨(key, coerce override), rfl⟩
  | none => exact ⟨(key, value), by rw [hValue]; rfl⟩

theorem render_ok_iff {parses : List Char → Bool} {rendered : List Char}
    (hMerged : effectiveParams overrides template = .ok merged) :
    render parses overrides template = .ok rendered ↔ substitute merged template = .ok rendered ∧ parses rendered := by
  rw [render, hMerged]
  change ((substitute merged template >>= _) = _) ↔ _
  cases substitute merged template with
  | error exc =>
    constructor
    · intro h
      cases h
    · rintro ⟨h, _⟩
      cases h
  | ok text =>
    change (if parses text then Except.ok text else Except.error Exc.notPython) = _ ↔ _
    split
    · rename_i hParses
      constructor
      · intro h
        cases h
        exact ⟨rfl, hParses⟩
      · exact And.left
    · rename_i hParses
      constructor
      · intro h
        cases h
      · rintro ⟨h, hParses'⟩
        cases h
        exact absurd hParses' hParses

theorem substitute_launchTemplate (h : effectiveParams overrides launchText = .ok merged) :
    substitute merged launchText = .ok (filledText (recordedValue merged) launchTemplate) := by
  unfold launchText
  apply substitute_sourceText launchTemplate_clean
  intro key hKey
  rw [← placeholders_launchText] at hKey
  obtain ⟨value, _, hLookup⟩ := (effectiveParams_ok h).2 key hKey
  exact Option.isSome_of_eq_some hLookup

theorem rendered_eq {parses : List Char → Bool} {rendered : List Char}
    (hMerged : effectiveParams overrides launchText = .ok merged)
    (hRender : render parses overrides launchText = .ok rendered) :
    rendered = filledText (recordedValue merged) launchTemplate := by
  have hText := ((render_ok_iff hMerged).mp hRender).1
  rw [substitute_launchTemplate hMerged] at hText
  exact (Except.ok.inj hText).symm

theorem render_of_known (hKnown : ∀ entry ∈ overrides, entry.1 ∈ keys launchTemplate) :
    ∃ merged rendered, effectiveParams overrides launchText = .ok merged ∧
      render (fun _ => true) overrides launchText = .ok rendered := by
  rw [← placeholders_launchText] at hKnown
  have hDefault := keys_default
  rw [← placeholders_launchText] at hDefault
  obtain ⟨merged, hMerged⟩ := effectiveParams_of_known hKnown hDefault
  exact ⟨merged, _, hMerged, (render_ok_iff hMerged).mpr ⟨substitute_launchTemplate hMerged, rfl⟩⟩

theorem recorded_inert_iff (hMerged : effectiveParams overrides launchText = .ok merged) :
    (∀ key ∈ keys launchTemplate, inert (recordedValue merged key).toList = true) ↔
      ∀ key value, overrides.lookup key = some value → inert (coerce value).toList = true := by
  obtain ⟨hKnown, hValues⟩ := effectiveParams_ok hMerged
  rw [placeholders_launchText] at hKnown hValues
  constructor
  · intro h key value hOverride
    have hKey : key ∈ keys launchTemplate := hKnown (key, value) (mem_of_lookup hOverride)
    obtain ⟨value', hValue, hLookup⟩ := hValues key hKey
    have hInert := h key hKey
    rw [paramValue, hOverride] at hValue
    cases hValue
    rwa [recordedValue, hLookup] at hInert
  · intro h key hKey
    obtain ⟨value, hValue, hLookup⟩ := hValues key hKey
    rw [recordedValue, hLookup, Option.getD_some]
    unfold paramValue at hValue
    split at hValue
    · rename_i override hOverride
      cases hValue
      exact h key override hOverride
    · split at hValue
      · rename_i default hDefault
        cases hValue
        exact defaults_inert (key, value) (mem_of_lookup hDefault)
      · cases hValue

/-- What is launched is what is recorded exactly when every override is inert. -/
theorem launches_recorded_iff_inert {named : List Char → Option ℕ} {parses : List Char → Bool} {rendered : List Char}
    (hMerged : effectiveParams overrides launchText = .ok merged)
    (hRender : render parses overrides launchText = .ok rendered) :
    LaunchesRecorded named merged rendered ↔
      ∀ key value, overrides.lookup key = some value → inert (coerce value).toList = true := by
  rw [← recorded_inert_iff hMerged, ← readLaunch_filled_iff, LaunchesRecorded, rendered_eq hMerged hRender]

theorem launches_recorded_iff_inert_number : ∃ merged rendered,
    effectiveParams [("icp_epsilon", .other "0.001")] launchText = .ok merged ∧
      render (fun _ => true) [("icp_epsilon", .other "0.001")] launchText = .ok rendered ∧
      LaunchesRecorded (fun _ => none) merged rendered := by
  have hKnown : ∀ entry ∈ [("icp_epsilon", Override.other "0.001")], entry.1 ∈ keys launchTemplate := by decide
  obtain ⟨merged, rendered, hMerged, hRender⟩ := render_of_known hKnown
  refine ⟨merged, rendered, hMerged, hRender, (launches_recorded_iff_inert hMerged hRender).mpr ?_⟩
  intro key value hValue
  obtain ⟨rfl, rfl⟩ := Prod.mk.inj (List.mem_singleton.mp (mem_of_lookup hValue))
  exact inert_ofList _ (by decide)

/-- `--set icp_strategy=\x31` is recorded as four characters and launched as the digit 1. -/
theorem launchedIsRecorded_hex_escape : ¬ LaunchedIsRecorded := by
  intro hClaim
  have hKnown : ∀ entry ∈ [("icp_strategy", Override.other "\\x31")], entry.1 ∈ keys launchTemplate := by decide
  obtain ⟨merged, rendered, hMerged, hRender⟩ := render_of_known hKnown
  have h := hClaim (fun _ => none) _ _ merged rendered hMerged hRender
  rw [LaunchesRecorded, rendered_eq hMerged hRender, readLaunch_filled_iff, recorded_inert_iff hMerged] at h
  exact absurd (h "icp_strategy" _ rfl) (by decide)

end Rendering

end RoveMapping.Tuner.Template
