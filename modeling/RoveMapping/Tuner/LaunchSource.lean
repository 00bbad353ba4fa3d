import Mathlib.Data.List.Dedup
import RoveMapping.Library.PythonLiteral
import RoveMapping.Tuner.Template

/-! # The text of the launch template

The lines of the template as one text, and what `string.Template` and the placeholder regex make of it.
-/
namespace RoveMapping.Tuner.Template
open PythonLiteral
set_option autoImplicit false

def opening (name : String) : List Char :=
  List.replicate 8 ' ' ++ '\'' :: name.toList ++ ['\'', ':', ' ', '\'']

def Line.source : Line → List Char
  | .code text => text.toList ++ ['\n']
  | .entry name key => opening name ++ '$' :: '\x7b' :: key.toList ++ '\x7d' :: '\'' :: ',' :: ['\n']

def Line.key? : Line → Option String
  | .code _ => none
  | .entry _ key => some key

def sourceText (lines : List Line) : List Char := lines.flatMap Line.source

def launchText : List Char := sourceText launchTemplate

def keys (lines : List Line) : List String := lines.filterMap Line.key?

def Line.filled (value : String → String) : Line → List Char
  | .code text => text.toList ++ ['\n']
  | .entry name key => opening name ++ (value key).toList ++ '\'' :: ',' :: ['\n']

def filledText (value : String → String) (lines : List Line) : List Char := lines.flatMap (Line.filled value)

def recordedValue (merged : List (String × String)) (key : String) : String := (merged.lookup key).getD ""

section Substituting

variable {merged : List (String × String)}

theorem substitute_append {front : List Char} (h : '$' ∉ front) (rest : List Char) :
    substitute merged (front ++ rest) = (substitute merged rest).map (front ++ ·) := by
  induction front with
  | nil =>
    rw [List.nil_append]
    cases substitute merged rest <;> rfl
  | cons c front ih =>
    obtain ⟨hc, hFront⟩ := not_or.mp (List.mem_cons.not.mp h)
    rw [List.cons_append, substitute, if_neg (Ne.symm hc), ih hFront]
    cases substitute merged rest <;> rfl

theorem placeholders_append {front : List Char} (h : '$' ∉ front) (rest : List Char) :
    placeholders (front ++ rest) = placeholders rest := by
  induction front with
  | nil => rfl
  | cons c front ih =>
    obtain ⟨hc, hFront⟩ := not_or.mp (List.mem_cons.not.mp h)
    rw [List.cons_append, placeholders, if_neg (Ne.symm hc), ih hFront]

/-- Names that stand between braces as they are. -/
def IsName (key : String) : Prop := ∃ c rest, key.toList = c :: rest ∧ identStart c = true ∧ rest.all identChar = true

theorem braced_name {key : String} (hKey : IsName key) (rest : List Char) :
    braced ('\x7b' :: (key.toList ++ '\x7d' :: rest)) = some (key.toList, rest) := by
  obtain ⟨c, more, hChars, hStart, hMore⟩ := hKey
  have hAll : ∀ d ∈ more, identChar d = true := List.all_eq_true.mp hMore
  have hBrace : identChar '\x7d' = false := by decide
  simp [braced, identifier, hChars, hStart, List.takeWhile_append_of_pos hAll, List.dropWhile_append_of_pos hAll, hBrace]

theorem placeholders_name {key : String} (hKey : IsName key) (rest : List Char) :
    placeholders ('$' :: '\x7b' :: (key.toList ++ '\x7d' :: rest)) = key :: placeholders rest := by
  rw [placeholders, if_pos rfl]
  split
  · rename_i name after h
    rw [braced_name hKey] at h
    cases h
    rw [String.ofList_toList]
  · rename_i h
    rw [braced_name hKey] at h
    cases h

theorem dollar_name {key : String} (hKey : IsName key) (rest : List Char) :
    dollar ('\x7b' :: (key.toList ++ '\x7d' :: rest)) = some (some key.toList, rest) := by
  have hIdent : identifier ('\x7b' :: (key.toList ++ '\x7d' :: rest)) = none := by
    rw [identifier, if_neg (by decide)]
  simp [dollar, hIdent, braced_name hKey]

theorem substitute_name {key value : String} (hKey : IsName key) (hValue : merged.lookup key = some value) (rest : List Char) :
    substitute merged ('$' :: '\x7b' :: (key.toList ++ '\x7d' :: rest)) =
      (substitute merged rest).map (value.toList ++ ·) := by
  rw [substitute, if_pos rfl]
  split
  · rename_i h
    rw [dollar_name hKey] at h
    cases h
  · rename_i h
    rw [dollar_name hKey] at h
    cases h
  · rename_i name after h
    rw [dollar_name hKey] at h
    cases h
    rw [String.ofList_toList, hValue]

theorem dollar_not_mem_opening {name : String} (h : '$' ∉ name.toList) : '$' ∉ opening name := by
  simp [opening, h]

/-- Lines that `string.Template` and the placeholder regex read as the template means them. -/
def Line.Clean : Line → Prop
  | .code text => '$' ∉ text.toList
  | .entry name key => '$' ∉ name.toList ∧ IsName key

variable {lines : List Line}

theorem source_entry (name key : String) (rest : List Char) : (Line.entry name key).source ++ rest =
    opening name ++ '$' :: '\x7b' :: (key.toList ++ '\x7d' :: (['\'', ',', '\n'] ++ rest)) := by
  simp [Line.source]

theorem placeholders_sourceText (hClean : ∀ line ∈ lines, line.Clean) : placeholders (sourceText lines) = keys lines := by
  induction lines with
  | nil => simp [sourceText, keys, placeholders]
  | cons line rest ih =>
    obtain ⟨hLine, hRest⟩ := List.forall_mem_cons.mp hClean
    have hText : sourceText (line :: rest) = line.source ++ sourceText rest := rfl
    cases line with
    | code text =>
      have hFront : '$' ∉ text.toList ++ ['\n'] := by simpa [Line.Clean] using hLine
      rw [hText, Line.source, placeholders_append hFront, ih hRest]
      rfl
    | entry name key =>
      have hClose : '$' ∉ ['\'', ',', '\n'] := by decide
      rw [hText, source_entry, placeholders_append (dollar_not_mem_opening hLine.1), placeholders_name hLine.2,
        placeholders_append hClose, ih hRest]
      rfl

theorem substitute_sourceText (hClean : ∀ line ∈ lines, line.Clean)
    (hMerged : ∀ key ∈ keys lines, (merged.lookup key).isSome) :
    substitute merged (sourceText lines) = .ok (filledText (recordedValue merged) lines) := by
  induction lines with
  | nil => simp [sourceText, filledText, substitute]
  | cons line rest ih =>
    obtain ⟨hLine, hRest⟩ := List.forall_mem_cons.mp hClean
    have hText : sourceText (line :: rest) = line.source ++ sourceText rest := rfl
    cases line with
    | code text =>
      have hFront : '$' ∉ text.toList ++ ['\n'] := by simpa [Line.Clean] using hLine
      rw [hText, Line.source, substitute_append hFront, ih hRest hMerged]
      rfl
    | entry name key =>
      have hClose : '$' ∉ ['\'', ',', '\n'] := by decide
      obtain ⟨hKey, hKeys⟩ := List.forall_mem_cons.mp (show ∀ k ∈ key :: keys rest, _ from hMerged)
      obtain ⟨value, hValue⟩ := Option.isSome_iff_exists.mp hKey
      rw [hText, source_entry, substitute_append (dollar_not_mem_opening hLine.1), substitute_name hLine.2 hValue,
        substitute_append hClose, ih hRest hKeys]
      simp [filledText, Line.filled, recordedValue, hValue, Except.map]

end Substituting

section Checked

/-! The facts below go through the characters of the literals one line at a time. -/

theorem clean_code (chars : List Char) (h : chars.all (· != '$') = true) : (Line.code (String.ofList chars)).Clean := by
  intro hMem
  rw [String.toList_ofList] at hMem
  exact absurd rfl (bne_iff_ne.mp (List.all_eq_true.mp h _ hMem))

theorem clean_entry (name key : List Char) (hName : name.all (· != '$') = true)
    (hKey : (key.head?.any identStart && key.tail.all identChar) = true) :
    (Line.entry (String.ofList name) (String.ofList key)).Clean := by
  refine ⟨clean_code name hName, ?_⟩
  cases key with
  | nil => cases hKey
  | cons c rest =>
    obtain ⟨hStart, hRest⟩ := Bool.and_eq_true_iff.mp hKey
    exact ⟨c, rest, String.toList_ofList, hStart, hRest⟩

theorem launchTemplate_clean : ∀ line ∈ launchTemplate, line.Clean := by
  simp only [launchTemplate, List.forall_mem_append]
  refine ⟨⟨⟨⟨⟨⟨?_, ?_⟩, ?_⟩, ?_⟩, ?_⟩, ?_⟩, ?_⟩
  all_goals
    first
      | unfold setupLines | unfold sharedLines | unfold odometryLines | unfold slamLines | unfold remappingLines
      | unfold nodeLines | unfold declarationLines
    repeat' first
      | exact List.forall_mem_nil _
      | refine List.forall_mem_cons.mpr ⟨?_, ?_⟩
      | exact clean_code _ (by decide)
      | exact clean_entry _ _ (by decide) (by decide)

theorem placeholders_launchText : placeholders launchText = keys launchTemplate :=
  placeholders_sourceText launchTemplate_clean

theorem inert_ofList (chars : List Char) (h : inert chars = true) : inert (String.ofList chars).toList = true := by
  rwa [String.toList_ofList]

theorem defaults_inert : ∀ entry ∈ defaults, inert entry.2.toList = true := by
  unfold defaults
  repeat' first
    | exact List.forall_mem_nil _
    | refine List.forall_mem_cons.mpr ⟨?_, ?_⟩
    | exact inert_ofList _ (by decide)

theorem keys_default : ∀ key ∈ keys launchTemplate, (defaults.lookup key).isSome := by decide

end Checked

end RoveMapping.Tuner.Template
