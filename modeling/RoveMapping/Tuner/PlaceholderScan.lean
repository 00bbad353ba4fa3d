import RoveMapping.Tuner.RenderedLaunch

/-! # Two scanners of one template

The placeholder regex finds a name in braces after any dollar sign. `string.Template` takes dollar signs in pairs
first, so that it replaces only what follows an odd number of them, and it also replaces names without braces.
-/
namespace RoveMapping.Tuner.Template
set_option autoImplicit false

/-- The name that a placeholder starts with, bare or in braces, and the text after the placeholder. -/
def slot (text : List Char) : Option (List Char × List Char) := (identifier text).orElse fun _ => braced text

/-- What follows each run of an odd number of dollar signs; `odd` is the parity of the run in progress. -/
def oddRuns (odd : Bool) : List Char → List (List Char)
  | [] => if odd then [[]] else []
  | c :: rest =>
    if c = '$' then oddRuns (!odd) rest
    else if odd then (c :: rest) :: oddRuns false rest
    else oddRuns false rest

/-- The names of the placeholders that `string.Template` sees. -/
def slotNames (text : List Char) : List String :=
  (oddRuns false text).filterMap fun after => (slot after).map fun found => String.ofList found.1

/-! ## Names and braces hold no dollar sign -/

theorem dollar_not_ident : identChar '$' = false := by decide

theorem dollar_not_start : identStart '$' = false := by decide

theorem identifier_split {text name after : List Char} (h : identifier text = some (name, after)) :
    text = name ++ after ∧ '$' ∉ name := by
  cases text with
  | nil => cases h
  | cons c rest =>
    rw [identifier] at h
    split at h
    · rename_i hStart
      cases h
      constructor
      · rw [List.cons_append, List.takeWhile_append_dropWhile]
      · rw [List.mem_cons, not_or]
        constructor
        · rintro rfl
          rw [dollar_not_start] at hStart
          cases hStart
        · intro hMem
          have hIdent : identChar '$' = true := List.all_eq_true.mp List.all_takeWhile _ hMem
          rw [dollar_not_ident] at hIdent
          cases hIdent
    · cases h

theorem braced_split {text name after : List Char} (h : braced text = some (name, after)) :
    text = '\x7b' :: (name ++ '\x7d' :: after) ∧ '$' ∉ name := by
  unfold braced at h
  split at h
  · split at h
    · rename_i hIdent
      cases h
      obtain ⟨rfl, hName⟩ := identifier_split hIdent
      exact ⟨rfl, hName⟩
    · cases h
  · cases h

theorem slot_split {text name after : List Char} (h : slot text = some (name, after)) :
    ∃ lexeme, text = lexeme ++ after ∧ '$' ∉ lexeme := by
  rw [slot] at h
  cases hIdent : identifier text with
  | some found =>
    rw [hIdent] at h
    cases h
    obtain ⟨hText, hName⟩ := identifier_split hIdent
    exact ⟨name, hText, hName⟩
  | none =>
    rw [hIdent] at h
    obtain ⟨hText, hName⟩ := braced_split h
    refine ⟨'\x7b' :: (name ++ ['\x7d']), by simp [hText], ?_⟩
    simp [hName]

theorem braced_of_slot {text name after : List Char} (hIdent : identifier text = none) (h : slot text = some (name, after)) :
    braced text = some (name, after) := by
  rw [slot, hIdent] at h
  exact h

/-! ## The runs of dollar signs -/

theorem oddRuns_plain {c : Char} (hc : c ≠ '$') (rest : List Char) : oddRuns false (c :: rest) = oddRuns false rest := by
  rw [oddRuns, if_neg hc, if_neg Bool.false_ne_true]

theorem oddRuns_escape (after : List Char) : oddRuns false ('$' :: '$' :: after) = oddRuns false after := by
  simp [oddRuns]

theorem oddRuns_single {rest : List Char} (hHead : rest.head? ≠ some '$') :
    oddRuns false ('$' :: rest) = rest :: oddRuns false rest := by
  cases rest with
  | nil => rfl
  | cons c rest =>
    have hc : c ≠ '$' := by simpa using hHead
    rw [oddRuns_plain hc, oddRuns, if_pos rfl, oddRuns, if_neg hc]
    rfl

theorem oddRuns_append {front : List Char} (h : '$' ∉ front) (rest : List Char) :
    oddRuns false (front ++ rest) = oddRuns false rest := by
  induction front with
  | nil => rfl
  | cons c front ih =>
    obtain ⟨hc, hFront⟩ := not_or.mp (List.mem_cons.not.mp h)
    rw [List.cons_append, oddRuns_plain (Ne.symm hc), ih hFront]

theorem oddRuns_slot {rest name after : List Char} (hHead : rest.head? ≠ some '$') (hSlot : slot rest = some (name, after)) :
    oddRuns false ('$' :: rest) = rest :: oddRuns false after := by
  obtain ⟨lexeme, hRest, hLexeme⟩ := slot_split hSlot
  have hSkip : oddRuns false rest = oddRuns false after := by rw [hRest, oddRuns_append hLexeme]
  rw [oddRuns_single hHead, hSkip]

theorem dollar_of_head {rest : List Char} (hHead : rest.head? ≠ some '$') :
    dollar rest = (slot rest).map fun found => (some found.1, found.2) := by
  unfold dollar
  split
  · exact absurd rfl hHead
  · rfl

/-- A text as `string.Template` goes through it. -/
theorem scan_induction {P : List Char → Prop} (nil : P []) (plain : ∀ c rest, c ≠ '$' → P rest → P (c :: rest))
    (escape : ∀ after, P after → P ('$' :: '$' :: after))
    (placeholder : ∀ rest name after, rest.head? ≠ some '$' → slot rest = some (name, after) → P after → P ('$' :: rest))
    (stray : ∀ rest, rest.head? ≠ some '$' → slot rest = none → P rest → P ('$' :: rest)) (text : List Char) : P text := by
  induction hLength : text.length using Nat.strong_induction_on generalizing text with
  | h size ih =>
    subst hLength
    cases text with
    | nil => exact nil
    | cons c rest =>
      by_cases hc : c = '$'
      · subst hc
        by_cases hHead : rest.head? = some '$'
        · obtain ⟨after, rfl⟩ : ∃ after, rest = '$' :: after := by
            cases rest with
            | nil => cases hHead
            | cons d after =>
              cases hHead
              exact ⟨after, rfl⟩
          exact escape after (ih after.length (by simp only [List.length_cons]; omega) after rfl)
        · cases hSlot : slot rest with
          | none => exact stray rest hHead hSlot (ih rest.length (Nat.lt_succ_self _) rest rfl)
          | some found =>
            have hDollar := dollar_of_head hHead
            rw [hSlot, Option.map_some] at hDollar
            have hShorter : found.2.length < rest.length := dollar_shorter hDollar
            exact placeholder rest found.1 found.2 hHead hSlot
              (ih found.2.length (hShorter.trans (Nat.lt_succ_self _)) found.2 rfl)
      · exact plain c rest hc (ih rest.length (Nat.lt_succ_self _) rest rfl)

/-! ## `string.Template` in each case -/

section Substitute

variable (merged : List (String × String))

theorem substitute_plain {c : Char} (hc : c ≠ '$') (rest : List Char) :
    substitute merged (c :: rest) = (substitute merged rest).map (c :: ·) := by
  rw [substitute, if_neg hc]

theorem substitute_escape (after : List Char) :
    substitute merged ('$' :: '$' :: after) = (substitute merged after).map ('$' :: ·) := by
  have hDollar : dollar ('$' :: after) = some (none, after) := rfl
  rw [substitute, if_pos rfl]
  split
  · rename_i h
    rw [hDollar] at h
    cases h
  · rename_i h
    rw [hDollar] at h
    cases h
    rfl
  · rename_i h
    rw [hDollar] at h
    cases h

theorem substitute_slot {rest name after : List Char} (hHead : rest.head? ≠ some '$') (hSlot : slot rest = some (name, after)) :
    substitute merged ('$' :: rest) =
      match merged.lookup (String.ofList name) with
      | some value => (substitute merged after).map (value.toList ++ ·)
      | none => .error (.keyError (String.ofList name)) := by
  have hDollar := dollar_of_head hHead
  rw [hSlot, Option.map_some] at hDollar
  rw [substitute, if_pos rfl]
  split
  · rename_i h
    rw [hDollar] at h
    cases h
  · rename_i h
    rw [hDollar] at h
    cases h
  · rename_i h
    rw [hDollar] at h
    cases h
    cases merged.lookup (String.ofList name) <;> rfl

theorem substitute_stray {rest : List Char} (hHead : rest.head? ≠ some '$') (hSlot : slot rest = none) :
    substitute merged ('$' :: rest) = .error .invalidPlaceholder := by
  have hDollar := dollar_of_head hHead
  rw [hSlot, Option.map_none] at hDollar
  rw [substitute, if_pos rfl]
  split
  · rfl
  · rename_i h
    rw [hDollar] at h
    cases h
  · rename_i h
    rw [hDollar] at h
    cases h

end Substitute

/-! ## What substituting needs -/

theorem slotNames_cons {rest name after : List Char} (hHead : rest.head? ≠ some '$') (hSlot : slot rest = some (name, after)) :
    slotNames ('$' :: rest) = String.ofList name :: slotNames after := by
  rw [slotNames, oddRuns_slot hHead hSlot, List.filterMap_cons, hSlot]
  rfl

theorem slotNames_plain {c : Char} (hc : c ≠ '$') (rest : List Char) : slotNames (c :: rest) = slotNames rest := by
  rw [slotNames, oddRuns_plain hc, slotNames]

theorem slotNames_escape (after : List Char) : slotNames ('$' :: '$' :: after) = slotNames after := by
  rw [slotNames, oddRuns_escape, slotNames]

theorem mem_slotNames {name : String} {text : List Char} :
    name ∈ slotNames text ↔ ∃ after ∈ oddRuns false text, ∃ found, slot after = some found ∧ String.ofList found.1 = name := by
  simp [slotNames, List.mem_filterMap]

theorem exists_map_ok {ε α β : Type} (x : Except ε α) (f : α → β) : (∃ b, x.map f = .ok b) ↔ ∃ a, x = .ok a := by
  cases x with
  | error exc => simp [Except.map]
  | ok a => simp [Except.map]

/-- Odd runs must start a placeholder, and its name must have a value. -/
theorem substitute_ok_iff (merged : List (String × String)) (text : List Char) :
    (∃ rendered, substitute merged text = .ok rendered) ↔
      (∀ after ∈ oddRuns false text, (slot after).isSome) ∧ ∀ name ∈ slotNames text, (merged.lookup name).isSome := by
  induction text using scan_induction with
  | nil => simp [substitute, oddRuns, slotNames]
  | plain c rest hc ih => rw [substitute_plain merged hc, exists_map_ok, ih, oddRuns_plain hc, slotNames_plain hc]
  | escape after ih => rw [substitute_escape, exists_map_ok, ih, oddRuns_escape, slotNames_escape]
  | placeholder rest name after hHead hSlot ih =>
    rw [substitute_slot merged hHead hSlot, oddRuns_slot hHead hSlot, slotNames_cons hHead hSlot, List.forall_mem_cons,
      List.forall_mem_cons, hSlot]
    cases hLookup : merged.lookup (String.ofList name) with
    | none => simp
    | some value =>
      rw [exists_map_ok, ih]
      simp
  | stray rest hHead hSlot _ =>
    rw [substitute_stray merged hHead hSlot, oddRuns_single hHead, List.forall_mem_cons, hSlot]
    simp

/-- The text depends on the values of the placeholders alone. -/
theorem substitute_congr {merged merged' : List (String × String)} {text : List Char}
    (h : ∀ name ∈ slotNames text, merged.lookup name = merged'.lookup name) :
    substitute merged text = substitute merged' text := by
  induction text using scan_induction with
  | nil => simp [substitute]
  | plain c rest hc ih =>
    rw [slotNames_plain hc] at h
    rw [substitute_plain merged hc, substitute_plain merged' hc, ih h]
  | escape after ih =>
    rw [slotNames_escape] at h
    rw [substitute_escape, substitute_escape, ih h]
  | placeholder rest name after hHead hSlot ih =>
    rw [slotNames_cons hHead hSlot, List.forall_mem_cons] at h
    rw [substitute_slot merged hHead hSlot, substitute_slot merged' hHead hSlot, h.1, ih h.2]
  | stray rest hHead hSlot _ => rw [substitute_stray merged hHead hSlot, substitute_stray merged' hHead hSlot]

/-- A longer value makes the text longer for each placeholder that it fills. -/
theorem length_substitute {merged : List (String × String)} {key old value : String} (hOld : merged.lookup key = some old)
    (hLonger : old.toList.length < value.toList.length) {text rendered : List Char}
    (h : substitute merged text = .ok rendered) : ∃ rendered', substitute ((key, value) :: merged) text = .ok rendered' ∧
      rendered.length + (slotNames text).count key ≤ rendered'.length := by
  induction text using scan_induction generalizing rendered with
  | nil =>
    rw [substitute] at h
    cases h
    exact ⟨[], by rw [substitute], by simp [slotNames, oddRuns]⟩
  | plain c rest hc ih =>
    rw [substitute_plain merged hc] at h
    obtain ⟨tail, hTail⟩ := (exists_map_ok _ _).mp ⟨_, h⟩
    rw [hTail] at h
    cases h
    obtain ⟨tail', hTail', hLength⟩ := ih hTail
    refine ⟨c :: tail', by rw [substitute_plain _ hc, hTail']; rfl, ?_⟩
    rw [slotNames_plain hc, List.length_cons, List.length_cons]
    omega
  | escape after ih =>
    rw [substitute_escape] at h
    obtain ⟨tail, hTail⟩ := (exists_map_ok _ _).mp ⟨_, h⟩
    rw [hTail] at h
    cases h
    obtain ⟨tail', hTail', hLength⟩ := ih hTail
    refine ⟨'$' :: tail', by rw [substitute_escape, hTail']; rfl, ?_⟩
    rw [slotNames_escape, List.length_cons, List.length_cons]
    omega
  | placeholder rest name after hHead hSlot ih =>
    rw [substitute_slot merged hHead hSlot] at h
    cases hLookup : merged.lookup (String.ofList name) with
    | none =>
      rw [hLookup] at h
      cases h
    | some current =>
      rw [hLookup] at h
      obtain ⟨tail, hTail⟩ := (exists_map_ok _ _).mp ⟨_, h⟩
      rw [hTail] at h
      cases h
      obtain ⟨tail', hTail', hLength⟩ := ih hTail
      rw [substitute_slot _ hHead hSlot, slotNames_cons hHead hSlot]
      by_cases hKey : String.ofList name = key
      · rw [hKey, hOld] at hLookup
        cases hLookup
        refine ⟨value.toList ++ tail', by rw [hKey, List.lookup_cons_self, hTail']; rfl, ?_⟩
        rw [hKey, List.count_cons_self, List.length_append, List.length_append]
        omega
      · refine ⟨current.toList ++ tail', ?_, ?_⟩
        · rw [List.lookup_cons, beq_eq_false_iff_ne.mpr hKey, hTail']
          simp [hLookup, Except.map]
        · rw [List.count_cons_of_ne hKey, List.length_append, List.length_append]
          omega
  | stray rest hHead hSlot _ =>
    rw [substitute_stray merged hHead hSlot] at h
    cases h

/-! ## What the regex sees -/

theorem placeholders_dollar (rest : List Char) : placeholders ('$' :: rest) =
    ((braced rest).map fun found => String.ofList found.1).toList ++ placeholders rest := by
  rw [placeholders, if_pos rfl]
  split
  · rename_i name after hBraced
    obtain ⟨rfl, hName⟩ := braced_split hBraced
    have hFront : '$' ∉ '\x7b' :: (name ++ ['\x7d']) := by simp [hName]
    have hSkip := placeholders_append hFront after
    rw [List.cons_append, List.append_assoc, List.singleton_append] at hSkip
    have hFound : ((braced ('\x7b' :: (name ++ '\x7d' :: after))).map fun found => String.ofList found.1).toList =
        [String.ofList name] := by
      rw [hBraced]
      rfl
    rw [hFound, hSkip]
    rfl
  · rename_i hBraced
    rw [hBraced]
    rfl

theorem mem_placeholders_of_braced {text rest name after : List Char} (hRun : rest ∈ oddRuns false text)
    (hBraced : braced rest = some (name, after)) : String.ofList name ∈ placeholders text := by
  induction text using scan_induction with
  | nil => cases hRun
  | plain c tail hc ih =>
    rw [oddRuns_plain hc] at hRun
    rw [placeholders, if_neg hc]
    exact ih hRun
  | escape tail ih =>
    rw [oddRuns_escape] at hRun
    rw [placeholders_dollar, placeholders_dollar]
    exact List.mem_append_right _ (List.mem_append_right _ (ih hRun))
  | placeholder tail found end' hHead hSlot ih =>
    rw [oddRuns_slot hHead hSlot] at hRun
    rw [placeholders_dollar]
    rcases List.mem_cons.mp hRun with rfl | hLater
    · rw [hBraced]
      exact List.mem_append_left _ (List.mem_singleton_self _)
    · obtain ⟨lexeme, hTail, hLexeme⟩ := slot_split hSlot
      rw [hTail, placeholders_append hLexeme]
      exact List.mem_append_right _ (ih hLater)
  | stray tail hHead hSlot ih =>
    rw [oddRuns_single hHead] at hRun
    rw [placeholders_dollar]
    rcases List.mem_cons.mp hRun with rfl | hLater
    · rw [hBraced]
      exact List.mem_append_left _ (List.mem_singleton_self _)
    · exact List.mem_append_right _ (ih hLater)

/-! ## Agreement -/

section Agreement

variable {overrides : List (String × Override)} {merged : List (String × String)} {template : List Char}

/-- The template is rendered, and another value of any overridden key would give another text. -/
structure Agrees (overrides : List (String × Override)) (merged : List (String × String)) (template : List Char) : Prop where
  renders : ∃ rendered, substitute merged template = .ok rendered
  effective : ∀ key ∈ overrides.map (·.1), ∃ value, substitute ((key, value) :: merged) template ≠ substitute merged template

/-- Where the template's dollar signs mean the same to both scanners. -/
structure Aligned (overrides : List (String × Override)) (template : List Char) : Prop where
  named : ∀ after ∈ oddRuns false template, (slot after).isSome
  bare : ∀ after ∈ oddRuns false template, ∀ name rest, identifier after = some (name, rest) →
    String.ofList name ∈ placeholders template
  reached : ∀ key ∈ overrides.map (·.1), ∃ after ∈ oddRuns false template, ∃ found, slot after = some found ∧
    String.ofList found.1 = key

theorem keys_of_mapM {f : String → Except Exc String} {found : List String}
    (h : found.mapM (fun key => (f key).map fun value => (key, value)) = .ok merged) : merged.map Prod.fst = found := by
  induction found generalizing merged with
  | nil =>
    cases h
    rfl
  | cons key rest ih =>
    rw [List.mapM_cons] at h
    obtain ⟨pair, hPair, h⟩ := Fallible.bind_ok h
    obtain ⟨others, hOthers, h⟩ := Fallible.bind_ok h
    cases h
    obtain ⟨value, hValue⟩ := (exists_map_ok _ _).mp ⟨pair, hPair⟩
    rw [hValue] at hPair
    cases hPair
    rw [List.map_cons, ih hOthers]

theorem keys_effectiveParams (h : effectiveParams overrides template = .ok merged) :
    merged.map Prod.fst = (placeholders template).dedup := by
  unfold effectiveParams at h
  dsimp only at h
  split at h
  · cases h
  · exact keys_of_mapM h

theorem lookup_effectiveParams (h : effectiveParams overrides template = .ok merged) (key : String) :
    (merged.lookup key).isSome ↔ key ∈ placeholders template := by
  constructor
  · intro hSome
    obtain ⟨value, hLookup⟩ := Option.isSome_iff_exists.mp hSome
    have hKey : key ∈ merged.map Prod.fst := List.mem_map.mpr ⟨(key, value), mem_of_lookup hLookup, rfl⟩
    rw [keys_effectiveParams h] at hKey
    exact List.mem_dedup.mp hKey
  · intro hKey
    obtain ⟨value, -, hLookup⟩ := (effectiveParams_ok h).2 key hKey
    rw [hLookup]
    rfl

theorem slotNames_known_iff : (∀ name ∈ slotNames template, name ∈ placeholders template) ↔
    ∀ after ∈ oddRuns false template, ∀ name rest, identifier after = some (name, rest) →
      String.ofList name ∈ placeholders template := by
  constructor
  · intro h after hRun name rest hIdent
    have hSlot : slot after = some (name, rest) := by
      rw [slot, hIdent]
      rfl
    exact h _ (mem_slotNames.mpr ⟨after, hRun, _, hSlot, rfl⟩)
  · intro h name hName
    obtain ⟨after, hRun, ⟨found, rest⟩, hSlot, rfl⟩ := mem_slotNames.mp hName
    cases hIdent : identifier after with
    | none => exact mem_placeholders_of_braced hRun (braced_of_slot hIdent hSlot)
    | some ident =>
      rw [slot, hIdent] at hSlot
      cases hSlot
      exact h after hRun found rest hIdent

theorem effective_iff {rendered : List Char} (hRendered : substitute merged template = .ok rendered) {key old : String}
    (hOld : merged.lookup key = some old) :
    (∃ value, substitute ((key, value) :: merged) template ≠ substitute merged template) ↔ key ∈ slotNames template := by
  constructor
  · rintro ⟨value, hDiffers⟩
    by_contra hAbsent
    refine hDiffers (substitute_congr fun name hName => ?_)
    have hOther : name ≠ key := by
      rintro rfl
      exact hAbsent hName
    rw [List.lookup_cons, beq_eq_false_iff_ne.mpr hOther]
  · intro hMem
    have hLonger : old.toList.length < (String.ofList ('x' :: old.toList)).toList.length := by simp
    obtain ⟨rendered', hRendered', hLength⟩ := length_substitute hOld hLonger hRendered
    refine ⟨String.ofList ('x' :: old.toList), ?_⟩
    intro hSame
    rw [hRendered', hRendered] at hSame
    cases hSame
    have hCount := List.count_pos_iff.mpr hMem
    omega

theorem agrees_iff (h : effectiveParams overrides template = .ok merged) :
    Agrees overrides merged template ↔ Aligned overrides template := by
  have hNames : (∀ name ∈ slotNames template, (merged.lookup name).isSome) ↔
      ∀ after ∈ oddRuns false template, ∀ name rest, identifier after = some (name, rest) →
        String.ofList name ∈ placeholders template := by
    rw [← slotNames_known_iff]
    exact forall₂_congr fun name _ => lookup_effectiveParams h name
  have hOld : ∀ key ∈ overrides.map (·.1), ∃ old, merged.lookup key = some old := by
    intro key hKey
    obtain ⟨entry, hEntry, rfl⟩ := List.mem_map.mp hKey
    exact Option.isSome_iff_exists.mp ((lookup_effectiveParams h _).mpr ((effectiveParams_ok h).1 entry hEntry))
  constructor
  · rintro ⟨⟨rendered, hRendered⟩, hEffective⟩
    obtain ⟨hNamed, hKnown⟩ := (substitute_ok_iff merged template).mp ⟨rendered, hRendered⟩
    constructor
    · exact hNamed
    · exact hNames.mp hKnown
    · intro key hKey
      obtain ⟨old, hLookup⟩ := hOld key hKey
      exact mem_slotNames.mp ((effective_iff hRendered hLookup).mp (hEffective key hKey))
  · rintro ⟨hNamed, hBare, hReached⟩
    obtain ⟨rendered, hRendered⟩ := (substitute_ok_iff merged template).mpr ⟨hNamed, hNames.mpr hBare⟩
    refine ⟨⟨rendered, hRendered⟩, fun key hKey => ?_⟩
    obtain ⟨old, hLookup⟩ := hOld key hKey
    exact (effective_iff hRendered hLookup).mpr (mem_slotNames.mpr (hReached key hKey))

end Agreement

/-! ## An escaped placeholder -/

section Escaped

def escapedTemplate : List Char := "x = '$${icp_iterations}'".toList

def escapedOverrides : List (String × Override) := [("icp_iterations", .other "7")]

theorem escaped_effectiveParams : effectiveParams escapedOverrides escapedTemplate = .ok [("icp_iterations", "7")] := by
  decide +kernel

theorem agrees_iff_escaped :
    Agrees escapedOverrides [("icp_iterations", "7")] escapedTemplate ↔ Aligned escapedOverrides escapedTemplate :=
  agrees_iff escaped_effectiveParams

/-- The override is accepted, and no value of it would show. -/
theorem agrees_escaped : ¬∀ overrides template merged, effectiveParams overrides template = .ok merged →
    Agrees overrides merged template := by
  intro hAlways
  obtain ⟨value, hDiffers⟩ := (hAlways _ _ _ escaped_effectiveParams).effective "icp_iterations" (by decide)
  have hNone : slotNames escapedTemplate = [] := by decide +kernel
  refine hDiffers (substitute_congr fun name hName => ?_)
  rw [hNone] at hName
  cases hName

end Escaped

end RoveMapping.Tuner.Template
