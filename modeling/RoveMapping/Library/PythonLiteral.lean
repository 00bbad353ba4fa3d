import Mathlib.Data.List.Basic

/-! # Single-quoted string literals of Python

The tokenizer first finds the end of a literal, taking every backslash together with the next
character; the escapes of the body are decoded afterwards, to code points. A text pasted between
quotes is read back unchanged exactly when it is `inert`.
-/
namespace PythonLiteral
set_option autoImplicit false

def lineEnd (c : Char) : Bool := c == '\n' || c == '\r' || c == Char.ofNat 0

/-- The body of a literal and what follows its closing quote. -/
def literalBody : List Char → Option (List Char × List Char)
  | [] => none
  | '\'' :: rest => some ([], rest)
  | '\\' :: c :: rest =>
    if c = Char.ofNat 0 then none else (literalBody rest).map fun (body, after) => ('\\' :: c :: body, after)
  | c :: rest => if lineEnd c then none else (literalBody rest).map fun (body, after) => (c :: body, after)

def digits (base : ℕ) (chars : List Char) : Option ℕ :=
  chars.foldl (fun value c => do
    let d ← if '0' ≤ c ∧ c ≤ '9' then some (c.toNat - '0'.toNat)
      else if 'a' ≤ c ∧ c ≤ 'f' then some (c.toNat - 'a'.toNat + 10)
      else if 'A' ≤ c ∧ c ≤ 'F' then some (c.toNat - 'A'.toNat + 10)
      else none
    if d < base then return (← value) * base + d else none) (some 0)

def hexEscape (count : ℕ) (rest : List Char) : Option (List ℕ × List Char) :=
  if rest.length < count then none
  else match digits 16 (rest.take count) with
    | some value => if value ≤ 0x10ffff then some ([value], rest.drop count) else none
    | none => none

def isOctal (c : Char) : Bool := '0' ≤ c ∧ c ≤ '7'

/-- One to three octal digits, the first of them `c`. -/
def octalEscape (c : Char) (rest : List Char) : Option (List ℕ × List Char) :=
  let more := (rest.take 2).takeWhile isOctal
  (digits 8 (c :: more)).map fun value => ([value], rest.drop more.length)

def namedEscape (named : List Char → Option ℕ) : List Char → Option (List ℕ × List Char)
  | '\x7b' :: rest =>
    let name := rest.takeWhile (· != '\x7d')
    (named name).map fun value => ([value], rest.drop (name.length + 1))
  | _ => none

def simpleEscape : Char → Option (List ℕ)
  | '\n' => some []
  | '\r' => some []
  | '\\' => some [92]
  | '\'' => some [39]
  | '"' => some [34]
  | 'a' => some [7]
  | 'b' => some [8]
  | 'f' => some [12]
  | 'n' => some [10]
  | 'r' => some [13]
  | 't' => some [9]
  | 'v' => some [11]
  | _ => none

def introducer (c : Char) : Bool :=
  (simpleEscape c).isSome || isOctal c || c == 'x' || c == 'u' || c == 'U' || c == 'N'

/-- The code points of an escape, given the character after the backslash. An unknown escape
stands for itself. -/
def escape (named : List Char → Option ℕ) (c : Char) (rest : List Char) : Option (List ℕ × List Char) :=
  match simpleEscape c with
  | some points => some (points, rest)
  | none =>
    if isOctal c then octalEscape c rest
    else if c = 'x' then hexEscape 2 rest
    else if c = 'u' then hexEscape 4 rest
    else if c = 'U' then hexEscape 8 rest
    else if c = 'N' then namedEscape named rest
    else some (['\\'.toNat, c.toNat], rest)

theorem simpleEscape_length {c : Char} {points : List ℕ} (h : simpleEscape c = some points) : points.length ≤ 1 := by
  unfold simpleEscape at h
  split at h <;> cases h <;> simp

theorem escape_of_introducer {named : List Char → Option ℕ} {c : Char} {rest rest' : List Char} {points : List ℕ}
    (hIntro : introducer c = true) (h : escape named c rest = some (points, rest')) :
    points.length ≤ 1 ∧ rest'.length ≤ rest.length := by
  have hHex : ∀ {count}, hexEscape count rest = some (points, rest') → points.length ≤ 1 ∧ rest'.length ≤ rest.length := by
    intro count hHex
    unfold hexEscape at hHex
    split at hHex
    · cases hHex
    · split at hHex
      · split at hHex
        · cases hHex
          simp
        · cases hHex
      · cases hHex
  unfold escape at h
  split at h
  · rename_i points' hSimple
    cases h
    exact ⟨simpleEscape_length hSimple, Nat.le_refl _⟩
  · rename_i hNone
    split at h
    · obtain ⟨value, _, hEq⟩ := Option.map_eq_some_iff.mp h
      cases hEq
      simp
    · rename_i hOctal
      split at h
      · exact hHex h
      split at h
      · exact hHex h
      split at h
      · exact hHex h
      split at h
      · unfold namedEscape at h
        split at h
        · obtain ⟨value, _, hEq⟩ := Option.map_eq_some_iff.mp h
          cases hEq
          simp
          omega
        · cases h
      · simp_all [introducer]

theorem escape_of_not_introducer (named : List Char → Option ℕ) {c : Char} (hIntro : introducer c = false)
    (rest : List Char) : escape named c rest = some (['\\'.toNat, c.toNat], rest) := by
  simp only [introducer, Bool.or_eq_false_iff, beq_eq_false_iff_ne, Option.isSome_eq_false_iff,
    Option.isNone_iff_eq_none] at hIntro
  obtain ⟨⟨⟨⟨⟨hSimple, hOctal⟩, hx⟩, hu⟩, hU⟩, hN⟩ := hIntro
  simp [escape, hSimple, hOctal, hx, hu, hU, hN]

theorem escape_shorter {named : List Char → Option ℕ} {c : Char} {rest rest' : List Char} {points : List ℕ}
    (h : escape named c rest = some (points, rest')) : rest'.length ≤ rest.length := by
  cases hIntro : introducer c with
  | true => exact (escape_of_introducer hIntro h).2
  | false =>
    rw [escape_of_not_introducer named hIntro] at h
    cases h
    exact Nat.le_refl _

def decode (named : List Char → Option ℕ) : List Char → Option (List ℕ)
  | [] => some []
  | ['\\'] => none
  | '\\' :: c :: rest =>
    match h : escape named c rest with
    | some (points, rest') =>
      have : rest'.length ≤ rest.length := escape_shorter h
      (decode named rest').map (points ++ ·)
    | none => none
  | c :: rest => (decode named rest).map (c.toNat :: ·)
termination_by body => body.length

/-- The value of the literal that starts after an opening quote, and what follows it. -/
def readLiteral (named : List Char → Option ℕ) (text : List Char) : Option (List ℕ × List Char) := do
  let (body, after) ← literalBody text
  let points ← decode named body
  return (points, after)

def codePoints (text : List Char) : List ℕ := text.map Char.toNat

/-- Every backslash stands before a character that has no meaning after it. -/
def plain : List Char → Bool
  | [] => true
  | ['\\'] => false
  | '\\' :: c :: rest => !introducer c && plain rest
  | _ :: rest => plain rest

/-- Texts that neither end a literal nor hold an escape. -/
def inert : List Char → Bool
  | [] => true
  | ['\\'] => false
  | '\\' :: c :: rest => !introducer c && c != Char.ofNat 0 && inert rest
  | c :: rest => c != '\'' && !lineEnd c && inert rest

theorem ne_backslash {c : Char} {rest : List Char} (hLone : c = '\\' → rest = [] → False)
    (hEscape : ∀ d rest', c = '\\' → rest = d :: rest' → False) : c ≠ '\\' := by
  intro hc
  cases rest with
  | nil => exact hLone hc rfl
  | cons d rest => exact hEscape d rest hc rfl

section Decoding

variable {named : List Char → Option ℕ}

theorem decode_cons {c : Char} (hc : c ≠ '\\') (rest : List Char) :
    decode named (c :: rest) = (decode named rest).map (c.toNat :: ·) := by
  rw [decode.eq_4 named c rest (fun h => absurd h hc) fun _ _ h => absurd h hc]

theorem decode_escape {c : Char} {rest rest' : List Char} {points : List ℕ}
    (h : escape named c rest = some (points, rest')) :
    decode named ('\\' :: c :: rest) = (decode named rest').map (points ++ ·) := by
  rw [decode.eq_3]
  split
  · rename_i h'
    rw [h] at h'
    cases h'
    rfl
  · rename_i h'
    rw [h] at h'
    cases h'

theorem plain_cons {c : Char} (hc : c ≠ '\\') (rest : List Char) : plain (c :: rest) = plain rest :=
  plain.eq_4 c rest (fun h => absurd h hc) fun _ _ h => absurd h hc

/-- Decoding never lengthens a body, and keeps its length only where it changes nothing. -/
theorem decode_length {body : List Char} {points : List ℕ} (h : decode named body = some points) :
    points.length ≤ body.length ∧ (points.length = body.length → plain body = true) := by
  induction body using decode.induct named generalizing points with
  | case1 =>
    rw [decode.eq_1] at h
    cases h
    simp [plain]
  | case2 => simp [decode] at h
  | case3 c rest escaped rest' hEscape hShorter ih =>
    rw [decode_escape hEscape] at h
    obtain ⟨others, hOthers, rfl⟩ := Option.map_eq_some_iff.mp h
    obtain ⟨hLength, hPlain⟩ := ih hOthers
    cases hIntro : introducer c with
    | true =>
      obtain ⟨hOne, _⟩ := escape_of_introducer hIntro hEscape
      simp only [List.length_append, List.length_cons]
      constructor <;> omega
    | false =>
      rw [escape_of_not_introducer named hIntro] at hEscape
      cases hEscape
      simp only [plain, hIntro, List.length_append, List.length_cons, List.length_nil, Bool.not_false, Bool.true_and]
      exact ⟨by omega, fun hEq => hPlain (by omega)⟩
  | case4 c rest hEscape =>
    rw [decode.eq_3] at h
    split at h
    · rename_i h'
      rw [hEscape] at h'
      cases h'
    · cases h
  | case5 c rest hLone hEscape ih =>
    have hc := ne_backslash hLone hEscape
    rw [decode_cons hc] at h
    obtain ⟨others, hOthers, rfl⟩ := Option.map_eq_some_iff.mp h
    obtain ⟨hLength, hPlain⟩ := ih hOthers
    rw [plain_cons hc]
    simp only [List.length_cons]
    exact ⟨by omega, fun hEq => hPlain (by omega)⟩

theorem decode_plain {body : List Char} (h : plain body = true) : decode named body = some (codePoints body) := by
  induction body using plain.induct with
  | case1 => exact decode.eq_1 named
  | case2 => cases h
  | case3 c rest ih =>
    simp only [plain, Bool.and_eq_true, Bool.not_eq_true'] at h
    rw [decode_escape (escape_of_not_introducer named h.1 rest), ih h.2]
    rfl
  | case4 c rest hLone hEscape ih =>
    have hc := ne_backslash hLone hEscape
    rw [plain_cons hc] at h
    rw [decode_cons hc, ih h]
    rfl

end Decoding

section Reading

variable {named : List Char → Option ℕ} {tail : List Char}

theorem literalBody_cons {c : Char} (hQuote : c ≠ '\'') (hBackslash : c ≠ '\\') (rest : List Char) :
    literalBody (c :: rest) =
      if lineEnd c then none else (literalBody rest).map fun (body, after) => (c :: body, after) :=
  literalBody.eq_4 c rest hQuote fun _ _ h => absurd h hBackslash

theorem cut_cons (c : Char) {value body after : List Char}
    (h : body.length ≤ value.length ∧ (body.length = value.length → body = value ∧ after = tail)) :
    (c :: body).length ≤ (c :: value).length ∧ ((c :: body).length = (c :: value).length → c :: body = c :: value ∧ after = tail) := by
  obtain ⟨hLength, hWhole⟩ := h
  simp only [List.length_cons]
  constructor
  · omega
  · intro hEq
    obtain ⟨rfl, rfl⟩ := hWhole (by omega)
    exact ⟨rfl, rfl⟩

/-- How a pasted value is cut: at most as long as it is, and whole only where the closing quote is
the one that was put there. -/
theorem literalBody_pasted (hTail : literalBody tail = none) {value body after : List Char}
    (h : literalBody (value ++ '\'' :: tail) = some (body, after)) :
    body.length ≤ value.length ∧ (body.length = value.length → body = value ∧ after = tail) := by
  induction value using inert.induct generalizing body with
  | case1 =>
    cases h
    simp
  | case2 =>
    -- the backslash takes the closing quote
    simp [literalBody, hTail] at h
  | case3 c rest ih =>
    simp only [List.cons_append, literalBody] at h
    split at h
    · cases h
    · obtain ⟨⟨body', after'⟩, hRest, hEq⟩ := Option.map_eq_some_iff.mp h
      cases hEq
      exact cut_cons '\\' (cut_cons c (ih hRest))
  | case4 c rest hLone hEscape ih =>
    have hc := ne_backslash hLone hEscape
    by_cases hQuote : c = '\''
    · subst hQuote
      cases h
      simp
    · rw [List.cons_append, literalBody_cons hQuote hc] at h
      split at h
      · cases h
      · obtain ⟨⟨body', after'⟩, hRest, hEq⟩ := Option.map_eq_some_iff.mp h
        cases hEq
        exact cut_cons c (ih hRest)

theorem inert_of_whole {value after : List Char} (h : literalBody (value ++ '\'' :: tail) = some (value, after))
    (hPlain : plain value = true) : inert value = true := by
  induction value using inert.induct with
  | case1 => rfl
  | case2 => cases hPlain
  | case3 c rest ih =>
    simp only [List.cons_append, literalBody] at h
    split at h
    · cases h
    · rename_i hNul
      obtain ⟨⟨body', after'⟩, hRest, hEq⟩ := Option.map_eq_some_iff.mp h
      cases hEq
      simp only [plain, Bool.and_eq_true, Bool.not_eq_true'] at hPlain
      simp [inert, hPlain.1, hNul, ih hRest hPlain.2]
  | case4 c rest hLone hEscape ih =>
    have hc := ne_backslash hLone hEscape
    rw [plain_cons hc] at hPlain
    by_cases hQuote : c = '\''
    · subst hQuote
      cases h
    · rw [List.cons_append, literalBody_cons hQuote hc] at h
      split at h
      · cases h
      · rename_i hEnd
        obtain ⟨⟨body', after'⟩, hRest, hEq⟩ := Option.map_eq_some_iff.mp h
        cases hEq
        rw [inert.eq_4 c rest hLone hEscape, ih hRest hPlain]
        simp [hQuote, hEnd]

theorem literalBody_inert {value : List Char} (h : inert value = true) :
    literalBody (value ++ '\'' :: tail) = some (value, tail) ∧ plain value = true := by
  induction value using inert.induct with
  | case1 => exact ⟨rfl, rfl⟩
  | case2 => cases h
  | case3 c rest ih =>
    simp only [inert, Bool.and_eq_true, Bool.not_eq_true', bne_iff_ne, ne_eq] at h
    obtain ⟨hBody, hPlain⟩ := ih h.2
    simp [literalBody, plain, h.1.1, h.1.2, hBody, hPlain]
  | case4 c rest hLone hEscape ih =>
    have hc := ne_backslash hLone hEscape
    rw [inert.eq_4 c rest hLone hEscape] at h
    simp only [Bool.and_eq_true, Bool.not_eq_true', bne_iff_ne, ne_eq] at h
    obtain ⟨hBody, hPlain⟩ := ih h.2
    rw [List.cons_append, literalBody_cons h.1.1 hc, plain_cons hc, hBody]
    simp [h.1.2, hPlain]

theorem readLiteral_inert {value : List Char} (h : inert value = true) :
    readLiteral named (value ++ '\'' :: tail) = some (codePoints value, tail) := by
  have hBoth : literalBody (value ++ '\'' :: tail) = some (value, tail) ∧ plain value = true := literalBody_inert h
  obtain ⟨hBody, hPlain⟩ := hBoth
  simp [readLiteral, hBody, decode_plain hPlain]

/-- A pasted value that is read back unchanged is inert. -/
theorem inert_of_readLiteral (hTail : literalBody tail = none) {value after : List Char}
    (h : readLiteral named (value ++ '\'' :: tail) = some (codePoints value, after)) : inert value = true := by
  obtain ⟨⟨body, after'⟩, hBody, h⟩ := Option.bind_eq_some_iff.mp h
  obtain ⟨points, hPoints, hEq⟩ := Option.bind_eq_some_iff.mp h
  cases hEq
  obtain ⟨hShort, hWhole⟩ := literalBody_pasted hTail hBody
  obtain ⟨hDecoded, hPlain⟩ := decode_length hPoints
  have hLength : (codePoints value).length = value.length := List.length_map _
  obtain ⟨rfl, rfl⟩ := hWhole (by omega)
  exact inert_of_whole hBody (hPlain (by omega))

end Reading

end PythonLiteral
