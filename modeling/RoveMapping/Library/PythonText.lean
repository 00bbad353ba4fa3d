/-! # Lines and words as Python splits them -/
namespace PythonText
set_option autoImplicit false

/-- `str.isspace` of one character. -/
def isSpace (c : Char) : Bool :=
  let n := c.toNat
  (9 ≤ n ∧ n ≤ 13) ∨ (28 ≤ n ∧ n ≤ 32) ∨ n = 0x85 ∨ n = 0xa0 ∨ n = 0x1680 ∨ (0x2000 ≤ n ∧ n ≤ 0x200a) ∨
    n = 0x2028 ∨ n = 0x2029 ∨ n = 0x202f ∨ n = 0x205f ∨ n = 0x3000

def strip (text : List Char) : List Char := ((text.dropWhile isSpace).reverse.dropWhile isSpace).reverse

/-- What a file that is read as text holds: each line ends in a line feed. -/
def universalNewlines : List Char → List Char
  | '\r' :: '\n' :: rest => '\n' :: universalNewlines rest
  | '\r' :: rest => '\n' :: universalNewlines rest
  | c :: rest => c :: universalNewlines rest
  | [] => []

def isLineBreak (c : Char) : Bool :=
  let n := c.toNat
  (10 ≤ n ∧ n ≤ 13) ∨ (28 ≤ n ∧ n ≤ 30) ∨ n = 0x85 ∨ n = 0x2028 ∨ n = 0x2029

/-- `str.splitlines`, for text whose lines do not end in a carriage return. -/
def splitlines (text : List Char) : List (List Char) :=
  let lines := text.splitOnP isLineBreak
  if lines.getLast? = some [] then lines.dropLast else lines

/-- `str.split()` -/
def split (text : List Char) : List (List Char) := (text.splitOnP isSpace).filter (· ≠ [])

example : splitlines (universalNewlines "a\r\n\n b \rc\n".toList) = ["a".toList, [], " b ".toList, "c".toList] := by
  decide +kernel

example : split "\t1.5 -2\x0c3 ".toList = ["1.5".toList, "-2".toList, "3".toList] := by decide +kernel

/-! ## Reading what was written -/

/-- A text that `split` leaves in one piece. -/
structure Word (text : List Char) : Prop where
  nonempty : text ≠ []
  plain : ∀ c ∈ text, isSpace c = false

theorem split_intercalate {words : List (List Char)} (h : ∀ word ∈ words, Word word) :
    split ([' '].intercalate words) = words := by
  induction words with
  | nil => rfl
  | cons word words ih =>
    obtain ⟨hWord, hWords⟩ := List.forall_mem_cons.mp h
    cases words with
    | nil =>
      rw [List.intercalate_singleton, split, List.splitOnP_eq_singleton hWord.plain, List.filter_cons_of_pos (by simp [hWord.nonempty])]
      rfl
    | cons next words =>
      rw [List.intercalate_cons_cons, List.append_assoc, split, List.singleton_append,
        List.splitOnP_append_cons_of_forall_mem hWord.plain ' ' rfl, List.filter_cons_of_pos (by simp [hWord.nonempty])]
      exact congrArg (word :: ·) (ih hWords)

theorem splitOnP_unlines {lines : List (List Char)} (h : ∀ line ∈ lines, ∀ c ∈ line, isLineBreak c = false) :
    (lines.flatMap (· ++ ['\n'])).splitOnP isLineBreak = lines ++ [[]] := by
  induction lines with
  | nil => rfl
  | cons line lines ih =>
    obtain ⟨hLine, hLines⟩ := List.forall_mem_cons.mp h
    rw [List.flatMap_cons, List.append_assoc, List.singleton_append,
      List.splitOnP_append_cons_of_forall_mem hLine '\n' rfl, ih hLines, List.cons_append]

theorem splitlines_unlines {lines : List (List Char)} (h : ∀ line ∈ lines, ∀ c ∈ line, isLineBreak c = false) :
    splitlines (lines.flatMap (· ++ ['\n'])) = lines := by
  rw [splitlines, splitOnP_unlines h]
  simp

theorem universalNewlines_eq {text : List Char} (h : ∀ c ∈ text, c ≠ '\r') : universalNewlines text = text := by
  induction text with
  | nil => rfl
  | cons c text ih =>
    obtain ⟨hc, hText⟩ := List.forall_mem_cons.mp h
    rw [universalNewlines, ih hText]
    · rintro _ rfl
      exact absurd rfl hc
    · rintro rfl
      exact absurd rfl hc

theorem dropWhile_of_head {text : List Char} (h : ∀ c ∈ text.head?, isSpace c = false) : text.dropWhile isSpace = text := by
  cases text with
  | nil => rfl
  | cons c rest =>
    rw [List.dropWhile_cons, h c rfl]
    rfl

theorem strip_of_ends {text : List Char} (hFirst : ∀ c ∈ text.head?, isSpace c = false)
    (hLast : ∀ c ∈ text.getLast?, isSpace c = false) : strip text = text := by
  rw [strip, dropWhile_of_head hFirst, dropWhile_of_head (by rwa [List.head?_reverse]), List.reverse_reverse]

theorem mem_intercalate {c : Char} {words : List (List Char)} (h : c ∈ [' '].intercalate words) :
    c = ' ' ∨ ∃ word ∈ words, c ∈ word := by
  induction words with
  | nil => cases h
  | cons word words ih =>
    cases words with
    | nil =>
      rw [List.intercalate_singleton] at h
      exact .inr ⟨word, List.mem_cons_self, h⟩
    | cons next words =>
      rw [List.intercalate_cons_cons, List.mem_append, List.mem_append, List.mem_singleton] at h
      rcases h with (hHere | hBlank) | hLater
      · exact .inr ⟨word, List.mem_cons_self, hHere⟩
      · exact .inl hBlank
      · rcases ih hLater with hBlank | ⟨other, hOther, hc⟩
        · exact .inl hBlank
        · exact .inr ⟨other, List.mem_cons_of_mem _ hOther, hc⟩

theorem head?_intercalate (c : Char) (rest : List Char) (words : List (List Char)) :
    ([' '].intercalate ((c :: rest) :: words)).head? = some c := by
  cases words with
  | nil => rw [List.intercalate_singleton, List.head?_cons]
  | cons next words => rw [List.intercalate_cons_cons, List.cons_append, List.cons_append, List.head?_cons]

/-- Words with single blanks between them have no blanks around them. -/
theorem strip_intercalate {words : List (List Char)} (h : ∀ word ∈ words, Word word) :
    strip ([' '].intercalate words) = [' '].intercalate words := by
  apply strip_of_ends
  · cases words with
    | nil => simp
    | cons word words =>
      obtain ⟨c, rest, rfl⟩ := List.exists_cons_of_ne_nil (h word List.mem_cons_self).nonempty
      rw [head?_intercalate]
      intro d hd
      obtain rfl : c = d := Option.some.inj hd
      exact (h _ List.mem_cons_self).plain c List.mem_cons_self
  · induction words with
    | nil => simp
    | cons word words ih =>
      obtain ⟨hWord, hWords⟩ := List.forall_mem_cons.mp h
      cases words with
      | nil =>
        rw [List.intercalate_singleton]
        exact fun c hc => hWord.plain c (List.mem_of_getLast? hc)
      | cons next words =>
        obtain ⟨c, rest, rfl⟩ := List.exists_cons_of_ne_nil (hWords next List.mem_cons_self).nonempty
        have hSome : ([' '].intercalate ((c :: rest) :: words)).getLast?.isSome := by
          have hHead := head?_intercalate c rest words
          cases hLine : [' '].intercalate ((c :: rest) :: words) with
          | nil =>
            rw [hLine] at hHead
            cases hHead
          | cons d line => rfl
        rw [List.intercalate_cons_cons, List.getLast?_append, Option.or_of_isSome hSome]
        exact ih hWords

end PythonText
