import RoveMapping.Library.Fallible
import RoveMapping.Library.PrintedFloat
import RoveMapping.Slam.MeshBuilder

/-! # The trajectory file

The mesh builder saves its poses with nine digits behind the point, and the colouring of the mesh loads them, unless an
orientation has been printed as zeros. Both compute in doubles.
-/
namespace RoveMapping.ColorMesh.TrajectoryFile
open Binary64 Fallible NearestEven
set_option autoImplicit false

/-! ## Saving -/

/-- A row of the array of `_write_tum`. -/
def tumRow (pose : Slam.OdometryPose) : List Float :=
  let (x, y, z) := pose.position
  let (qx, qy, qz, qw) := pose.orientation
  [.ofModel (.ofInt pose.timestamp) * 1e-9, x, y, z, qx, qy, qz, qw]

/-- A row as `np.savetxt` writes it, before its line feed. -/
def savetxtRow (row : List Float) : List Char := [' '].intercalate (row.map (PrintedFloat.fixed 9))

def writeTum (poses : List Slam.OdometryPose) : List Char :=
  (poses.map fun pose => savetxtRow (tumRow pose)).flatMap (· ++ ['\n'])

/-! ## Loading -/

inductive LoadError where
  | valueError
  | zeroDivisionError
  | overflowError
deriving DecidableEq, Repr

/-- The numbers of a line. -/
structure TumLine where
  tS : Float
  x : Float
  y : Float
  z : Float
  qx : Float
  qy : Float
  qz : Float
  qw : Float

def readFloat (text : List Char) : Except LoadError Float :=
  match PythonFloat.parse text with
  | some x => .ok x
  | none => .error .valueError

/-- Blank lines, comments and short lines are passed over. -/
def readLine (line : List Char) : Except LoadError (Option TumLine) := do
  let line := PythonText.strip line
  if line = [] ∨ line.head? = some '#' then return none
  else
    match PythonText.split line with
    | tS :: x :: y :: z :: qx :: qy :: qz :: qw :: _ =>
      return some ⟨← readFloat tS, ← readFloat x, ← readFloat y, ← readFloat z, ← readFloat qx, ← readFloat qy, ← readFloat qz,
        ← readFloat qw⟩
    | _ => return none

def integerPart (q : ℚ) : ℤ := if 0 ≤ q then ⌊q⌋ else ⌈q⌉

/-- `int(x)` -/
def truncate (x : Float) : Except LoadError ℤ :=
  if x.isNaN then .error .valueError
  else if x.isInf then .error .overflowError
  else .ok (integerPart (toRat x))

/-- The rotation and the translation of `T`. -/
structure MapBase where
  rotation : Matrix (Fin 3) (Fin 3) Float
  translation : Float × Float × Float

/-- `_quat_to_R`; Python does not divide by a zero. -/
def quatToR (qx qy qz qw : Float) : Except LoadError (Matrix (Fin 3) (Fin 3) Float) :=
  let n := (qx * qx + qy * qy + qz * qz + qw * qw).sqrt
  if n == 0 then .error .zeroDivisionError
  else
    let qx := qx / n
    let qy := qy / n
    let qz := qz / n
    let qw := qw / n
    .ok !![1 - 2 * (qy * qy + qz * qz), 2 * (qx * qy - qz * qw), 2 * (qx * qz + qy * qw);
      2 * (qx * qy + qz * qw), 1 - 2 * (qx * qx + qz * qz), 2 * (qy * qz - qx * qw);
      2 * (qx * qz - qy * qw), 2 * (qy * qz + qx * qw), 1 - 2 * (qx * qx + qy * qy)]

def TumLine.sample (line : TumLine) : Except LoadError (ℤ × MapBase) := do
  let R ← quatToR line.qx line.qy line.qz line.qw
  return (← truncate (line.tS * 1e9), ⟨R, line.x, line.y, line.z⟩)

def loadLine (line : List Char) : Except LoadError (Option (ℤ × MapBase)) := do
  match ← readLine line with
  | some numbers => return some (← numbers.sample)
  | none => return none

/-- `load_tum` in doubles. -/
def loadTum (text : List Char) : Except LoadError (List (ℤ × MapBase)) := do
  let poses ← (PythonText.splitlines (PythonText.universalNewlines text)).mapM loadLine
  return (poses.filterMap id).mergeSort fun a b => a.1 ≤ b.1

example : ((PythonText.splitlines (writeTum [⟨1700000000123456789, (1, -2, 3.5), (0, 0, 0, 1)⟩])).map fun line =>
    (readLine line).toOption.join.bind fun numbers => (truncate (numbers.tS * 1e9)).toOption) =
    [some 1700000000123457024] := by decide +kernel

/-! ## The time of a pose -/

section Time

/-- The seconds of a stamp fit into 32 bits. -/
def Stamp (n : ℤ) : Prop := |(n : ℚ)| ≤ 2147483652 * 10 ^ 9

theorem stamp_stampNs (sec : Int32) (nanosec : UInt32) : Stamp (Slam.stampNs sec nanosec) := by
  have hLow : -2 ^ 31 ≤ sec.toInt := Int32.le_toInt sec
  have hHigh : sec.toInt < 2 ^ 31 := Int32.toInt_lt sec
  have hRest := nanosec.toNat_lt
  have hBound : |Slam.stampNs sec nanosec| ≤ 2147483652 * 10 ^ 9 := by
    rw [abs_le, Slam.stampNs]
    constructor <;> omega
  unfold Stamp
  exact_mod_cast hBound

/-- The double that `1e-9` stands for. -/
def nano : ℚ := 4835703278458517 / 2 ^ 82

theorem toRat_nano : toRat 1e-9 = nano := by decide +kernel

theorem toRat_giga : toRat 1e9 = 10 ^ 9 := by decide +kernel

variable {n n' : ℤ} {y y' : Float}

/-- `float(ts_ns) * 1e-9` -/
def writtenTime (n : ℤ) : Float := .ofModel (.ofInt n) * 1e-9

def writtenSeconds (n : ℤ) : ℚ := rounded 53 (-1074) (rounded 53 (-1074) n * nano)

theorem abs_rounded_stamp_le (h : Stamp n) : |rounded 53 (-1074) (n : ℚ)| ≤ 2 ^ (61 : ℤ) := by
  apply abs_rounded_le (by norm_num)
  exact h.trans (by norm_num)

theorem abs_product_lt (h : Stamp n) : |rounded 53 (-1074) (n : ℚ) * nano| < 2 ^ (32 : ℤ) := by
  have hNano : (0 : ℚ) ≤ nano := by norm_num [nano]
  rw [abs_mul, abs_of_nonneg hNano]
  calc |rounded 53 (-1074) (n : ℚ)| * nano
    _ ≤ 2 ^ (61 : ℤ) * nano := by
      gcongr
      exact abs_rounded_stamp_le h
    _ < 2 ^ (32 : ℤ) := by norm_num [nano]

theorem writtenTime_spec (h : Stamp n) : (writtenTime n).isFinite = true ∧ toRat (writtenTime n) = writtenSeconds n := by
  have hNumber : |(n : ℚ)| ≤ 2 ^ (61 : ℤ) := h.trans (by norm_num)
  obtain ⟨hFinite, hValue⟩ := ofInt_spec (abs_rounded_lt (by norm_num) (by norm_num) hNumber)
  have hSmall := abs_rounded_lt (by norm_num) (by norm_num) (abs_product_lt h).le
  rw [← hValue, ← toRat_nano] at hSmall
  have hProduct := mul_spec hFinite (show (1e-9 : Float).isFinite = true by decide +kernel) hSmall
  rwa [hValue, toRat_nano] at hProduct

theorem abs_writtenSeconds_sub_le (h : Stamp n) : |writtenSeconds n * 10 ^ 9 - n| ≤ 511 := by
  have hRounded := abs_rounded_sub_le (q := (n : ℚ)) (k := 61) (by norm_num) (lt_of_le_of_lt h (by norm_num))
  have hProduct := abs_rounded_sub_le (q := rounded 53 (-1074) (n : ℚ) * nano) (k := 32) (by norm_num) (abs_product_lt h)
  have hLarge := abs_rounded_stamp_le h
  change |writtenSeconds n - _| ≤ _ at hProduct
  generalize writtenSeconds n = t at hProduct ⊢
  generalize rounded 53 (-1074) (n : ℚ) = f at hRounded hProduct hLarge
  have hNano : nano * 10 ^ 9 - 1 = 301175296 / 2 ^ 82 := by norm_num [nano]
  have hScale : |f * (nano * 10 ^ 9 - 1)| ≤ 144 := by
    rw [hNano, abs_mul, abs_of_pos (show (0 : ℚ) < 301175296 / 2 ^ 82 by norm_num)]
    calc |f| * (301175296 / 2 ^ 82)
      _ ≤ 2 ^ (61 : ℤ) * (301175296 / 2 ^ 82) := by gcongr
      _ ≤ 144 := by norm_num
  have hStep : |(t - f * nano) * 10 ^ 9| ≤ 239 := by
    rw [abs_mul, abs_of_pos (show (0 : ℚ) < 10 ^ 9 by norm_num)]
    calc |t - f * nano| * 10 ^ 9
      _ ≤ 2 ^ ((32 : ℤ) - 54) * 10 ^ 9 := by gcongr
      _ ≤ 239 := by norm_num
  have hUnits : |f - n| ≤ 128 := hRounded.trans (by norm_num)
  have hSum : t * 10 ^ 9 - n = (t - f * nano) * 10 ^ 9 + f * (nano * 10 ^ 9 - 1) + (f - n) := by ring
  rw [hSum]
  have hFirst := abs_add_le ((t - f * nano) * 10 ^ 9 + f * (nano * 10 ^ 9 - 1)) (f - n)
  have hSecond := abs_add_le ((t - f * nano) * 10 ^ 9) (f * (nano * 10 ^ 9 - 1))
  linarith

/-- `t_s * 1e9`, where `t_s` is read from what has been written. -/
theorem loadedTime_spec (h : Stamp n) (hRead : PrintedFloat.ReadBack 9 (writtenTime n) y) :
    (y * 1e9).isFinite = true ∧ toRat (y * 1e9) = rounded 53 (-1074) (toRat y * 10 ^ 9) ∧ |toRat y * 10 ^ 9 - n| ≤ 512 := by
  obtain ⟨hFinite, hValue⟩ := writtenTime_spec h
  have hNear := hRead.near hFinite
  have hWritten := abs_writtenSeconds_sub_le h
  rw [hValue] at hNear
  have hTime : |toRat y * 10 ^ 9 - n| ≤ 512 := by
    have hSplit : toRat y * 10 ^ 9 - n = (toRat y - writtenSeconds n) * 10 ^ 9 + (writtenSeconds n * 10 ^ 9 - n) := by ring
    have hDigit : |(toRat y - writtenSeconds n) * 10 ^ 9| ≤ 1 := by
      rw [abs_mul, abs_of_pos (show (0 : ℚ) < 10 ^ 9 by norm_num)]
      calc |toRat y - writtenSeconds n| * 10 ^ 9
        _ ≤ 1 / 10 ^ 9 * 10 ^ 9 := by gcongr
        _ = 1 := by norm_num
    rw [hSplit]
    have hSum := abs_add_le ((toRat y - writtenSeconds n) * 10 ^ 9) (writtenSeconds n * 10 ^ 9 - n)
    linarith
  have hLarge : |toRat y * 10 ^ 9| ≤ 2 ^ (61 : ℤ) := by
    have hSum := abs_add_le (toRat y * 10 ^ 9 - n) (n : ℚ)
    rw [sub_add_cancel] at hSum
    have hTop : (2147483652 * 10 ^ 9 : ℚ) + 512 ≤ 2 ^ (61 : ℤ) := by norm_num
    unfold Stamp at h
    linarith
  have hSmall := abs_rounded_lt (by norm_num) (by norm_num) hLarge
  rw [← toRat_giga] at hSmall
  have hProduct := mul_spec (hRead.finite hFinite).1 (show (1e9 : Float).isFinite = true by decide +kernel) hSmall
  rw [toRat_giga] at hProduct
  exact ⟨hProduct.1, hProduct.2, hTime⟩

theorem truncate_of_isFinite {x : Float} (h : x.isFinite = true) : truncate x = .ok (integerPart (toRat x)) := by
  rw [truncate, isNaN_of_isFinite h, PrintedFloat.isInf_of_isFinite h, if_neg (by simp), if_neg (by simp)]

theorem abs_integerPart_sub_lt (q : ℚ) : |(integerPart q : ℚ) - q| < 1 := by
  unfold integerPart
  split
  · have hLow := Int.floor_le q
    have hHigh := Int.lt_floor_add_one q
    rw [abs_lt]
    constructor <;> linarith
  · have hLow := Int.le_ceil q
    have hHigh := Int.ceil_lt_add_one q
    rw [abs_lt]
    constructor <;> linarith

theorem integerPart_mono {q r : ℚ} (h : q ≤ r) : integerPart q ≤ integerPart r := by
  unfold integerPart
  split
  · rw [if_pos (by linarith)]
    exact Int.floor_mono h
  · rename_i hNegative
    split
    · have hZero : ⌈q⌉ ≤ 0 := Int.ceil_le.mpr (by push_cast; linarith)
      have hFloor : 0 ≤ ⌊r⌋ := Int.floor_nonneg.mpr ‹_›
      omega
    · exact Int.ceil_mono h

/-- A time is off by less than a microsecond. -/
theorem loadedTime_near (h : Stamp n) (hRead : PrintedFloat.ReadBack 9 (writtenTime n) y) :
    ∃ tNs, truncate (y * 1e9) = .ok tNs ∧ |tNs - n| < 1000 := by
  obtain ⟨hFinite, hValue, hTime⟩ := loadedTime_spec h hRead
  refine ⟨_, truncate_of_isFinite hFinite, ?_⟩
  have hLarge : |toRat y * 10 ^ 9| < 2 ^ (62 : ℤ) := by
    have hSum := abs_add_le (toRat y * 10 ^ 9 - n) (n : ℚ)
    rw [sub_add_cancel] at hSum
    have hTop : (2147483652 * 10 ^ 9 : ℚ) + 512 < 2 ^ (62 : ℤ) := by norm_num
    unfold Stamp at h
    linarith
  have hRounded : |toRat (y * 1e9) - toRat y * 10 ^ 9| ≤ 256 := by
    rw [hValue]
    exact (abs_rounded_sub_le (by norm_num) hLarge).trans (by norm_num)
  have hPart := abs_integerPart_sub_lt (toRat (y * 1e9))
  have hFirst := abs_sub_le (integerPart (toRat (y * 1e9)) : ℚ) (toRat (y * 1e9)) n
  have hSecond := abs_sub_le (toRat (y * 1e9)) (toRat y * 10 ^ 9) n
  have hNear : |(integerPart (toRat (y * 1e9)) : ℚ) - n| < 1000 := by
    generalize (integerPart (toRat (y * 1e9)) : ℚ) = m at hPart hFirst ⊢
    generalize toRat (y * 1e9) = g at hPart hFirst hSecond hRounded
    linarith only [hPart, hFirst, hSecond, hRounded, hTime]
  exact_mod_cast hNear

/-- The order of the times is kept. -/
theorem loadedTime_mono (h : Stamp n) (h' : Stamp n') (hRead : PrintedFloat.ReadBack 9 (writtenTime n) y)
    (hRead' : PrintedFloat.ReadBack 9 (writtenTime n') y') (hOrder : n ≤ n') {tNs tNs' : ℤ}
    (hTime : truncate (y * 1e9) = .ok tNs) (hTime' : truncate (y' * 1e9) = .ok tNs') : tNs ≤ tNs' := by
  obtain ⟨hFinite, hValue⟩ := writtenTime_spec h
  obtain ⟨hFinite', hValue'⟩ := writtenTime_spec h'
  obtain ⟨hLoaded, hLoadedValue, -⟩ := loadedTime_spec h hRead
  obtain ⟨hLoaded', hLoadedValue', -⟩ := loadedTime_spec h' hRead'
  have hPrecision : 0 < 53 := by norm_num
  have hSeconds : writtenSeconds n ≤ writtenSeconds n' := by
    apply rounded_mono (-1074) hPrecision
    have hNumbers : (n : ℚ) ≤ n' := by exact_mod_cast hOrder
    exact mul_le_mul_of_nonneg_right (rounded_mono (-1074) hPrecision hNumbers) (by norm_num [nano])
  have hRatio := hRead.toRat_mono hRead' hFinite hFinite' (by rwa [hValue, hValue'])
  have hProduct : toRat (y * 1e9) ≤ toRat (y' * 1e9) := by
    rw [hLoadedValue, hLoadedValue']
    exact rounded_mono (-1074) hPrecision (mul_le_mul_of_nonneg_right hRatio (by norm_num))
  rw [truncate_of_isFinite hLoaded] at hTime
  rw [truncate_of_isFinite hLoaded'] at hTime'
  cases hTime
  cases hTime'
  exact integerPart_mono hProduct

end Time

/-! ## The text of a pose -/

section Text
open PrintedFloat PythonText

variable {row : List Float}

theorem words_row (row : List Float) : ∀ word ∈ row.map (fixed 9), Word word := by
  intro word hWord
  obtain ⟨x, -, rfl⟩ := List.mem_map.mp hWord
  exact word_fixed (by norm_num) x

theorem mem_savetxtRow (row : List Float) : ∀ c ∈ savetxtRow row, c = ' ' ∨ 45 ≤ c.toNat ∧ c.toNat ≤ 110 := by
  intro c hc
  rcases mem_intercalate hc with hBlank | ⟨word, hWord, hMem⟩
  · exact .inl hBlank
  · obtain ⟨x, -, rfl⟩ := List.mem_map.mp hWord
    exact .inr (mem_fixed (by norm_num) x c hMem)

theorem isLineBreak_savetxtRow (row : List Float) : ∀ c ∈ savetxtRow row, isLineBreak c = false := by
  intro c hc
  rcases mem_savetxtRow row c hc with rfl | hRange
  · rfl
  · simp only [isLineBreak, decide_eq_false_iff_not]
    omega

theorem readFloat_fixed (x : Float) : ∃ y, readFloat (fixed 9 x) = .ok y ∧ ReadBack 9 x y := by
  have hFew : 0 < 9 ∧ 9 ≤ 2048 := by norm_num
  obtain ⟨y, hParse, hRead⟩ := parse_fixed hFew.1 hFew.2 x
  exact ⟨y, by rw [readFloat, hParse], hRead⟩

theorem readLine_savetxtRow (tS x y z qx qy qz qw : Float) :
    ∃ line : TumLine, readLine (savetxtRow [tS, x, y, z, qx, qy, qz, qw]) = .ok (some line) ∧ ReadBack 9 tS line.tS ∧
      List.Forall₂ (ReadBack 9) [x, y, z, qx, qy, qz, qw] [line.x, line.y, line.z, line.qx, line.qy, line.qz, line.qw] := by
  have hWords := words_row [tS, x, y, z, qx, qy, qz, qw]
  obtain ⟨tS', hTs, hReadTs⟩ := readFloat_fixed tS
  obtain ⟨x', hX, hReadX⟩ := readFloat_fixed x
  obtain ⟨y', hY, hReadY⟩ := readFloat_fixed y
  obtain ⟨z', hZ, hReadZ⟩ := readFloat_fixed z
  obtain ⟨qx', hQx, hReadQx⟩ := readFloat_fixed qx
  obtain ⟨qy', hQy, hReadQy⟩ := readFloat_fixed qy
  obtain ⟨qz', hQz, hReadQz⟩ := readFloat_fixed qz
  obtain ⟨qw', hQw, hReadQw⟩ := readFloat_fixed qw
  have hFirst : ¬(savetxtRow [tS, x, y, z, qx, qy, qz, qw] = [] ∨ (savetxtRow [tS, x, y, z, qx, qy, qz, qw]).head? = some '#') := by
    obtain ⟨c, rest, hText⟩ := List.exists_cons_of_ne_nil (word_fixed (show 0 < 9 by norm_num) tS).nonempty
    have hRange := mem_fixed (show 0 < 9 by norm_num) tS c (hText ▸ List.mem_cons_self)
    have hHead := head?_intercalate c rest ([x, y, z, qx, qy, qz, qw].map (fixed 9))
    rw [← hText, ← List.map_cons] at hHead
    rintro (hNil | hComment)
    · rw [savetxtRow] at hNil
      rw [hNil] at hHead
      cases hHead
    · obtain rfl : c = '#' := Option.some.inj (hHead.symm.trans hComment)
      exact absurd hRange (by decide)
  have hRest : List.Forall₂ (ReadBack 9) [x, y, z, qx, qy, qz, qw] [x', y', z', qx', qy', qz', qw'] :=
    .cons hReadX (.cons hReadY (.cons hReadZ (.cons hReadQx (.cons hReadQy (.cons hReadQz (.cons hReadQw .nil))))))
  refine ⟨⟨tS', x', y', z', qx', qy', qz', qw'⟩, ?_, hReadTs, hRest⟩
  have hStrip : strip (savetxtRow [tS, x, y, z, qx, qy, qz, qw]) = savetxtRow [tS, x, y, z, qx, qy, qz, qw] :=
    strip_intercalate hWords
  have hSplit : split (savetxtRow [tS, x, y, z, qx, qy, qz, qw]) = [tS, x, y, z, qx, qy, qz, qw].map (fixed 9) :=
    split_intercalate hWords
  rw [readLine]
  simp only [hStrip, if_neg hFirst, hSplit, List.map_cons, List.map_nil, hTs, hX, hY, hZ, hQx, hQy, hQz, hQw]
  rfl

end Text

/-! ## What a file keeps -/

/-- The number that is read is the one nearest to the nine digits behind the point that have been printed. -/
structure SameNumber (x y : Float) : Prop extends PrintedFloat.ReadBack 9 x y where
  near : x.isFinite = true → |toRat y - toRat x| ≤ 1 / 10 ^ 9

/-- What is read where a pose has been saved: its time, to the microsecond, and its numbers. -/
structure Kept (pose : Slam.OdometryPose) (line : TumLine) : Prop where
  seconds : SameNumber (writtenTime pose.timestamp) line.tS
  time : ∃ tNs, truncate (line.tS * 1e9) = .ok tNs ∧ |tNs - pose.timestamp| < 1000
  position : SameNumber pose.position.1 line.x ∧ SameNumber pose.position.2.1 line.y ∧ SameNumber pose.position.2.2 line.z
  orientation : SameNumber pose.orientation.1 line.qx ∧ SameNumber pose.orientation.2.1 line.qy ∧
    SameNumber pose.orientation.2.2.1 line.qz ∧ SameNumber pose.orientation.2.2.2 line.qw

/-- All nine digits behind the point are zeros, and those before it. -/
def PrintedAsZero (x : Float) : Prop := x.isFinite = true ∧ |toRat x| ≤ 1 / 2 / 10 ^ 9

/-- No rotation can be made of such an orientation. -/
def Unoriented (pose : Slam.OdometryPose) : Prop :=
  PrintedAsZero pose.orientation.1 ∧ PrintedAsZero pose.orientation.2.1 ∧ PrintedAsZero pose.orientation.2.2.1 ∧
    PrintedAsZero pose.orientation.2.2.2

/-! ## The orientation of a pose -/

section Orientation

variable {qx qy qz qw : Float} {pose : Slam.OdometryPose} {poses : List Slam.OdometryPose} {line : TumLine}
  {lines : List TumLine}

/-- A number whose square is not lost. -/
def Coarse (x : Float) : Prop := toRat x ≠ 0 → 2 ^ (-537 : ℤ) ≤ |toRat x|

theorem norm_zero_iff (hX : Coarse qx) (hY : Coarse qy) (hZ : Coarse qz) (hW : Coarse qw) :
    ((qx * qx + qy * qy + qz * qz + qw * qw).sqrt == 0) = true ↔ Zero qx ∧ Zero qy ∧ Zero qz ∧ Zero qw := by
  have hSquare (x : Float) : Unsigned (x * x) := (square_spec x).2
  have hTwo := (add_spec (hSquare qx) (hSquare qy)).2
  have hThree := (add_spec hTwo (hSquare qz)).2
  have hFour := (add_spec hThree (hSquare qw)).2
  rw [beq_zero_iff, zero_sqrt_iff hFour, zero_add_iff hThree (hSquare qw), zero_add_iff hTwo (hSquare qz),
    zero_add_iff (hSquare qx) (hSquare qy), zero_square_iff hX, zero_square_iff hY, zero_square_iff hZ, zero_square_iff hW,
    and_assoc, and_assoc]

theorem zpow_le_lastDigit {k : ℤ} (h : k ≤ -30) : 2 ^ k ≤ (1 / 10 ^ 9 : ℚ) := by
  have hPower : (2 : ℚ) ^ k ≤ 2 ^ (-30 : ℤ) := zpow_le_zpow_right₀ (by norm_num) h
  exact hPower.trans (by norm_num)

theorem SameNumber.zero_iff {x y : Float} (h : SameNumber x y) : Zero y ↔ PrintedAsZero x :=
  h.toReadBack.zero_iff (zpow_le_lastDigit (by norm_num))

theorem SameNumber.coarse {x y : Float} (h : SameNumber x y) : Coarse y :=
  h.toReadBack.le_abs (by norm_num) (zpow_le_lastDigit (by norm_num))

/-- A line can be loaded unless its orientation is lost. -/
theorem Kept.sample (h : Kept pose line) :
    (Unoriented pose → line.sample = .error .zeroDivisionError) ∧ (¬Unoriented pose → ∃ sample, line.sample = .ok sample) := by
  obtain ⟨hX, hY, hZ, hW⟩ := h.orientation
  obtain ⟨tNs, hTime, -⟩ := h.time
  have hNorm := norm_zero_iff hX.coarse hY.coarse hZ.coarse hW.coarse
  rw [hX.zero_iff, hY.zero_iff, hZ.zero_iff, hW.zero_iff] at hNorm
  rw [TumLine.sample, hTime]
  constructor
  · intro hLost
    rw [quatToR, if_pos (hNorm.mpr hLost)]
    rfl
  · intro hTurned
    rw [quatToR, if_neg (mt hNorm.mp hTurned)]
    exact ⟨_, rfl⟩

/-- One lost orientation is enough for the load to fail. -/
theorem mapM_sample (h : List.Forall₂ Kept poses lines) :
    ((∀ pose ∈ poses, ¬Unoriented pose) → ∃ samples, lines.mapM TumLine.sample = .ok samples) ∧
      ((∃ pose ∈ poses, Unoriented pose) → lines.mapM TumLine.sample = .error .zeroDivisionError) := by
  induction h with
  | nil => exact ⟨fun _ => ⟨[], rfl⟩, fun ⟨_, hNone, _⟩ => absurd hNone List.not_mem_nil⟩
  | cons hHere hRest ih =>
    rename_i pose line poses lines
    obtain ⟨hFails, hLoads⟩ := hHere.sample
    obtain ⟨ihLoads, ihFails⟩ := ih
    rw [List.mapM_cons]
    constructor
    · intro hAll
      rw [List.forall_mem_cons] at hAll
      obtain ⟨sample, hSample⟩ := hLoads hAll.1
      obtain ⟨samples, hSamples⟩ := ihLoads hAll.2
      rw [hSample, hSamples]
      exact ⟨_, rfl⟩
    · intro hSome
      by_cases hLost : Unoriented pose
      · rw [hFails hLost]
        rfl
      · obtain ⟨sample, hSample⟩ := hLoads hLost
        rw [List.exists_mem_cons_iff, or_iff_right hLost] at hSome
        rw [hSample, ihFails hSome]
        rfl

end Orientation

section Lines
open PrintedFloat PythonText

variable {pose : Slam.OdometryPose} {poses : List Slam.OdometryPose} {line : TumLine} {lines : List TumLine}

theorem sameNumber {x y : Float} (h : ReadBack 9 x y) : SameNumber x y := ⟨h, h.near⟩

/-- A line of the file, and what is read of it. -/
structure ReadsAs (pose : Slam.OdometryPose) (line : TumLine) : Prop where
  text : readLine (savetxtRow (tumRow pose)) = .ok (some line)
  time : ReadBack 9 (writtenTime pose.timestamp) line.tS
  kept : Stamp pose.timestamp → Kept pose line

theorem exists_readsAs (pose : Slam.OdometryPose) : ∃ line, ReadsAs pose line := by
  obtain ⟨timestamp, ⟨x, y, z⟩, ⟨qx, qy, qz, qw⟩⟩ := pose
  obtain ⟨line, hText, hTime, hRest⟩ := readLine_savetxtRow (writtenTime timestamp) x y z qx qy qz qw
  simp only [List.forall₂_cons, List.Forall₂.nil, and_true] at hRest
  obtain ⟨hX, hY, hZ, hQx, hQy, hQz, hQw⟩ := hRest
  refine ⟨line, hText, hTime, fun hStamp => ⟨sameNumber hTime, loadedTime_near hStamp hTime, ?_, ?_⟩⟩
  · exact ⟨sameNumber hX, sameNumber hY, sameNumber hZ⟩
  · exact ⟨sameNumber hQx, sameNumber hQy, sameNumber hQz, sameNumber hQw⟩

theorem exists_lines (poses : List Slam.OdometryPose) : ∃ lines, List.Forall₂ ReadsAs poses lines := by
  induction poses with
  | nil => exact ⟨[], .nil⟩
  | cons pose poses ih =>
    obtain ⟨line, hLine⟩ := exists_readsAs pose
    obtain ⟨lines, hLines⟩ := ih
    exact ⟨line :: lines, .cons hLine hLines⟩

theorem forall₂_kept (h : List.Forall₂ ReadsAs poses lines) (hStamps : ∀ pose ∈ poses, Stamp pose.timestamp) :
    List.Forall₂ Kept poses lines :=
  (List.forall₂_and_left _ _).mpr ⟨hStamps, h⟩ |>.imp fun _ _ h => h.2.kept h.1

theorem mapM_loadLine (h : List.Forall₂ ReadsAs poses lines) :
    (poses.map fun pose => savetxtRow (tumRow pose)).mapM loadLine = (lines.mapM TumLine.sample).map fun samples => samples.map some := by
  induction h with
  | nil => rfl
  | cons hLine _ ih =>
    rename_i pose line poses lines _
    have hLoad : loadLine (savetxtRow (tumRow pose)) = line.sample.map some := by
      rw [loadLine, hLine.text]
      cases hSample : line.sample <;> simp [hSample, bind, Except.bind, Except.map, pure, Except.pure]
    rw [List.map_cons, List.mapM_cons, List.mapM_cons, ih, hLoad]
    cases line.sample with
    | error exc => rfl
    | ok sample => cases lines.mapM TumLine.sample <;> rfl

theorem loadTum_writeTum (h : List.Forall₂ ReadsAs poses lines) :
    loadTum (writeTum poses) = (lines.mapM TumLine.sample).map fun samples => samples.mergeSort fun a b => a.1 ≤ b.1 := by
  have hLines : ∀ text ∈ poses.map fun pose => savetxtRow (tumRow pose), ∀ c ∈ text, isLineBreak c = false := by
    intro text hText
    obtain ⟨pose, -, rfl⟩ := List.mem_map.mp hText
    exact isLineBreak_savetxtRow _
  have hReturns : ∀ c ∈ writeTum poses, c ≠ '\r' := by
    rintro c hc rfl
    obtain ⟨text, hText, hMem⟩ := List.mem_flatMap.mp hc
    rcases List.mem_append.mp hMem with hHere | hEnd
    · exact absurd (hLines text hText _ hHere) (by decide)
    · exact absurd hEnd (by decide)
  rw [loadTum, universalNewlines_eq hReturns, writeTum, splitlines_unlines hLines, mapM_loadLine h]
  cases lines.mapM TumLine.sample with
  | error exc => rfl
  | ok samples =>
    have hAll : (samples.map some).filterMap id = samples := by simp
    exact congrArg (fun found => Except.ok (found.mergeSort fun a b => decide (a.1 ≤ b.1))) hAll

/-- The sample of a line has its time. -/
theorem TumLine.sample_time {sample : ℤ × MapBase} (h : line.sample = .ok sample) : truncate (line.tS * 1e9) = .ok sample.1 := by
  obtain ⟨R, -, hRest⟩ := bind_ok h
  obtain ⟨tNs, hTime, hSample⟩ := bind_ok hRest
  cases hSample
  exact hTime

/-- A pose and what is loaded of it. -/
def LoadsAs (pose : Slam.OdometryPose) (sample : ℤ × MapBase) : Prop :=
  ∃ y, Stamp pose.timestamp ∧ ReadBack 9 (writtenTime pose.timestamp) y ∧ truncate (y * 1e9) = .ok sample.1

theorem LoadsAs.mono {pose' : Slam.OdometryPose} {sample sample' : ℤ × MapBase} (h : LoadsAs pose sample)
    (h' : LoadsAs pose' sample') (hOrder : pose.timestamp ≤ pose'.timestamp) : sample.1 ≤ sample'.1 := by
  obtain ⟨y, hStamp, hRead, hTime⟩ := h
  obtain ⟨y', hStamp', hRead', hTime'⟩ := h'
  exact loadedTime_mono hStamp hStamp' hRead hRead' hOrder hTime hTime'

theorem forall₂_loadsAs (h : List.Forall₂ ReadsAs poses lines) (hStamps : ∀ pose ∈ poses, Stamp pose.timestamp)
    {samples : List (ℤ × MapBase)} (hSamples : lines.mapM TumLine.sample = .ok samples) : List.Forall₂ LoadsAs poses samples := by
  have hLoaded := forall₂_of_mapM_ok hSamples
  clear hSamples
  induction h generalizing samples with
  | nil =>
    cases hLoaded
    exact .nil
  | cons hLine _ ih =>
    cases hLoaded with
    | cons hSample hRest =>
      rw [List.forall_mem_cons] at hStamps
      exact .cons ⟨_, hStamps.1, hLine.time, TumLine.sample_time hSample⟩ (ih hStamps.2 hRest)

theorem LoadsAs.source {samples : List (ℤ × MapBase)} (h : List.Forall₂ LoadsAs poses samples) {sample : ℤ × MapBase}
    (hSample : sample ∈ samples) : ∃ pose ∈ poses, LoadsAs pose sample := by
  induction h with
  | nil => cases hSample
  | cons hHere _ ih =>
    rcases List.mem_cons.mp hSample with rfl | hLater
    · exact ⟨_, List.mem_cons_self, hHere⟩
    · obtain ⟨pose, hPose, hLoads⟩ := ih hLater
      exact ⟨pose, List.mem_cons_of_mem _ hPose, hLoads⟩

/-- Poses in the order of their stamps are loaded in that order. -/
theorem pairwise_samples {samples : List (ℤ × MapBase)} (h : List.Forall₂ LoadsAs poses samples)
    (hOrder : poses.Pairwise fun a b => a.timestamp ≤ b.timestamp) : samples.Pairwise fun a b => a.1 ≤ b.1 := by
  induction h with
  | nil => exact .nil
  | cons hHere hRest ih =>
    obtain ⟨hFirst, hLater⟩ := List.pairwise_cons.mp hOrder
    refine .cons (fun sample hSample => ?_) (ih hLater)
    obtain ⟨pose, hPose, hLoads⟩ := LoadsAs.source hRest hSample
    exact hHere.mono hLoads (hFirst pose hPose)

/-- A pose whose orientation is zero, or too near to zero for the digits, takes all poses with it: the file cannot be loaded. -/
theorem loadTum_of_unoriented (h : List.Forall₂ ReadsAs poses lines) (hStamps : ∀ pose ∈ poses, Stamp pose.timestamp)
    (hLost : ∃ pose ∈ poses, Unoriented pose) : loadTum (writeTum poses) = .error .zeroDivisionError := by
  rw [loadTum_writeTum h, (mapM_sample (forall₂_kept h hStamps)).2 hLost]
  rfl

end Lines

/-- Whatever a tool builds a mesh from, each pose of the odometry has a line of its own in `trajectory.tum`, which is read
with its time to the microsecond and with the numbers nearest to those that are printed. Where every orientation has a digit
that is printed, all lines are loaded in the order of the stamps, which is that of the messages where their stamps do not go
back; else none is. -/
theorem trajectory_file_keeps_poses {start node : Slam.MeshBuilder} {events : List Slam.MeshBuilderEvent}
    (hMethod : start.method ≠ "nvblox") (hStart : start.poses = []) (hRun : start.run events = some node) :
    node.poses = events.filterMap Slam.MeshBuilderEvent.pose? ∧
    (∀ tools, node.poses ≠ [] → (node.doBuild tools).2.trajectory = some node.poses) ∧
    ∃ lines : List TumLine, List.Forall₂ Kept node.poses lines ∧
      ((∀ pose ∈ node.poses, ¬Unoriented pose) → ∃ samples, lines.mapM TumLine.sample = .ok samples ∧
        loadTum (writeTum node.poses) = .ok (samples.mergeSort fun a b => a.1 ≤ b.1) ∧
        (node.poses.Pairwise (fun a b => a.timestamp ≤ b.timestamp) → loadTum (writeTum node.poses) = .ok samples)) ∧
      ((∃ pose ∈ node.poses, Unoriented pose) → loadTum (writeTum node.poses) = .error .zeroDivisionError) := by
  obtain ⟨hSame, hPoses⟩ := Slam.MeshBuilder.poses_run hRun
  rw [hStart, List.nil_append] at hPoses
  have hStamps : ∀ pose ∈ node.poses, Stamp pose.timestamp := by
    rw [hPoses]
    intro pose hPose
    obtain ⟨event, -, hEvent⟩ := List.mem_filterMap.mp hPose
    cases event with
    | odom msg =>
      cases hEvent
      exact stamp_stampNs msg.sec msg.nanosec
    | lidar | build => cases hEvent
  obtain ⟨lines, hLines⟩ := exists_lines node.poses
  have hKept := forall₂_kept hLines hStamps
  refine ⟨hPoses, fun tools => Slam.trajectory_doBuild tools (by rwa [hSame]), lines, hKept, ?_,
    loadTum_of_unoriented hLines hStamps⟩
  intro hOriented
  obtain ⟨samples, hSamples⟩ := (mapM_sample hKept).1 hOriented
  have hLoad : loadTum (writeTum node.poses) = .ok (samples.mergeSort fun a b => a.1 ≤ b.1) := by
    rw [loadTum_writeTum hLines, hSamples]
    rfl
  refine ⟨samples, hSamples, hLoad, fun hOrder => hLoad.trans ?_⟩
  have hSorted := pairwise_samples (forall₂_loadsAs hLines hStamps hSamples) hOrder
  exact congrArg Except.ok (List.mergeSort_of_pairwise (by simpa using hSorted))

/-- Two poses, a second apart, are loaded; with a third one whose orientation has not been set none is. -/
theorem trajectory_file_keeps_poses_built : ∃ node lost : Slam.MeshBuilder, node.poses.length = 2 ∧
    (node.doBuild ⟨.notAdvertised, 0, true, false, 0, false⟩).2.trajectory = some node.poses ∧
    (∃ lines : List TumLine, List.Forall₂ Kept node.poses lines ∧
      ∃ samples, lines.mapM TumLine.sample = .ok samples ∧ loadTum (writeTum node.poses) = .ok samples) ∧
    lost.poses.length = 3 ∧ loadTum (writeTum lost.poses) = .error .zeroDivisionError := by
  let start : Slam.MeshBuilder := ⟨"poisson", "/tmp/rove_slam_mesh", "", 600, false, "", "", [], [], ⟨none, none⟩⟩
  let events : List Slam.MeshBuilderEvent :=
    [.odom ⟨1700000000, 123456789, (1, -2, 3.5), (0, 0, 0, 1)⟩, .odom ⟨1700000001, 5, (1, -2, 0), (0, 0, 1, 0)⟩]
  obtain ⟨node, hRun⟩ : ∃ node, start.run events = some node := ⟨_, rfl⟩
  obtain ⟨lost, hRunLost⟩ : ∃ lost, start.run (events ++ [.odom ⟨1700000002, 0, (1, 0, 0), (0, 0, 0, 0)⟩]) = some lost := ⟨_, rfl⟩
  have hMethod : start.method ≠ "nvblox" := by decide
  obtain ⟨hPoses, hFile, lines, hKept, hLoad, -⟩ := trajectory_file_keeps_poses hMethod (show start.poses = [] from rfl) hRun
  obtain ⟨hLost, -, -, -, -, hFails⟩ := trajectory_file_keeps_poses hMethod (show start.poses = [] from rfl) hRunLost
  have hOne : ¬PrintedAsZero 1 := by
    rintro ⟨-, hSmall⟩
    rw [show toRat 1 = 1 by decide +kernel] at hSmall
    norm_num at hSmall
  have hZero : PrintedAsZero 0 := by
    refine ⟨by decide +kernel, ?_⟩
    rw [show toRat 0 = 0 by decide +kernel]
    norm_num
  have hOriented : ∀ pose ∈ node.poses, ¬Unoriented pose := by
    rw [hPoses]
    exact List.forall_mem_cons.mpr ⟨fun h => hOne h.2.2.2, List.forall_mem_singleton.mpr fun h => hOne h.2.2.1⟩
  obtain ⟨samples, hSamples, -, hInOrder⟩ := hLoad hOriented
  have hLength : node.poses.length = 2 := congrArg List.length hPoses
  refine ⟨node, lost, hLength, hFile _ (List.ne_nil_of_length_pos (by omega)), ⟨lines, hKept, samples, hSamples, hInOrder ?_⟩,
    congrArg List.length hLost, hFails ⟨⟨1700000002 * 10 ^ 9, (1, 0, 0), (0, 0, 0, 0)⟩, ?_, hZero, hZero, hZero, hZero⟩⟩
  · rw [hPoses]
    refine .cons (fun pose hPose => ?_) (.cons (fun _ hNone => absurd hNone List.not_mem_nil) .nil)
    obtain rfl := List.mem_singleton.mp hPose
    decide
  · rw [hLost]
    exact List.mem_of_getElem? (i := 2) rfl

end RoveMapping.ColorMesh.TrajectoryFile
