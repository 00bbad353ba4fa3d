import Mathlib

/-! # Signs and undefined values of binary64

Which operations on `Float` give a NaN, and which give nothing negative. Sums of squares and their roots
are not negative, and undefined exactly when an operand is.
-/
namespace Binary64
open Float.Model
open Float.Model.UnpackedFloat (Sign packComponents unpackMantissa unpackExponent unpackSign packedInfinity packedZero packedNaN)
set_option autoImplicit false

def NotNegative : UnpackedFloat → Prop
  | .infinity .negative | .finite .negative _ _ _ => False
  | _ => True

instance : DecidablePred NotNegative
  | .infinity .negative | .finite .negative _ _ _ => isFalse id
  | .infinity .positive | .finite .positive _ _ _ | .zero _ | .notANumber => isTrue trivial

inductive Signed (sign : Sign) : UnpackedFloat → Prop where
  | infinity : Signed sign (.infinity sign)
  | zero : Signed sign (.zero sign)
  | finite (mantissa : ℕ) (exponent : ℤ) (hPos : 0 < mantissa) : Signed sign (.finite sign mantissa exponent hPos)

theorem Signed.notNegative {u : UnpackedFloat} (h : Signed .positive u) : NotNegative u := by
  cases h <;> trivial

theorem Signed.isNaN {sign : Sign} {u : UnpackedFloat} (h : Signed sign u) : u.isNaN = false := by
  cases h <;> rfl

/-! ## Packing -/

@[simp] theorem unpackSign_components {spec : Format} {sign : Sign} {exponent : BitVec spec.exponentBits}
    {mantissa : BitVec spec.mantissaBitsWithoutImplicit} :
    Sign.ofBitVec (unpackSign (packComponents spec sign exponent mantissa)) = sign := by
  have hBits : unpackSign (packComponents spec sign exponent mantissa) = sign.toBitVec := by
    ext i hi
    obtain rfl : i = 0 := by omega
    simp [unpackSign, packComponents, BitVec.getLsbD_append, BitVec.getElem_append]
  rw [hBits]
  cases sign <;> rfl

/-- Where the exponent is not the one of the infinities, the sign is kept and there is a number. -/
theorem signed_components {sign : Sign} {exponent : BitVec Format.binary64.exponentBits}
    {mantissa : BitVec Format.binary64.mantissaBitsWithoutImplicit} (hExponent : exponent ≠ -1#_) :
    Signed sign (.unpack .binary64 (packComponents .binary64 sign exponent mantissa)) := by
  unfold UnpackedFloat.unpack
  simp only [UnpackedFloat.unpackExponent_packComponents, UnpackedFloat.unpackMantissa_packComponents, unpackSign_components]
  rw [if_neg hExponent]
  split
  · split
    · exact .zero
    · exact .finite _ _ _
  · exact .finite _ _ _

theorem unpack_infinity (sign : Sign) : UnpackedFloat.unpack .binary64 (packedInfinity .binary64 sign) = .infinity sign := by
  simp only [UnpackedFloat.unpack, packedInfinity, UnpackedFloat.unpackExponent_packComponents,
    UnpackedFloat.unpackMantissa_packComponents, unpackSign_components]
  rfl

theorem unpack_zero (sign : Sign) : UnpackedFloat.unpack .binary64 (packedZero .binary64 sign) = .zero sign := by
  simp only [UnpackedFloat.unpack, packedZero, UnpackedFloat.unpackExponent_packComponents,
    UnpackedFloat.unpackMantissa_packComponents, unpackSign_components]
  rfl

theorem signed_pack {sign : Sign} {u : UnpackedFloat} (h : Signed sign u) : Signed sign (Float.Model.pack u).unpack := by
  change Signed sign (UnpackedFloat.unpack Format.binary64 (UnpackedFloat.pack Format.binary64 u))
  cases h with
  | infinity =>
    rw [UnpackedFloat.pack, unpack_infinity]
    exact .infinity
  | zero =>
    rw [UnpackedFloat.pack, unpack_zero]
    exact .zero
  | finite mantissa exponent hPos =>
    unfold UnpackedFloat.pack
    dsimp only
    split
    · rw [unpack_infinity]
      exact .infinity
    · rename_i hFits
      split
      · apply signed_components
        intro hAll
        have hNat := congrArg BitVec.toNat hAll
        rw [BitVec.toNat_ofNat, Nat.mod_eq_of_lt (by omega)] at hNat
        rw [hNat] at hFits
        exact hFits (by decide)
      · exact signed_components (by decide)

theorem unpack_pack_nan : (Float.Model.pack .notANumber).unpack = .notANumber := by
  change UnpackedFloat.unpack Format.binary64 (packedNaN Format.binary64) = _
  simp only [UnpackedFloat.unpack, packedNaN, UnpackedFloat.unpackExponent_packComponents,
    UnpackedFloat.unpackMantissa_packComponents, unpackSign_components]
  rfl

theorem isNaN_pack (u : UnpackedFloat) : (Float.Model.pack u).unpack.isNaN = u.isNaN := by
  cases u with
  | notANumber => rw [unpack_pack_nan]
  | infinity sign => exact (signed_pack .infinity).isNaN
  | zero sign => exact (signed_pack .zero).isNaN
  | finite sign mantissa exponent hPos => exact (signed_pack (.finite mantissa exponent hPos)).isNaN

theorem notNegative_pack {u : UnpackedFloat} (h : NotNegative u) : NotNegative (Float.Model.pack u).unpack := by
  cases u with
  | notANumber =>
    rw [unpack_pack_nan]
    trivial
  | zero sign =>
    change NotNegative (UnpackedFloat.unpack Format.binary64 (packedZero Format.binary64 sign))
    rw [unpack_zero]
    trivial
  | infinity sign =>
    cases sign with
    | negative => exact h.elim
    | positive => exact (signed_pack .infinity).notNegative
  | finite sign mantissa exponent hPos =>
    cases sign with
    | negative => exact h.elim
    | positive => exact (signed_pack (.finite mantissa exponent hPos)).notNegative

/-! ## The operations before packing -/

theorem signed_round (spec : Format) (sign : Sign) (mantissa : ℕ) (exponent : ℤ) (accuracy : UnpackedFloat.Accuracy) :
    Signed sign (UnpackedFloat.roundWithAccuracy spec sign mantissa exponent accuracy) := by
  unfold UnpackedFloat.roundWithAccuracy
  dsimp only
  split
  · exact .zero
  · exact .finite _ _ _

theorem isNaN_normalize (spec : Format) (mantissa exponent : ℤ) (sign : Sign) :
    (UnpackedFloat.normalize spec mantissa exponent sign).isNaN = false := by
  unfold UnpackedFloat.normalize
  split
  · exact (signed_round ..).isNaN
  · rfl
  · exact (signed_round ..).isNaN

theorem notNegative_normalize (spec : Format) {mantissa : ℤ} (exponent : ℤ) (h : 0 ≤ mantissa) :
    NotNegative (UnpackedFloat.normalize spec mantissa exponent .positive) := by
  unfold UnpackedFloat.normalize
  split
  · rename_i hLess
    exact absurd (Int.compare_eq_lt.mp hLess) (by omega)
  · trivial
  · exact (signed_round ..).notNegative

theorem isNaN_sub (spec : Format) (u v : UnpackedFloat) : (UnpackedFloat.sub spec u v).isNaN = true ↔
    u.isNaN = true ∨ v.isNaN = true ∨ ∃ sign, u = .infinity sign ∧ v = .infinity sign := by
  cases u with
  | notANumber => simp [UnpackedFloat.sub, UnpackedFloat.isNaN]
  | infinity sign =>
    cases v with
    | infinity sign' => cases sign <;> cases sign' <;> simp [UnpackedFloat.sub, UnpackedFloat.isNaN] <;> rfl
    | _ => simp [UnpackedFloat.sub, UnpackedFloat.isNaN]
  | zero sign =>
    cases v with
    | zero sign' =>
      cases sign <;> cases sign' <;> simp [UnpackedFloat.sub, UnpackedFloat.isNaN]
      rfl
    | _ => simp [UnpackedFloat.sub, UnpackedFloat.isNaN]
  | finite sign mantissa exponent hPos =>
    cases v with
    | finite sign' mantissa' exponent' hPos' =>
      have hNumber := isNaN_normalize spec
      simp only [UnpackedFloat.sub, hNumber]
      simp [UnpackedFloat.isNaN]
    | _ => simp [UnpackedFloat.sub, UnpackedFloat.isNaN]

theorem sign_mul_self (sign : Sign) : sign * sign = .positive := by
  cases sign <;> rfl

theorem mul_self (spec : Format) (u : UnpackedFloat) :
    (UnpackedFloat.mul spec u u).isNaN = u.isNaN ∧ NotNegative (UnpackedFloat.mul spec u u) := by
  cases u with
  | notANumber => exact ⟨rfl, trivial⟩
  | infinity sign =>
    simp only [UnpackedFloat.mul, sign_mul_self]
    exact ⟨rfl, trivial⟩
  | zero sign => exact ⟨rfl, trivial⟩
  | finite sign mantissa exponent hPos =>
    simp only [UnpackedFloat.mul, sign_mul_self]
    exact ⟨(signed_round ..).isNaN, (signed_round ..).notNegative⟩

theorem add_notNegative (spec : Format) {u v : UnpackedFloat} (hu : NotNegative u) (hv : NotNegative v) :
    (UnpackedFloat.add spec u v).isNaN = (u.isNaN || v.isNaN) ∧ NotNegative (UnpackedFloat.add spec u v) := by
  cases u with
  | notANumber => exact ⟨rfl, trivial⟩
  | infinity sign =>
    cases sign with
    | negative => exact hu.elim
    | positive =>
      cases v with
      | infinity sign' =>
        cases sign' with
        | negative => exact hv.elim
        | positive => exact ⟨rfl, trivial⟩
      | notANumber | zero | finite => exact ⟨rfl, trivial⟩
  | zero sign =>
    cases v with
    | infinity sign' => exact ⟨rfl, hv⟩
    | zero sign' =>
      simp only [UnpackedFloat.add]
      split
      · exact ⟨rfl, trivial⟩
      · exact ⟨rfl, trivial⟩
    | notANumber => exact ⟨rfl, trivial⟩
    | finite => exact ⟨rfl, hv⟩
  | finite sign mantissa exponent hPos =>
    cases sign with
    | negative => exact hu.elim
    | positive =>
      cases v with
      | infinity sign' => exact ⟨rfl, hv⟩
      | notANumber => exact ⟨rfl, trivial⟩
      | zero => exact ⟨rfl, trivial⟩
      | finite sign' mantissa' exponent' hPos' =>
        cases sign' with
        | negative => exact hv.elim
        | positive =>
          refine ⟨isNaN_normalize .., notNegative_normalize _ _ ?_⟩
          exact Int.add_nonneg (Int.natCast_nonneg _) (Int.natCast_nonneg _)

theorem sqrt_notNegative (spec : Format) {u : UnpackedFloat} (hu : NotNegative u) :
    (UnpackedFloat.sqrt spec u).isNaN = u.isNaN ∧ NotNegative (UnpackedFloat.sqrt spec u) := by
  cases u with
  | notANumber => exact ⟨rfl, trivial⟩
  | infinity sign =>
    cases sign with
    | negative => exact hu.elim
    | positive => exact ⟨rfl, trivial⟩
  | zero sign => exact ⟨rfl, trivial⟩
  | finite sign mantissa exponent hPos =>
    cases sign with
    | negative => exact hu.elim
    | positive => exact ⟨(signed_round ..).isNaN, (signed_round ..).notNegative⟩

/-! ## The comparisons -/

theorem compare_nan {u v : UnpackedFloat} (h : u.isNaN = true ∨ v.isNaN = true) : u.compare v = none := by
  cases u with
  | notANumber => rfl
  | infinity | zero | finite =>
    cases v with
    | notANumber => rfl
    | infinity | zero | finite => cases h <;> contradiction

theorem compare_isSome {u v : UnpackedFloat} (hu : u.isNaN = false) (hv : v.isNaN = false) : (u.compare v).isSome := by
  unfold UnpackedFloat.compare
  split <;> first | rfl | contradiction

theorem compare_swap (u v : UnpackedFloat) : v.compare u = (u.compare v).map Ordering.swap := by
  have hPair : ∀ (e e' : ℤ) (m m' : ℕ), (compare e' e).then (compare m' m) = ((compare e e').then (compare m m')).swap := by
    intro e e' m m'
    rw [Ordering.swap_then, ← Std.OrientedCmp.eq_swap, ← Std.OrientedCmp.eq_swap]
  rcases u with ⟨_ | _⟩ | _ | _ | ⟨_ | _, m, e, _⟩ <;> rcases v with ⟨_ | _⟩ | _ | _ | ⟨_ | _, m', e', _⟩
  case finite.negative.finite.negative => exact congrArg some (congrArg Ordering.swap (hPair e e' m m'))
  case finite.positive.finite.positive => exact congrArg some (hPair e e' m m')
  all_goals rfl

theorem same_infinity {u v : UnpackedFloat} :
    (∃ sign, u = .infinity sign ∧ v = .infinity sign) ↔ u.isInf = true ∧ u.beq v = true := by
  constructor
  · rintro ⟨sign, rfl, rfl⟩
    cases sign <;> exact ⟨rfl, rfl⟩
  · rintro ⟨hInf, hSame⟩
    cases u with
    | infinity sign =>
      cases sign <;> rcases v with ⟨_ | _⟩ | _ | _ | ⟨_ | _, _, _, _⟩ <;>
        first | exact ⟨_, rfl, rfl⟩ | cases hSame
    | notANumber | zero | finite => cases hInf

/-! ## The operations of `Float` -/

variable {x y : Float}

/-- Not below zero: zero of either sign, positive, or a NaN. -/
def Unsigned (x : Float) : Prop := NotNegative x.toModel.unpack

/-- The number that a finite value stands for. -/
def toRat (x : Float) : ℚ :=
  match x.toModel.unpack with
  | .finite sign mantissa exponent _ => sign.apply mantissa * 2 ^ exponent
  | _ => 0

theorem isNaN_of_isFinite (h : x.isFinite = true) : x.isNaN = false := by
  have hFinite : x.toModel.unpack.isFinite = true := h
  change x.toModel.unpack.isNaN = false
  cases hUnpack : x.toModel.unpack with
  | notANumber =>
    rw [hUnpack] at hFinite
    cases hFinite
  | infinity | zero | finite => rfl

theorem isNaN_sub_iff : (x - y).isNaN = true ↔ x.isNaN = true ∨ y.isNaN = true ∨ (x.isInf = true ∧ (x == y) = true) := by
  have hSub : (x - y).isNaN = (UnpackedFloat.sub Format.binary64 x.toModel.unpack y.toModel.unpack).isNaN := isNaN_pack _
  rw [hSub, isNaN_sub, same_infinity]
  rfl

theorem unsigned_zero : Unsigned 0 := by
  unfold Unsigned
  decide +kernel

theorem square_spec (x : Float) : (x * x).isNaN = x.isNaN ∧ Unsigned (x * x) :=
  ⟨(isNaN_pack _).trans (mul_self _ _).1, notNegative_pack (mul_self _ _).2⟩

theorem add_spec (hx : Unsigned x) (hy : Unsigned y) : (x + y).isNaN = (x.isNaN || y.isNaN) ∧ Unsigned (x + y) :=
  ⟨(isNaN_pack _).trans (add_notNegative _ hx hy).1, notNegative_pack (add_notNegative _ hx hy).2⟩

theorem sqrt_spec (hx : Unsigned x) : x.sqrt.isNaN = x.isNaN ∧ Unsigned x.sqrt :=
  ⟨(isNaN_pack _).trans (sqrt_notNegative _ hx).1, notNegative_pack (sqrt_notNegative _ hx).2⟩

theorem le_iff : x ≤ y ↔ x.toModel.unpack.le y.toModel.unpack = true :=
  decide_eq_true_iff (p := x.toModel ≤ y.toModel)

theorem lt_iff : x < y ↔ x.toModel.unpack.lt y.toModel.unpack = true :=
  decide_eq_true_iff (p := x.toModel < y.toModel)

theorem not_le_of_isNaN (h : y.isNaN = true) : ¬x ≤ y := by
  rw [le_iff, UnpackedFloat.le, compare_nan (.inr h)]
  exact nofun

theorem not_lt_of_isNaN (h : x.isNaN = true) : ¬x < y := by
  rw [lt_iff, UnpackedFloat.lt, compare_nan (.inl h)]
  exact nofun

theorem not_lt_of_le (h : x ≤ y) : ¬y < x := by
  rw [le_iff, UnpackedFloat.le] at h
  rw [lt_iff, UnpackedFloat.lt, compare_swap]
  cases hOrder : x.toModel.unpack.compare y.toModel.unpack with
  | none => exact nofun
  | some order =>
    rw [hOrder] at h
    cases order with
    | lt | eq => exact nofun
    | gt => cases h

theorem le_of_not_lt (hx : x.isNaN = false) (hy : y.isNaN = false) (h : ¬x < y) : y ≤ x := by
  obtain ⟨order, hOrder⟩ := Option.isSome_iff_exists.mp (compare_isSome hx hy)
  rw [lt_iff, UnpackedFloat.lt, hOrder] at h
  rw [le_iff, UnpackedFloat.le, compare_swap, hOrder]
  cases order with
  | lt => exact absurd rfl h
  | eq => rfl
  | gt => rfl

end Binary64
