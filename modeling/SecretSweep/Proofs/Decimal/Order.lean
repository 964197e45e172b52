import Mathlib.Algebra.Order.Ring.Int
import Mathlib.Order.Compare
import Mathlib.Tactic.SplitIfs
import SecretSweep.Decimal.Binary

/-!
The order of floating point numbers, other than not-a-number, is that of their keys.
-/

namespace SecretSweep.Decimal

open Float.Model Float.Model.UnpackedFloat

/-- Whether an unpacked number has this sign and, apart from the sign, these bits. -/
def HasKey (sign : Sign) (magnitude : Nat) : UnpackedFloat → Prop
  | .notANumber => False
  | .infinity s => s = sign ∧ magnitude = 2047 * 2 ^ 52
  | .zero s => s = sign ∧ magnitude = 0
  | .finite s mantissa exponent _ => s = sign ∧ mantissa < 2 ^ 53 ∧ -1074 ≤ exponent ∧
      exponent ≤ 971 ∧ (-1074 < exponent → 2 ^ 52 ≤ mantissa) ∧
      (magnitude : Int) = (exponent + 1074) * 2 ^ 52 + mantissa

theorem toNat_unpackMantissa (b : BitVec 64) :
    (@unpackMantissa Format.binary64 b).toNat = b.toNat % 2 ^ 52 := by
  show (BitVec.extractLsb 51 0 b).toNat = _
  simp [BitVec.extractLsb_toNat]

theorem toNat_unpackExponent (b : BitVec 64) :
    (@unpackExponent Format.binary64 b).toNat = b.toNat / 2 ^ 52 % 2 ^ 11 := by
  show (BitVec.extractLsb 62 52 b).toNat = _
  simp [BitVec.extractLsb_toNat, Nat.shiftRight_eq_div_pow]

theorem toNat_unpackSign (b : BitVec 64) :
    (@unpackSign Format.binary64 b).toNat = b.toNat / 2 ^ 63 % 2 := by
  show (BitVec.extractLsb 63 63 b).toNat = _
  simp [BitVec.extractLsb_toNat, Nat.shiftRight_eq_div_pow]

theorem unpackExponent_eq_ones_iff (b : BitVec 64) :
    @unpackExponent Format.binary64 b = -1#_ ↔ b.toNat / 2 ^ 52 % 2 ^ 11 = 2047 := by
  rw [← BitVec.toNat_inj, toNat_unpackExponent]
  rfl

theorem unpackExponent_eq_zero_iff (b : BitVec 64) :
    @unpackExponent Format.binary64 b = 0#_ ↔ b.toNat / 2 ^ 52 % 2 ^ 11 = 0 := by
  rw [← BitVec.toNat_inj, toNat_unpackExponent]
  rfl

theorem unpackMantissa_eq_zero_iff (b : BitVec 64) :
    @unpackMantissa Format.binary64 b = 0#_ ↔ b.toNat % 2 ^ 52 = 0 := by
  rw [← BitVec.toNat_inj, toNat_unpackMantissa]
  rfl

theorem toNat_leading {f : Nat} (m : BitVec f) : (1#1 ++ m).toNat = 2 ^ f + m.toNat := by
  rw [BitVec.toNat_append, ← Nat.shiftLeft_add_eq_or_of_lt m.isLt]
  simp [Nat.shiftLeft_eq]

theorem sign_unpackSign (b : BitVec 64) :
    Sign.ofBitVec (@unpackSign Format.binary64 b) =
      if b.toNat.testBit 63 then .negative else .positive := by
  have hbit : @unpackSign Format.binary64 b = 0#1 ↔ b.toNat.testBit 63 = false := by
    rw [← BitVec.toNat_inj, toNat_unpackSign, Nat.testBit_eq_decide_div_mod_eq]
    simp
  unfold Sign.ofBitVec
  by_cases h : b.toNat.testBit 63 <;> simp [hbit, h]

/-- A number that is unpacked has the sign and the magnitude of its bits, or is not-a-number. -/
theorem hasKey_unpack (b : BitVec 64) :
    UnpackedFloat.unpack Format.binary64 b = .notANumber ∨
      HasKey (if b.toNat.testBit 63 then .negative else .positive) (b.toNat % 2 ^ 63)
        (UnpackedFloat.unpack Format.binary64 b) := by
  have he := toNat_unpackExponent b
  have hm := toNat_unpackMantissa b
  have hlead : (1#1 ++ @unpackMantissa Format.binary64 b).toNat = 2 ^ 52 + b.toNat % 2 ^ 52 := by
    rw [toNat_leading, hm]
  have hones := unpackExponent_eq_ones_iff b
  have hnull := unpackExponent_eq_zero_iff b
  have hnone := unpackMantissa_eq_zero_iff b
  have hparts : b.toNat % 2 ^ 63 = b.toNat / 2 ^ 52 % 2 ^ 11 * 2 ^ 52 + b.toNat % 2 ^ 52 := by omega
  have hbias : Format.binary64.exponentBias = 1023 := rfl
  unfold UnpackedFloat.unpack
  dsimp only
  rw [sign_unpackSign]
  generalize (if b.toNat.testBit 63 then Sign.negative else Sign.positive) = sign
  -- The two exponents that are set apart first: all ones, and zero.
  by_cases hmax : b.toNat / 2 ^ 52 % 2 ^ 11 = 2047
  · rw [if_pos (hones.mpr hmax)]
    by_cases hzero : b.toNat % 2 ^ 52 = 0
    · rw [if_pos (hnone.mpr hzero)]
      exact .inr ⟨rfl, by omega⟩
    · rw [if_neg (mt hnone.mp hzero)]
      exact .inl rfl
  rw [if_neg (mt hones.mp hmax)]
  by_cases hmin : b.toNat / 2 ^ 52 % 2 ^ 11 = 0
  · rw [if_pos (hnull.mpr hmin)]
    by_cases hzero : b.toNat % 2 ^ 52 = 0
    · rw [dif_pos (hnone.mpr hzero)]
      exact .inr ⟨rfl, by omega⟩
    · rw [dif_neg (mt hnone.mp hzero)]
      refine .inr ⟨rfl, ?_, ?_, ?_, ?_, ?_⟩ <;> omega
  · rw [if_neg (mt hnull.mp hmin)]
    refine .inr ⟨rfl, ?_, ?_, ?_, ?_, ?_⟩ <;> omega

/-- Numbers with larger exponents are larger. -/
theorem compare_finite {m n : Nat} {d e : Int} (hm : m < 2 ^ 53) (hn : n < 2 ^ 53)
    (hm' : e < d → 2 ^ 52 ≤ m) (hn' : d < e → 2 ^ 52 ≤ n) :
    (compare d e).then (compare m n) =
      compare ((d + 1074) * 2 ^ 52 + (m : Int)) ((e + 1074) * 2 ^ 52 + (n : Int)) := by
  have hless {a b : Int} (h : a < b) : compare a b = .lt := compare_lt_iff_lt.mpr h
  have hmore {a b : Int} (h : b < a) : compare a b = .gt := compare_gt_iff_gt.mpr h
  rcases lt_trichotomy d e with h | rfl | h
  · rw [hless h, hless (by omega)]
    rfl
  · rw [compare_eq_iff_eq.mpr rfl, Ordering.eq_then]
    rcases lt_trichotomy m n with h | rfl | h
    · rw [compare_lt_iff_lt.mpr h, hless (by omega)]
    · rw [compare_eq_iff_eq.mpr rfl, compare_eq_iff_eq.mpr rfl]
    · rw [compare_gt_iff_gt.mpr h, hmore (by omega)]
  · rw [hmore h, hmore (by omega)]
    rfl

theorem compare_neg_neg (a b : Int) : compare (-a) (-b) = (compare a b).swap := by
  rcases lt_trichotomy a b with h | rfl | h
  · rw [compare_lt_iff_lt.mpr h, compare_gt_iff_gt.mpr (by omega)]
    rfl
  · rw [compare_eq_iff_eq.mpr rfl, compare_eq_iff_eq.mpr rfl]
    rfl
  · rw [compare_gt_iff_gt.mpr h, compare_lt_iff_lt.mpr (by omega)]
    rfl

/-- Unpacked numbers are compared as the numbers that their bits make up. -/
theorem compare_of_hasKey {s t : Sign} {m n : Nat} {u v : UnpackedFloat} (hu : HasKey s m u)
    (hv : HasKey t n v) : u.compare v = some (compare (s.apply m) (t.apply n)) := by
  have hless {a b : Int} : .lt = compare a b ↔ a < b := eq_comm.trans compare_lt_iff_lt
  have hmore {a b : Int} : .gt = compare a b ↔ b < a := eq_comm.trans compare_gt_iff_gt
  have hsame {a b : Int} : .eq = compare a b ↔ a = b := eq_comm.trans compare_eq_iff_eq
  rcases u with s | _ | s | ⟨s, k, d⟩ <;> rcases v with t | _ | t | ⟨t, l, e⟩ <;>
    obtain ⟨rfl, hu⟩ := hu <;> obtain ⟨rfl, hv⟩ := hv <;> dsimp only [UnpackedFloat.compare]
  case finite.finite =>
    obtain ⟨hk, hd, -, hnormal, hm⟩ := hu
    obtain ⟨hl, he, -, hnormal', hn⟩ := hv
    have hfinite : (compare d e).then (compare k l) = compare (m : Int) n := by
      rw [hm, hn]
      exact compare_finite hk hl (fun h => hnormal (by omega)) fun h => hnormal' (by omega)
    cases s <;> cases t
    · simp only [hfinite, Sign.apply, compare_neg_neg]
    · simp only [Option.some.injEq, Sign.apply, hless]
      omega
    · simp only [Option.some.injEq, Sign.apply, hmore]
      omega
    · simp only [hfinite, Sign.apply]
  case infinity.infinity =>
    subst hu hv
    cases s <;> cases t <;> rfl
  all_goals
    cases s <;> cases t <;>
    simp only [Option.some.injEq, Sign.apply, hless, hmore, hsame] <;>
    omega

/-- A key is the number that the bits below the sign make up, with the sign. -/
theorem orderKey_eq (x : Float) : orderKey x =
    (if x.toBits.toNat.testBit 63 then Sign.negative else .positive).apply
      (x.toBits.toNat % 2 ^ 63 : Nat) := by
  have hlt : x.toBits.toNat < 2 ^ 64 := x.toBits.toBitVec.isLt
  unfold orderKey
  dsimp only
  rw [Nat.testBit_eq_decide_div_mod_eq]
  simp only [decide_eq_true_eq]
  split_ifs with h <;> simp only [Sign.apply] <;> omega

/-- Numbers are compared as their keys are. -/
theorem compare_unpack {x y : Float} (hx : x.isNaN = false) (hy : y.isNaN = false) :
    x.toModel.unpack.compare y.toModel.unpack = some (compare (orderKey x) (orderKey y)) := by
  have hkey : ∀ z : Float, z.isNaN = false →
      HasKey (if z.toBits.toNat.testBit 63 then .negative else .positive) (z.toBits.toNat % 2 ^ 63)
        z.toModel.unpack := by
    intro z hz
    refine (hasKey_unpack z.toBits.toBitVec).resolve_left fun hnan => ?_
    have hnot : z.toModel.unpack.isNaN = false := hz
    rw [show z.toModel.unpack = .notANumber from hnan] at hnot
    cases hnot
  rw [compare_of_hasKey (hkey x hx) (hkey y hy), orderKey_eq, orderKey_eq]

variable {x y : Float}

theorem le_iff_orderKey_le (hx : x.isNaN = false) (hy : y.isNaN = false) :
    x ≤ y ↔ orderKey x ≤ orderKey y := by
  have hle : x ≤ y ↔ (x.toModel.unpack.compare y.toModel.unpack).any (·.isLE) := by
    show decide (x.toModel ≤ y.toModel) = true ↔ _
    exact decide_eq_true_iff
  rw [hle, compare_unpack hx hy, Option.any_some, Ordering.isLE_iff_ne_gt,
    compare_gt_iff_gt.not, not_lt]

theorem lt_iff_orderKey_lt (hx : x.isNaN = false) (hy : y.isNaN = false) :
    x < y ↔ orderKey x < orderKey y := by
  have hlt : x < y ↔ x.toModel.unpack.compare y.toModel.unpack = some .lt := by
    show decide (x.toModel < y.toModel) = true ↔ _
    rw [decide_eq_true_iff, ← beq_iff_eq]
    rfl
  rw [hlt, compare_unpack hx hy, Option.some.injEq, compare_lt_iff_lt]

theorem beq_iff_orderKey_eq (hx : x.isNaN = false) (hy : y.isNaN = false) :
    x == y ↔ orderKey x = orderKey y := by
  have hbeq : x == y ↔ x.toModel.unpack.compare y.toModel.unpack = some .eq := by
    show (x.toModel.unpack.compare y.toModel.unpack == some .eq) = true ↔ _
    exact beq_iff_eq
  rw [hbeq, compare_unpack hx hy, Option.some.injEq, compare_eq_iff_eq]

end SecretSweep.Decimal
