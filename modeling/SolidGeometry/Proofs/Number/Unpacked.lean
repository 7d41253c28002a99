import SolidGeometry.Number.Binary64
import Mathlib

namespace SolidGeometry.Number
open Float.Model Float.Model.UnpackedFloat

/-- What the bits of a double stand for. -/
def Binary64.ofBits (bits : Nat) : Binary64 :=
  let negative := decide (Nat.pow 2 63 ≤ bits)
  let biased : Nat := bits / Nat.pow 2 52 % Nat.pow 2 11
  let fraction := bits % Nat.pow 2 52
  if biased = 2047 then
    if fraction = 0 then .infinite negative else .nan
  else if biased = 0 then .finite negative fraction leastExponent
  else .finite negative (fraction + Nat.pow 2 52) ((biased : Int) - 1075)

def isMinus : Sign → Bool
  | .negative => true
  | .positive => false

/-- What an unpacked double stands for. -/
def Binary64.ofUnpacked : UnpackedFloat → Binary64
  | .notANumber => .nan
  | .infinity s => .infinite (isMinus s)
  | .zero s => .finite (isMinus s) 0 leastExponent
  | .finite s m e _ => .finite (isMinus s) m e

abbrev double : Format := Format.binary64

section

variable (bits : BitVec double.numBits)

theorem unpackMantissa_toNat :
    (@unpackMantissa double bits).toNat = bits.toNat % 2 ^ 52 := by
  simp [unpackMantissa]

theorem unpackExponent_toNat :
    (@unpackExponent double bits).toNat = bits.toNat / 2 ^ 52 % 2 ^ 11 := by
  simp [unpackExponent, Nat.shiftRight_eq_div_pow]

theorem unpackSign_toNat : (@unpackSign double bits).toNat = bits.toNat / 2 ^ 63 := by
  have bound : bits.toNat < 2 ^ 64 := bits.isLt
  simp only [unpackSign, BitVec.toNat_cast, BitVec.extractLsb_toNat, Nat.shiftRight_eq_div_pow]
  omega

theorem isMinus_unpackSign :
    isMinus (Sign.ofBitVec (@unpackSign double bits)) =
      decide (Nat.pow 2 63 ≤ bits.toNat) := by
  have bound : bits.toNat < 2 ^ 64 := bits.isLt
  have sign := unpackSign_toNat bits
  by_cases plus : @unpackSign double bits = 0#1
  · rw [plus] at sign
    have small : ¬Nat.pow 2 63 ≤ bits.toNat := by
      simp at sign
      simp
      omega
    rw [plus, decide_eq_false small]
    rfl
  · have large : Nat.pow 2 63 ≤ bits.toNat := by
      by_contra small
      apply plus
      apply BitVec.eq_of_toNat_eq
      rw [sign]
      simp at small ⊢
      omega
    rw [decide_eq_true large]
    simp [Sign.ofBitVec, isMinus, plus]

theorem unpackExponent_eq_iff (exponent : BitVec 11) :
    @unpackExponent double bits = exponent ↔
      bits.toNat / Nat.pow 2 52 % Nat.pow 2 11 = exponent.toNat := by
  rw [← BitVec.toNat_inj, unpackExponent_toNat]
  rfl

theorem unpackMantissa_eq_zero_iff :
    @unpackMantissa double bits = 0#_ ↔ bits.toNat % Nat.pow 2 52 = 0 := by
  rw [← BitVec.toNat_inj, unpackMantissa_toNat]
  rfl

theorem implicit_toNat (fraction : BitVec 52) :
    (1#1 ++ fraction).toNat = fraction.toNat + Nat.pow 2 52 := by
  rw [BitVec.toNat_append, ← Nat.shiftLeft_add_eq_or_of_lt fraction.isLt, Nat.shiftLeft_eq]
  exact Nat.add_comm _ _

/-- Unpacking reads the bits. -/
theorem Binary64.ofUnpacked_unpack :
    ofUnpacked (UnpackedFloat.unpack double bits) = Binary64.ofBits bits.toNat := by
  have ones : unpackExponent bits = -1#11 ↔ bits.toNat / Nat.pow 2 52 % Nat.pow 2 11 = 2047 :=
    unpackExponent_eq_iff bits (-1#11)
  have zeros : unpackExponent bits = 0#11 ↔ bits.toNat / Nat.pow 2 52 % Nat.pow 2 11 = 0 :=
    unpackExponent_eq_iff bits 0#11
  have empty := unpackMantissa_eq_zero_iff bits
  have exponent := unpackExponent_toNat bits
  have mantissa := unpackMantissa_toNat bits
  have sign := isMinus_unpackSign bits
  unfold UnpackedFloat.unpack Binary64.ofBits
  dsimp only
  by_cases full : @unpackExponent double bits = -1#11
  · rw [if_pos full, if_pos (ones.mp full)]
    by_cases none : @unpackMantissa double bits = 0#_
    · rw [if_pos none, if_pos (empty.mp none), ofUnpacked, sign]
    · rw [if_neg none, if_neg (mt empty.mpr none), ofUnpacked]
  rw [if_neg full, if_neg (mt ones.mpr full)]
  by_cases least : @unpackExponent double bits = 0#11
  · rw [if_pos least, if_pos (zeros.mp least)]
    by_cases none : @unpackMantissa double bits = 0#_
    · rw [dif_pos none, ofUnpacked, sign, empty.mp none]
    · rw [dif_neg none, ofUnpacked, sign, mantissa, least]
      rfl
  · rw [if_neg least, if_neg (mt zeros.mpr least), ofUnpacked, sign, implicit_toNat, mantissa,
      exponent]
    rfl

end

/-- What a double stands for can be read off its unpacked form. -/
theorem Binary64.ofFloat_eq_ofUnpacked (x : Float) :
    Binary64.ofFloat x = Binary64.ofUnpacked x.toModel.unpack := by
  rw [Float.Model.unpack, ofUnpacked_unpack]
  rfl

/-- The mantissa and the exponent of a double: all bits of the mantissa are used, unless the
exponent is the least one. -/
structure Canonical (mantissa : Nat) (exponent : Int) : Prop where
  bounded : mantissa < 2 ^ 53
  least : leastExponent ≤ exponent
  full : 2 ^ 52 ≤ mantissa ∨ exponent = leastExponent

def greatestExponent : Int := 971

def IsCanonical : UnpackedFloat → Prop
  | .finite _ m e _ => Canonical m e
  | _ => True

def InRange : UnpackedFloat → Prop
  | .finite _ _ e _ => e ≤ greatestExponent
  | _ => True

theorem log2_add_one_eq_iff {mantissa : Nat} (positive : 0 < mantissa)
    (bounded : mantissa < 2 ^ 53) :
    mantissa.log2 + 1 = 53 ↔ 2 ^ 52 ≤ mantissa := by
  have nonzero : mantissa ≠ 0 := by omega
  have upper := (Nat.log2_lt nonzero).mpr bounded
  have lower := Nat.le_log2 nonzero (k := 52)
  omega

@[simp] theorem ofBitVec_toBitVec (s : Sign) : Sign.ofBitVec s.toBitVec = s := by
  cases s <;> rfl

@[simp] theorem unpackSign_packComponents (s : Sign) (exponent : BitVec 11)
    (fraction : BitVec 52) :
    unpackSign (packComponents double s exponent fraction) = s.toBitVec := by
  have high : (s.toBitVec ++ exponent ++ fraction).getLsbD 63 = s.toBitVec.getLsbD 0 := by
    rw [BitVec.getLsbD_append, BitVec.getLsbD_append]
    rfl
  ext i small
  obtain rfl : i = 0 := by omega
  simp only [unpackSign, packComponents, BitVec.getElem_cast, BitVec.extractLsb,
    BitVec.getElem_extractLsb']
  exact high

section

variable (s : Sign) {m : Nat} {e : Int}

/-- The bits of a mantissa that uses all of them carry the exponent. -/
theorem unpack_normal (positive : 0 < m) (bounded : m < 2 ^ 53) (full : 2 ^ 52 ≤ m)
    (least : -1074 ≤ e) (greatest : e ≤ 971) :
    unpack double (packComponents double s (BitVec.ofNat 11 (e + 1075).toNat) (BitVec.ofNat 52 m)) =
      .finite s m e positive := by
  have exponent : (BitVec.ofNat 11 (e + 1075).toNat).toNat = (e + 1075).toNat := by
    rw [BitVec.toNat_ofNat]
    omega
  have not_ones : BitVec.ofNat 11 (e + 1075).toNat ≠ -1#11 := by
    rw [Ne, ← BitVec.toNat_inj, exponent]
    simp
    omega
  have not_zeros : BitVec.ofNat 11 (e + 1075).toNat ≠ 0#11 := by
    rw [Ne, ← BitVec.toNat_inj, exponent]
    simp
    omega
  have fraction : (1#1 ++ BitVec.ofNat 52 m).toNat = m := by
    rw [implicit_toNat, BitVec.toNat_ofNat]
    simp
    omega
  have unbiased : ((e + 1075).toNat : Int) - (double.exponentBias + (52 : Nat)) = e := by
    simp [Format.exponentBias]
    omega
  unfold UnpackedFloat.unpack
  simp only [unpackExponent_packComponents, unpackMantissa_packComponents,
    unpackSign_packComponents, ofBitVec_toBitVec]
  rw [if_neg not_ones, if_neg not_zeros]
  simp only [exponent, fraction, unbiased]

theorem unpack_subnormal (positive : 0 < m) (bounded : m < 2 ^ 52) :
    unpack double (packComponents double s 0#11 (BitVec.ofNat 52 m)) =
      .finite s m leastExponent positive := by
  have fraction : (BitVec.ofNat 52 m).toNat = m := by
    rw [BitVec.toNat_ofNat]
    omega
  have nonzero : BitVec.ofNat 52 m ≠ 0#52 := by
    rw [Ne, ← BitVec.toNat_inj, fraction]
    simp
    omega
  unfold UnpackedFloat.unpack
  simp only [unpackExponent_packComponents, unpackMantissa_packComponents,
    unpackSign_packComponents, ofBitVec_toBitVec]
  rw [if_neg (by decide), if_pos trivial, dif_neg nonzero]
  simp only [fraction]
  rfl

end

section

variable (s : Sign) {m : Nat} {e : Int} (positive : 0 < m)

theorem pack_overflow (beyond : 971 < e) :
    pack double (.finite s m e positive) = packedInfinity double s := by
  unfold UnpackedFloat.pack
  dsimp only
  rw [if_pos]
  simp [Format.exponentBias]
  omega

theorem pack_normal (bounded : m < 2 ^ 53) (full : 2 ^ 52 ≤ m) (greatest : e ≤ 971) :
    pack double (.finite s m e positive) =
      packComponents double s (BitVec.ofNat 11 (e + 1075).toNat) (BitVec.ofNat 52 m) := by
  have biased : e + (double.exponentBias : Int) + (52 : Nat) = e + 1075 := by
    simp [Format.exponentBias]
    omega
  unfold UnpackedFloat.pack
  dsimp only
  rw [if_neg, if_pos]
  · rw [biased]
  · exact (log2_add_one_eq_iff positive bounded).mpr full
  · simp [Format.exponentBias]
    omega

theorem pack_subnormal (bounded : m < 2 ^ 52) :
    pack double (.finite s m leastExponent positive) =
      packComponents double s 0#11 (BitVec.ofNat 52 m) := by
  unfold UnpackedFloat.pack
  dsimp only
  rw [if_neg, if_neg]
  · intro full
    have large := (log2_add_one_eq_iff positive (by omega)).mp full
    omega
  · decide

end

@[simp] theorem unpack_pack_zero (s : Sign) : (Float.Model.pack (.zero s)).unpack = .zero s := by
  cases s <;> rfl

/-- Packing keeps a canonical form. -/
theorem unpack_pack {f : UnpackedFloat} (canonical : IsCanonical f) (range : InRange f) :
    (Float.Model.pack f).unpack = f := by
  cases f with
  | notANumber => rfl
  | infinity s => cases s <;> rfl
  | zero s => exact unpack_pack_zero s
  | finite s m e positive =>
    change unpack double (pack double (.finite s m e positive)) = _
    by_cases large : 2 ^ 52 ≤ m
    · rw [pack_normal s positive canonical.bounded large range]
      exact unpack_normal s positive canonical.bounded large canonical.least range
    · obtain rfl : e = leastExponent := canonical.full.resolve_left large
      rw [pack_subnormal s positive (by omega)]
      exact unpack_subnormal s positive (by omega)

/-- Beyond the range of doubles there are only the infinities. -/
theorem unpack_pack_overflow (s : Sign) {m : Nat} {e : Int} (positive : 0 < m)
    (beyond : greatestExponent < e) :
    (Float.Model.pack (.finite s m e positive)).unpack = .infinity s := by
  change unpack double (pack double (.finite s m e positive)) = _
  rw [pack_overflow s positive beyond]
  cases s <;> rfl

/-- The unpacked form of a double is canonical. -/
theorem isCanonical_unpack (bits : BitVec double.numBits) :
    IsCanonical (unpack double bits) ∧ InRange (unpack double bits) := by
  have small : (@unpackExponent double bits).toNat < 2 ^ 11 :=
    (unpackExponent bits).isLt
  have fraction : (@unpackMantissa double bits).toNat < 2 ^ 52 :=
    (unpackMantissa bits).isLt
  unfold UnpackedFloat.unpack
  dsimp only
  by_cases full : @unpackExponent double bits = -1#11
  · rw [if_pos full]
    by_cases none : @unpackMantissa double bits = 0#_
    · rw [if_pos none]
      exact ⟨trivial, trivial⟩
    · rw [if_neg none]
      exact ⟨trivial, trivial⟩
  rw [if_neg full]
  by_cases least : @unpackExponent double bits = 0#11
  · rw [if_pos least]
    by_cases none : @unpackMantissa double bits = 0#_
    · rw [dif_pos none]
      exact ⟨trivial, trivial⟩
    · rw [dif_neg none, least]
      have range : leastExponent ≤ greatestExponent := by decide
      exact ⟨⟨by omega, by decide, .inr rfl⟩, range⟩
  · rw [if_neg least]
    have nonzero : (@unpackExponent double bits).toNat ≠ 0 :=
      fun none => least (BitVec.eq_of_toNat_eq none)
    have proper : (@unpackExponent double bits).toNat ≠ 2047 :=
      fun all => full (BitVec.eq_of_toNat_eq all)
    have bias : (double.exponentBias : Int) + (52 : Nat) = 1075 := by decide
    have mantissa := implicit_toNat (@unpackMantissa double bits)
    rw [bias]
    refine ⟨⟨?_, ?_, .inl ?_⟩, ?_⟩
    · rw [mantissa]
      simp
      omega
    · simp only [leastExponent]
      omega
    · rw [mantissa]
      simp
    · simp only [InRange, greatestExponent]
      omega

end SolidGeometry.Number
