import TierBudget.Proofs.Binary64.Residual
/-!
# Packing

A double is 64 bits; its operations unpack them, compute, round and pack again. Here nothing is lost
on the way: canonical forms of the double range survive packing (`unpack_pack`), what unpacks is
such a form (`fits_unpack`), and a double is determined by what it unpacks to (`pack_unpack`).
-/

namespace TierBudget.Binary64

open Float.Model Float.Model.UnpackedFloat

/-- The forms that a double can hold. -/
def Fits : UnpackedFloat → Prop
  | .finite _ m e _ => IsCanonical m e ∧ e ≤ 971
  | _ => True

/-- A mantissa with its leading digit in front. -/
theorem toNat_leadingDigit (m : BitVec 52) : (1#1 ++ m).toNat = 2 ^ 52 + m.toNat := by
  rw [BitVec.toNat_append, ← Nat.shiftLeft_add_eq_or_of_lt m.isLt]
  rfl

/-! ## Unpacking -/

/-- What unpacks is canonical. -/
theorem fits_unpack (f : Float.Model) : Fits f.unpack := by
  unfold Float.Model.unpack UnpackedFloat.unpack
  dsimp only
  have hm : (@unpackMantissa Format.binary64 f.toBits.toBitVec).toNat < 2 ^ 52 := BitVec.isLt _
  have he : (@unpackExponent Format.binary64 f.toBits.toBitVec).toNat < 2 ^ 11 := BitVec.isLt _
  have hone := toNat_leadingDigit (@unpackMantissa Format.binary64 f.toBits.toBitVec)
  split_ifs with hinf hm0 he0 hm0'
  · trivial
  · trivial
  · trivial
  · -- a subnormal number
    have hexp : ((@unpackExponent Format.binary64 f.toBits.toBitVec).toNat : ℤ) = 0 := by
      rw [he0]
      rfl
    refine ⟨⟨hm.trans (by norm_num), ?_, .inr ?_⟩, ?_⟩ <;> rw [hexp] <;> decide
  · -- a normal number
    have h0 : (@unpackExponent Format.binary64 f.toBits.toBitVec).toNat ≠ 0 :=
      fun h => he0 (BitVec.eq_of_toNat_eq h)
    have htop : (@unpackExponent Format.binary64 f.toBits.toBitVec).toNat ≠ 2047 :=
      fun h => hinf (BitVec.eq_of_toNat_eq h)
    refine ⟨⟨hone.trans_lt (by omega), ?_, .inl (le_of_le_of_eq (by omega) hone.symm)⟩, ?_⟩
    · change (-1074 : ℤ) ≤ (@unpackExponent Format.binary64 f.toBits.toBitVec).toNat - (1023 + 52)
      omega
    · change ((@unpackExponent Format.binary64 f.toBits.toBitVec).toNat : ℤ) - (1023 + 52) ≤ 971
      omega

/-! ## Packing -/

theorem unpack_normal (s : Sign) {x m : ℕ} (hx : 0 < x) (hx' : x < 2047) (hm : 2 ^ 52 ≤ m)
    (hm' : m < 2 ^ 53) :
    UnpackedFloat.unpack Format.binary64
      (packComponents Format.binary64 s (BitVec.ofNat 11 x) (BitVec.ofNat 52 m)) =
      .finite s m (x - 1075) (by omega) := by
  have hne : BitVec.ofNat 11 x ≠ -1#11 := fun h => by
    have := congrArg BitVec.toNat h
    rw [BitVec.toNat_ofNat, Nat.mod_eq_of_lt (by omega)] at this
    exact hx'.ne this
  have hn0 : BitVec.ofNat 11 x ≠ 0#11 := fun h => by
    have := congrArg BitVec.toNat h
    rw [BitVec.toNat_ofNat, Nat.mod_eq_of_lt (by omega)] at this
    exact hx.ne' this
  have hmant : (1#1 ++ BitVec.ofNat 52 m).toNat = m := by
    rw [toNat_leadingDigit, BitVec.toNat_ofNat]
    omega
  have hexp : ((BitVec.ofNat 11 x).toNat : ℤ) = x := by
    rw [BitVec.toNat_ofNat, Nat.mod_eq_of_lt (by omega)]
  simp only [UnpackedFloat.unpack, unpackMantissa_packComponents, unpackExponent_packComponents,
    unpackSign_packComponents, Sign.ofBitVec_toBitVec, hne, hn0, if_false, hmant, hexp]
  rfl

theorem unpack_subnormal (s : Sign) {m : ℕ} (hm : 0 < m) (hm' : m < 2 ^ 52) :
    UnpackedFloat.unpack Format.binary64
      (packComponents Format.binary64 s 0#11 (BitVec.ofNat 52 m)) =
      .finite s m (-1074) hm := by
  have hmant : (BitVec.ofNat 52 m).toNat = m := by
    rw [BitVec.toNat_ofNat, Nat.mod_eq_of_lt (by omega)]
  have hn0 : BitVec.ofNat 52 m ≠ 0#52 := fun h => by
    have := congrArg BitVec.toNat h
    rw [hmant] at this
    exact hm.ne' this
  simp only [UnpackedFloat.unpack, unpackMantissa_packComponents, unpackExponent_packComponents,
    unpackSign_packComponents, Sign.ofBitVec_toBitVec, hn0, dif_neg, not_false_eq_true, hmant]
  rfl

/-- **Packing loses nothing** of a form that fits. -/
theorem unpack_pack {u : UnpackedFloat} (h : Fits u) : (Float.Model.pack u).unpack = u := by
  unfold Float.Model.pack Float.Model.unpack
  cases u with
  | infinity s => cases s <;> rfl
  | notANumber => rfl
  | zero s => cases s <;> rfl
  | finite s m e hm =>
    obtain ⟨⟨hlt, hle, hfull⟩, htop⟩ := h
    have hbias :
        (e + Format.binary64.exponentBias + Format.binary64.mantissaBitsWithoutImplicit).toNat =
          (e + 1075).toNat := by
      congr 1
      change e + 1023 + 52 = e + 1075
      ring
    change UnpackedFloat.unpack Format.binary64 (UnpackedFloat.pack Format.binary64 _) = _
    simp only [UnpackedFloat.pack, hbias]
    rw [if_neg (by change ¬ 2048 ≤ (e + 1075).toNat + 1; omega)]
    by_cases hnormal : 2 ^ 52 ≤ m
    · have hlog : m.log2 = 52 := (Nat.log2_eq_iff hm.ne').2 ⟨hnormal, hlt⟩
      rw [hlog, if_pos (by rfl), unpack_normal s (by omega) (by omega) hnormal hlt]
      congr 1
      omega
    · obtain rfl := hfull.resolve_left hnormal
      have hlog : m.log2 < 52 := (Nat.log2_lt hm.ne').2 (by omega)
      rw [if_neg (by change ¬ m.log2 + 1 = 53; omega), unpack_subnormal s hm (by omega)]

/-- **A double is determined by what it unpacks to.** -/
theorem pack_unpack (f : Float.Model) : Float.Model.pack f.unpack = f := by
  obtain ⟨w, hvalid⟩ := f
  have hw := pack_unpack_of_valid hvalid
  simp only [Float.Model.pack, Float.Model.unpack, hw]

end TierBudget.Binary64
