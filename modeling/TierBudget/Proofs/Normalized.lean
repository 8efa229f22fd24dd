import TierBudget.Proofs.Apportionment.Fair
import TierBudget.Proofs.Quotas
import TierBudget.Proofs.RoundTrip
/-!
# Normalizing is fair

For `n` entries at a scale of size `S` with `n ^ 2 * S ≤ 2 ^ 50`, every count is within little more
than a unit of the quota of its entry, entries without weight get nothing, and larger weights do not
get less (`Policy.normalizing_is_fair`).

The shares of the entries make little noise, so that `Apportionment.Fair` applies. What a count owes
to its share is said once for all operations (`Policy.Apportioned`), by position.
-/

namespace TierBudget.Policy

open Binary64 Apportionment

variable {ι : Type} {p : Policy} {entries : List (Entry ι)}

/-! ## By position -/

/-- The count at a position, and zero past the end. -/
def countAt (fixed : List (FixedEntry ι)) (j : ℕ) : ℕ := (fixed.map fun e => e.count.toNat).getD j 0

theorem countAt_of_lt {fixed : List (FixedEntry ι)} {j : ℕ} (hj : j < fixed.length) :
    countAt fixed j = fixed[j].count.toNat := by
  simp [countAt, hj]

theorem shares_ne_nil (hne : entries ≠ []) : shares (entries.map Entry.unit) ≠ [] := by
  rw [← List.length_pos_iff, length_shares, List.length_map]
  exact List.length_pos_of_ne_nil hne

/-- The counts are the settled ones. -/
theorem countAt_toFixed (hne : entries ≠ []) (j : ℕ) :
    countAt (p.toFixed entries) j = (settle p.scale.size.toNat
      ((shares (entries.map Entry.unit)).map (part p.scale))).getD j 0 := by
  rw [countAt, ← map_toNat_apportion (shares_ne_nil hne), ← map_count_toFixed, List.map_map]
  rfl

/-- The counts, from the shares as they are cut. -/
theorem toFixed_eq_of_parts (p : Policy) {entries : List (Entry ι)} {parts : List Part}
    (hparts : (shares (entries.map Entry.unit)).map (part p.scale) = parts) :
    p.toFixed entries = entries.zipWith (fun e n => ⟨e.id, .ofNat n⟩)
      (settle p.scale.size.toNat parts) := by
  rw [toFixed, apportion, hparts, List.zipWith_map_right]

/-- The value of the clamped weight at a position, and zero past the end. -/
def weightAt (entries : List (Entry ι)) (j : ℕ) : ℚ :=
  (entries.map fun e => value (clampUnit e.unit)).getD j 0

theorem weightAt_of_lt {j : ℕ} (hj : j < entries.length) :
    weightAt entries j = value (clampUnit entries[j].unit) := by
  simp [weightAt, hj]

/-! ## How many entries there are -/

section

variable {n S : ℕ} (h : n ^ 2 * S ≤ 2 ^ 50)
include h

theorem cast_le (hS₀ : 0 < S) : (n : ℚ) ≤ 2 ^ 25 := by
  have hsq : n ^ 2 ≤ (2 ^ 25) ^ 2 := (Nat.le_mul_of_pos_right _ hS₀).trans h
  exact_mod_cast (Nat.pow_le_pow_iff_left two_ne_zero).1 hsq

theorem cast_mul_le (hS : S ≤ 2 ^ 32) : (n : ℚ) * S ≤ 2 ^ 41 := by
  have hsq : (n * S) ^ 2 ≤ (2 ^ 41) ^ 2 := by
    calc (n * S) ^ 2 = n ^ 2 * S * S := by ring
      _ ≤ 2 ^ 50 * 2 ^ 32 := Nat.mul_le_mul h hS
      _ = (2 ^ 41) ^ 2 := by norm_num
  exact_mod_cast (Nat.pow_le_pow_iff_left two_ne_zero).1 hsq

end

/-! ## What counts owe to shares -/

/-- What `n` counts owe to shares of `s` units of the scale that make little noise. -/
structure Apportioned (next : List (FixedEntry ι)) (n : ℕ) (s : ℕ → ℚ) : Prop where
  within : ∀ j < n, |(countAt next j : ℚ) - s j| ≤ 1 + 1 / 2 ^ 20
  whole : ∀ j < n, ∀ k : ℕ, ∀ ε : ℚ, |s j - k| ≤ ε → n * ε ≤ 4 / 5 → countAt next j = k
  ordered : ∀ j k, j < k → k < n → s k ≤ s j → countAt next k ≤ countAt next j
  nearly : ∀ j < n, ∀ k < n, s k ≤ s j → countAt next k ≤ countAt next j + 1

/-- **Counts are close to their shares and in their order**, if these make little noise. -/
theorem apportioned_toFixed (hne : entries ≠ [])
    (hn : entries.length ^ 2 * p.scale.size.toNat ≤ 2 ^ 50)
    (hnoise : noise p.scale (shares (entries.map Entry.unit)) ≤ 1 / 10) :
    Apportioned (p.toFixed entries) entries.length fun j =>
      scaledValue p.scale ((shares (entries.map Entry.unit)).getD j 0) := by
  have hlist : (shares (entries.map Entry.unit)).length = entries.length := by simp
  have hlow : noise p.scale (shares (entries.map Entry.unit)) < 1 := hnoise.trans_lt (by norm_num)
  have hcount (j) : countAt (p.toFixed entries) j = (settle p.scale.size.toNat
      ((shares (entries.map Entry.unit)).map (part p.scale))).getD j 0 := countAt_toFixed hne j
  generalize shares (entries.map Entry.unit) = given at *
  have hsettled : (settle p.scale.size.toNat (given.map (part p.scale))).length =
      entries.length := by simp [hlist]
  have hnext (j) (hj : j < entries.length) : countAt (p.toFixed entries) j =
      (settle p.scale.size.toNat (given.map (part p.scale)))[j] := by
    rw [hcount, List.getD_eq_getElem]
  have hs (j) (hj : j < entries.length) : given.getD j 0 = given[j] := List.getD_eq_getElem _ _ _
  refine ⟨fun j hj => ?_, fun j hj k ε hε hmul => ?_, fun j k hjk hk hle => ?_,
    fun j hj k hk hle => ?_⟩
  · have hone := abs_settle_sub_le hlow (by rwa [hlist]) (by rwa [hsettled])
    have hover := overshoot_scaledValue_le p.scale given[j]
    rw [hnext j hj, hs j hj]
    exact hone.trans (by linarith)
  · rw [hnext j hj]
    refine settle_eq_of_close (ε := ε) (by rwa [hlist]) (by rwa [← hs j hj]) ?_ _
    have hcast := cast_le hn p.scale.size_toNat_pos
    rw [hlist]
    linarith
  · have hj := hjk.trans hk
    rw [hnext j hj, hnext k hk]
    refine settle_le_settle hlow hjk (by rwa [hlist]) ?_ _ _
    rwa [← hs j hj, ← hs k hk]
  · rw [hs j hj, hs k hk] at hle
    have hfloor := floor_le_floor hle
    rw [hnext j hj, hnext k hk, getElem_settle hlow (by rwa [hlist]),
      getElem_settle hlow (by rwa [hlist])]
    split <;> split <;> omega

/-! ## Quotas -/

/-- Shares close to their quotas make little noise. -/
theorem noise_quota_le {units : List Float} {scale : Scale} {share : Float → Float}
    (hne : units ≠ []) (hn : units.length ^ 2 * scale.size.toNat ≤ 2 ^ 50)
    (hclose : ∀ u ∈ units, |scaledValue scale (share u) - quota units u * scale.size.toNat| ≤
      4 / 3 * (units.length + 2 : ℕ) / 2 ^ 53 * (quota units u * scale.size.toNat) + 1 / 2 ^ 60) :
    noise scale (units.map share) ≤ 1 / 10 := by
  have hsum : (units.map fun u => quota units u * scale.size.toNat).sum = scale.size.toNat := by
    rw [List.sum_map_mul_right, sum_quota hne, one_mul]
  refine (noise_le hclose hsum).trans ?_
  have hcast := cast_le hn scale.size_toNat_pos
  have hmul := cast_mul_le hn scale.size.toNat_lt.le
  have hS : (scale.size.toNat : ℚ) ≤ 2 ^ 32 := size_le scale
  push_cast
  linarith

/-- **Every count is hardly more than a unit away from its quota**, an entry without a quota gets
nothing, and the order of the weights is kept. -/
theorem exists_apportioned (hne : entries ≠ [])
    (hn : entries.length ^ 2 * p.scale.size.toNat ≤ 2 ^ 50) :
    ∃ s, Apportioned (p.toFixed entries) entries.length s ∧
      (∀ j (hj : j < entries.length),
        |s j - quota (entries.map Entry.unit) entries[j].unit * p.scale.size.toNat| ≤ 1 / 100 ∧
        (quota (entries.map Entry.unit) entries[j].unit = 0 → s j = 0)) ∧
      ∀ j < entries.length, ∀ k < entries.length,
        weightAt entries j ≤ weightAt entries k → s j ≤ s k := by
  have hcast := cast_le hn p.scale.size_toNat_pos
  have hlen : entries.length ≤ 2 ^ 25 := by exact_mod_cast hcast
  have hunits : entries.map Entry.unit ≠ [] := by simpa using hne
  have hn' : (entries.map Entry.unit).length ^ 2 * p.scale.size.toNat ≤ 2 ^ 50 := by
    rwa [List.length_map]
  obtain ⟨share, hshares, hclose, hzero, hmono⟩ := exists_shares_quota p.scale hunits
    (by rw [List.length_map]; exact hlen.trans (by norm_num))
  have hmem (j) (hj : j < entries.length) : entries[j].unit ∈ entries.map Entry.unit :=
    List.mem_map_of_mem (List.getElem_mem hj)
  have hs (j) (hj : j < entries.length) :
      (shares (entries.map Entry.unit)).getD j 0 = share entries[j].unit := by
    simp [hshares, hj]
  have hnoise : noise p.scale (shares (entries.map Entry.unit)) ≤ 1 / 10 := by
    rw [hshares]
    exact noise_quota_le hunits hn' hclose
  refine ⟨_, apportioned_toFixed hne hn hnoise, fun j hj => ⟨?_, fun hquota => ?_⟩,
    fun j hj k hk hle => ?_⟩
  · have hmul := cast_mul_le hn p.scale.size.toNat_lt.le
    have hquota : quota (entries.map Entry.unit) entries[j].unit * p.scale.size.toNat ≤
        1 * p.scale.size.toNat :=
      mul_le_mul_of_nonneg_right (quota_le_one (hmem j hj)) (Nat.cast_nonneg _)
    have hS : (p.scale.size.toNat : ℚ) ≤ 2 ^ 32 := size_le p.scale
    have hbound : 4 / 3 * ((entries.length + 2 : ℕ) : ℚ) / 2 ^ 53 *
        (quota (entries.map Entry.unit) entries[j].unit * p.scale.size.toNat) ≤
          4 / 3 * ((entries.length + 2 : ℕ) : ℚ) / 2 ^ 53 * (1 * p.scale.size.toNat) := by
      gcongr
    have hclose := hclose _ (hmem j hj)
    rw [List.length_map] at hclose
    rw [hs j hj]
    refine hclose.trans ((add_le_add_left hbound _).trans ?_)
    push_cast
    linarith
  · rw [hs j hj]
    exact hzero _ (hmem j hj) hquota
  · rw [hs j hj, hs k hk]
    rw [weightAt_of_lt hj, weightAt_of_lt hk] at hle
    exact hmono _ (hmem j hj) _ (hmem k hk) hle

/-- **Normalizing is fair**, whatever doubles the units are. The counts are those of the normalized
units as well. If the clamped units add up to something, every count is within five quarters of its
part of the scale in proportion to its unit, and who has nothing gets nothing. Of two entries the one
that comes first and has no less gets no less, and one that comes later and has no less gets one less
at most. -/
theorem normalizing_is_fair (p : Policy) (entries : List (Entry ι))
    (hn : entries.length ^ 2 * p.scale.size.toNat ≤ 2 ^ 50) :
    let counts := p.toFixed entries
    let size : ℚ := p.scale.size.toNat
    let total := mass (entries.map Entry.unit)
    p.toFixed (p.normalize entries) = counts ∧
    (0 < total → ∀ j < entries.length,
      |(countAt counts j : ℚ) - size * weightAt entries j / total| ≤ 5 / 4 ∧
        (weightAt entries j = 0 → countAt counts j = 0)) ∧
    (∀ i j, i < j → j < entries.length → weightAt entries j ≤ weightAt entries i →
      countAt counts j ≤ countAt counts i) ∧
    ∀ i < entries.length, ∀ j < entries.length, weightAt entries j ≤ weightAt entries i →
      countAt counts j ≤ countAt counts i + 1 := by
  intro counts size total
  rcases eq_or_ne entries [] with rfl | hne
  · exact ⟨rfl, fun _ j hj => absurd hj (Nat.not_lt_zero j),
      fun i j _ hj => absurd hj (Nat.not_lt_zero j), fun i hi => absurd hi (Nat.not_lt_zero i)⟩
  obtain ⟨s, happortioned, hclose, hmono⟩ := exists_apportioned hne hn
  have hmul : entries.length * p.scale.size.toNat ≤ 2 ^ 50 :=
    (Nat.mul_le_mul_right _ (Nat.le_self_pow two_ne_zero _)).trans hn
  refine ⟨toFixed_normalize hne hmul, fun hpos j hj => ⟨?_, fun hzero => ?_⟩,
    fun i j hij hj hle => happortioned.ordered i j hij hj (hmono j hj i (hij.trans hj) hle),
    fun i hi j hj hle => happortioned.nearly i hi j hj (hmono j hj i hi hle)⟩
  · have hquota : quota (entries.map Entry.unit) entries[j].unit * size =
        size * weightAt entries j / total := by
      rw [quota, if_neg hpos.ne', weightAt_of_lt hj]
      ring
    have hclose := (hclose j hj).1
    rw [hquota] at hclose
    refine (abs_sub_le _ _ _).trans ((add_le_add (happortioned.within j hj) hclose).trans ?_)
    norm_num
  · refine happortioned.whole j hj 0 0 ?_ (by norm_num)
    rw [(hclose j hj).2]
    · simp
    · rw [quota, if_neg hpos.ne', ← weightAt_of_lt hj, hzero, zero_div]

/-- Two units too large, which are equal once they are clamped, and one too small. -/
theorem normalizing_is_fair_clamped :
    let entries : List (Entry String) := [⟨"a", 1⟩, ⟨"b", 30⟩, ⟨"c", -2⟩]
    let counts := (default : Policy).toFixed entries
    entries.length ^ 2 * (default : Policy).scale.size.toNat ≤ 2 ^ 50 ∧
      0 < mass (entries.map Entry.unit) ∧ weightAt entries 2 = 0 ∧ countAt counts 2 = 0 ∧
      weightAt entries 1 ≤ weightAt entries 0 ∧ countAt counts 1 ≤ countAt counts 0 ∧
      weightAt entries 0 ≤ weightAt entries 1 ∧ countAt counts 0 ≤ countAt counts 1 + 1 := by
  intro entries counts
  have hhigh : clampUnit 30 = 1 := by decide +kernel
  have hlow : clampUnit (-2) = 0 := by decide +kernel
  have hone : value (clampUnit 1) = 1 := by
    rw [show clampUnit 1 = 1 by decide +kernel, hasValue_one.value_eq]
  have hfirst : weightAt entries 0 = 1 := hone
  have hsecond : weightAt entries 1 = 1 := by
    change value (clampUnit 30) = 1
    rw [hhigh, hasValue_one.value_eq]
  have hlast : weightAt entries 2 = 0 := by
    change value (clampUnit (-2)) = 0
    rw [hlow, hasValue_zero.value_eq]
  have hmass : 0 < mass (entries.map Entry.unit) := by
    change 0 < weightAt entries 0 + (weightAt entries 1 + (weightAt entries 2 + 0))
    rw [hfirst, hsecond, hlast]
    norm_num
  have hn : entries.length ^ 2 * (default : Policy).scale.size.toNat ≤ 2 ^ 50 := by decide
  obtain ⟨-, hquota, hordered, hnearly⟩ := normalizing_is_fair default entries hn
  exact ⟨hn, hmass, hlast, (hquota hmass 2 (by decide)).2 hlast, (hsecond.trans hfirst.symm).le,
    hordered 0 1 (by decide) (by decide) (hsecond.trans hfirst.symm).le,
    (hfirst.trans hsecond.symm).le,
    hnearly 1 (by decide) 0 (by decide) (hfirst.trans hsecond.symm).le⟩

end TierBudget.Policy
