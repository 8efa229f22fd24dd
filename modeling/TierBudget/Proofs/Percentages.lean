import TierBudget.Proofs.Decimal.Reading
import TierBudget.Proofs.Normalized
/-!
# Percentages

Whole percentages that add up to a hundred, as they come from outside, tagged or not. A number
without a tag is told by its size: `1` is taken for a fraction, so for a hundred percent, and so is
`2` if the tolerance is so close to one that their sum is rounded to two (`RawWeight.takenFor`). Each
count is close to its part of the scale in proportion to what the numbers are taken for, and that is
the part that the percentage says if all of them are tagged or none is such a small number
(`Policy.percentages_keep_proportions`).
-/

namespace TierBudget

open Binary64

/-! ## What a percentage is taken for -/

/-- What the whole number `k` is taken for, out of a hundred. -/
def RawWeight.takenFor (epsilon : Float) (denomination : Option Denomination) (k : ℕ) : ℕ :=
  match denomination with
  | some .percent => k
  | some .fraction => 100 * min k 1
  | none => if k = 1 ∨ k = 2 ∧ ¬ 1 + epsilon < 2 then 100 else k

section

variable {epsilon : Float} {d : Option Denomination} {k : ℕ}

theorem RawWeight.le_takenFor (hk : k ≤ 100) : k ≤ takenFor epsilon d k := by
  unfold takenFor
  split
  · exact le_rfl
  · omega
  · split <;> omega

theorem clampUnit_clampUnit (x : Float) : clampUnit (clampUnit x) = clampUnit x :=
  (hasValue_clampUnit x).1.clampUnit_eq_self (hasValue_clampUnit x).2.1 (hasValue_clampUnit x).2.2

/-- A tolerance that is accepted and below one has a value below one. -/
theorem Policy.exists_epsilon {p : Policy} (h : p.validate = .ok ()) (hlt : p.percentEpsilon < 1) :
    ∃ e, HasValue p.percentEpsilon e ∧ 0 ≤ e ∧ e < 1 := by
  unfold validate at h
  split at h
  · cases h
  · next hno =>
    simp only [Bool.or_eq_true, Bool.not_eq_true', decide_eq_true_eq, not_or,
      Bool.not_eq_false] at hno
    obtain ⟨e, he⟩ := isFinite_iff.1 hno.1
    exact ⟨e, he, not_lt.1 fun hneg => hno.2 ((he.lt_iff hasValue_zero).2 hneg),
      (he.lt_iff hasValue_one).1 hlt⟩

/-! ## Its unit -/

theorem hasValue_two : HasValue (2 : Float) 2 := hasValue_ofNat (n := 2) (by norm_num)

theorem hasValue_hundred : HasValue (100 : Float) 100 := hasValue_ofNat (n := 100) (by norm_num)

variable {x : Float} {w : RawWeight}

/-- A whole number that is read as a percentage. -/
theorem near_value_percent (hx : HasValue x k) (hk : k ≤ 100) :
    Near 1 (value (clampUnit (x / 100))) (k / 100) := by
  have hone : IsDouble 1 := by simpa using isDouble_natCast (n := 1)
  have hk : (k : ℚ) ≤ 100 := by exact_mod_cast hk
  have hk₀ : (0 : ℚ) ≤ k / 100 := by positivity
  have hk₁ : (k : ℚ) / 100 ≤ 1 := (div_le_one (by norm_num)).2 hk
  have hdiv : HasValue (x / 100) (nearest (k / 100)) :=
    hx.div hasValue_hundred (by norm_num)
      (abs_le_of_le_two_pow (by rw [abs_of_nonneg hk₀]; linarith))
  rw [hdiv.clampUnit_eq_self (nearest_nonneg hk₀) (nearest_le hone hk₁), hdiv.value_eq]
  rcases Nat.eq_zero_or_pos k with rfl | hpos
  · simpa using Near.refl le_rfl 1
  · have hpos : (1 : ℚ) ≤ k := Nat.one_le_cast.2 hpos
    refine near_nearest ((two_zpow_le (show (-1022 : ℤ) ≤ -7 by norm_num)).trans ?_)
    norm_num
    linarith

/-- A whole number that is read as a fraction. -/
theorem value_fraction (hx : HasValue x k) :
    value (clampUnit x) = ((100 * min k 1 : ℕ) : ℚ) / 100 := by
  rw [hx.clamped.value_eq, max_eq_right (le_min (Nat.cast_nonneg k) zero_le_one)]
  push_cast
  ring

/-- A whole number above the tolerance. -/
theorem one_add_lt_iff {e : ℚ} (he : HasValue epsilon e) (he₀ : 0 ≤ e) (he₁ : e < 1)
    (hx : HasValue x k) : 1 + epsilon < x ↔ 2 < k ∨ k = 2 ∧ 1 + epsilon < 2 := by
  have hone : IsDouble 1 := by simpa using isDouble_natCast (n := 1)
  have htwo : IsDouble 2 := by simpa using isDouble_natCast (n := 2)
  have hsum : HasValue (1 + epsilon) (nearest (1 + e)) :=
    hasValue_one.add he (abs_le_of_le_two_pow (by rw [abs_of_nonneg (by linarith)]; linarith))
  have hlow : 1 ≤ nearest (1 + e) := le_nearest hone (by linarith)
  have hhigh : nearest (1 + e) ≤ 2 := nearest_le htwo (by linarith)
  rw [hsum.lt_iff hx, hsum.lt_iff hasValue_two]
  obtain hk | rfl | hk : k ≤ 1 ∨ k = 2 ∨ 3 ≤ k := by omega
  · have hk' : (k : ℚ) ≤ 1 := by exact_mod_cast hk
    exact iff_of_false (by linarith) (by omega)
  · simp
  · have hk' : (3 : ℚ) ≤ k := by exact_mod_cast hk
    exact iff_of_true (by linarith) (.inl (by omega))

/-- **The unit of a whole number is what it is taken for**, but for one rounding. -/
theorem near_value_toUnit {e : ℚ} (he : HasValue epsilon e) (he₀ : 0 ≤ e) (he₁ : e < 1)
    (hw : HasValue w.value k) (hk : k ≤ 100) :
    Near 1 (value (clampUnit (w.toUnit epsilon)))
      (RawWeight.takenFor epsilon w.denomination k / 100) := by
  have hpercent := near_value_percent hw hk
  have hfraction : Near 1 (value (clampUnit w.value)) (((100 * min k 1 : ℕ) : ℚ) / 100) := by
    rw [value_fraction hw]
    exact .refl (by positivity) 1
  obtain ⟨x, _ | (_ | _)⟩ := w <;>
    simp only [RawWeight.toUnit, RawWeight.takenFor] at hpercent hfraction ⊢
  · unfold inferUnit
    have hread := one_add_lt_iff he he₀ he₁ hw
    by_cases hlt : 1 + epsilon < x
    · rw [if_pos hlt, clampUnit_clampUnit, if_neg]
      · exact hpercent
      · rintro (rfl | ⟨rfl, hge⟩)
        · have := hread.1 hlt
          omega
        · exact hge (((hread.1 hlt).resolve_left (lt_irrefl 2)).2)
    · rw [if_neg hlt, clampUnit_clampUnit]
      rw [hread, not_or, not_and, not_lt] at hlt
      obtain rfl | rfl | rfl : k = 0 ∨ k = 1 ∨ k = 2 := by omega
      · exact hfraction
      · exact hfraction
      · rwa [if_pos (.inr ⟨rfl, hlt.2 rfl⟩)]
  · rwa [clampUnit_clampUnit]
  · rwa [clampUnit_clampUnit]

end

namespace Policy

open Apportionment

variable {ι : Type} {p : Policy} {raw : List (RawEntry ι)} {w : RawEntry ι → ℕ}

/-! ## The counts of percentages -/

/-- What a raw entry of `w r` is taken for. -/
def taken (p : Policy) (w : RawEntry ι → ℕ) (r : RawEntry ι) : ℕ :=
  RawWeight.takenFor p.percentEpsilon r.weight.denomination (w r)

section

variable (hvalue : ∀ r ∈ raw, HasValue r.weight.value (w r)) (hsum : (raw.map w).sum = 100)
include hsum

theorem le_hundred {r : RawEntry ι} (hr : r ∈ raw) : w r ≤ 100 := by
  rw [← hsum]
  exact List.single_le_sum (fun _ _ => Nat.zero_le _) _ (List.mem_map_of_mem hr)

/-- Together they are taken for a hundred percent at least. -/
theorem hundred_le_sum_taken : 100 ≤ (raw.map (p.taken w)).sum := by
  conv_lhs => rw [← hsum]
  exact List.sum_le_sum fun r hr => RawWeight.le_takenFor (le_hundred hsum hr)

include hvalue

/-- **The quota of an entry is its part of what all of them are taken for**, but for two roundings. -/
theorem near_quota_taken (hp : p.validate = .ok ()) (hε : p.percentEpsilon < 1) {r : RawEntry ι}
    (hr : r ∈ raw) :
    Near 2 (quota (raw.map fun r => r.weight.toUnit p.percentEpsilon)
        (r.weight.toUnit p.percentEpsilon))
      (p.taken w r / (raw.map (p.taken w)).sum) := by
  obtain ⟨e, he, he₀, he₁⟩ := exists_epsilon hp hε
  have hunit (r) (hr : r ∈ raw) : Near 1 (value (clampUnit (r.weight.toUnit p.percentEpsilon)))
      (p.taken w r / 100) :=
    near_value_toUnit he he₀ he₁ (hvalue r hr) (le_hundred hsum hr)
  have htotal : (0 : ℚ) < (raw.map (p.taken w)).sum := by
    exact_mod_cast (hundred_le_sum_taken (p := p) hsum).trans_lt' (by norm_num)
  have hmass : Near 1 (mass (raw.map fun r => r.weight.toUnit p.percentEpsilon))
      ((raw.map (p.taken w)).sum / 100) := by
    have hwhole : (raw.map fun r => (p.taken w r : ℚ) / 100).sum =
        (raw.map (p.taken w)).sum / 100 := by
      simp only [div_eq_mul_inv]
      rw [List.sum_map_mul_right, Nat.cast_list_sum, List.map_map]
      rfl
    rw [mass, List.map_map, ← hwhole]
    exact Near.sum hunit
  have hmass₀ := hmass.pos (div_pos htotal (by norm_num))
  rw [quota, if_neg hmass₀.ne']
  have hdiv := (hunit r hr).div hmass (hasValue_clampUnit _).2.1 (by positivity) hmass₀
    (div_pos htotal (by norm_num))
  rwa [div_div_div_cancel_right₀ (by norm_num)] at hdiv

omit hvalue hsum in
/-- The counts of raw entries are those of their units. -/
theorem toFixed_ofRaw (hne : raw ≠ []) (hn : raw.length ^ 2 * p.scale.size.toNat ≤ 2 ^ 50) :
    p.toFixed (p.ofRaw raw) =
      p.toFixed (raw.map fun r => ⟨r.id, r.weight.toUnit p.percentEpsilon⟩) := by
  refine toFixed_normalize (by simpa using hne) ?_
  rw [List.length_map]
  exact (Nat.mul_le_mul_right _ (Nat.le_self_pow two_ne_zero _)).trans hn

omit hvalue hsum in
/-- The counts, from the shares of the units as they are cut. -/
theorem toFixed_ofRaw_of_parts (hne : raw ≠ [])
    (hn : raw.length ^ 2 * p.scale.size.toNat ≤ 2 ^ 50) {parts : List Part}
    (hparts : (shares (raw.map fun r => r.weight.toUnit p.percentEpsilon)).map (part p.scale) =
      parts) :
    p.toFixed (p.ofRaw raw) =
      raw.zipWith (fun r n => ⟨r.id, .ofNat n⟩) (settle p.scale.size.toNat parts) := by
  have hunits : (raw.map fun r => (⟨r.id, r.weight.toUnit p.percentEpsilon⟩ : Entry ι)).map
      Entry.unit = raw.map fun r => r.weight.toUnit p.percentEpsilon := by
    rw [List.map_map]
    rfl
  rw [toFixed_ofRaw hne hn, toFixed_eq_of_parts p (by rw [hunits, hparts]), List.zipWith_map_left]

/-- **Every count is close to its part** of what all entries are taken for. -/
theorem abs_countAt_ofRaw_sub_le (hp : p.validate = .ok ()) (hε : p.percentEpsilon < 1)
    (hn : raw.length ^ 2 * p.scale.size.toNat ≤ 2 ^ 50) {j : ℕ} (hj : j < raw.length) :
    |(countAt (p.toFixed (p.ofRaw raw)) j : ℚ) -
      p.scale.size.toNat * p.taken w raw[j] / (raw.map (p.taken w)).sum| ≤ 5 / 4 := by
  have hmem : raw[j] ∈ raw := List.getElem_mem hj
  have hne : raw ≠ [] := List.ne_nil_of_mem hmem
  set entries : List (Entry ι) := raw.map fun r => ⟨r.id, r.weight.toUnit p.percentEpsilon⟩
  have hlength : entries.length = raw.length := List.length_map _
  have hunits : entries.map Entry.unit = raw.map fun r => r.weight.toUnit p.percentEpsilon := by
    rw [List.map_map]
    rfl
  have hentries : entries ≠ [] := by simpa [entries] using hne
  obtain ⟨s, happortioned, hclose, -⟩ := exists_apportioned hentries (by rwa [hlength])
  have hwithin := happortioned.within j (by rwa [hlength])
  have hclose := (hclose j (by rwa [hlength])).1
  rw [hunits, show entries[j].unit = raw[j].weight.toUnit p.percentEpsilon by simp [entries]] at hclose
  rw [toFixed_ofRaw hne hn]
  have hpart₀ : (0 : ℚ) ≤ p.taken w raw[j] / (raw.map (p.taken w)).sum := by positivity
  have hle : p.taken w raw[j] ≤ (raw.map (p.taken w)).sum :=
    List.single_le_sum (fun _ _ => Nat.zero_le _) _ (List.mem_map_of_mem hmem)
  have hpart₁ : (p.taken w raw[j] : ℚ) / (raw.map (p.taken w)).sum ≤ 1 :=
    div_le_one_of_le₀ (Nat.cast_le.2 hle) (Nat.cast_nonneg _)
  have hS₀ : (0 : ℚ) ≤ p.scale.size.toNat := Nat.cast_nonneg _
  have hquota := ((near_quota_taken hvalue hsum hp hε hmem).mul_right hS₀).abs_sub_le
    (mul_nonneg hpart₀ hS₀) (by norm_num)
  have hsmall := (mul_le_of_le_one_left hS₀ hpart₁).trans (size_le p.scale)
  rw [mul_div_assoc, mul_comm (p.scale.size.toNat : ℚ)]
  rw [show ((2 : ℕ) : ℚ) = 2 by norm_num] at hquota
  refine (abs_sub_le _ (s j) _).trans ((add_le_add hwithin ((abs_sub_le _ _ _).trans
    (add_le_add hclose hquota))).trans ?_)
  linarith

end

/-- **Percentages keep their proportions.** Of whole percentages that add up to a hundred, every
entry gets its part of the scale in proportion to what they are taken for, within five quarters. That
is what the percentage says if every entry is tagged as one or has no tag and is not so small that it
is taken for a fraction: not `1`, and not `2` if the tolerance makes it so. -/
theorem percentages_keep_proportions (p : Policy) (hp : p.validate = .ok ())
    (hε : p.percentEpsilon < 1) {raw : List (RawEntry ι)} {w : RawEntry ι → ℕ}
    (hvalue : ∀ r ∈ raw, HasValue r.weight.value (w r)) (hsum : (raw.map w).sum = 100)
    (hn : raw.length ^ 2 * p.scale.size.toNat ≤ 2 ^ 50) :
    let counts := p.toFixed (p.ofRaw raw)
    let size : ℚ := p.scale.size.toNat
    let taken (r : RawEntry ι) : ℕ :=
      RawWeight.takenFor p.percentEpsilon r.weight.denomination (w r)
    (∀ j (hj : j < raw.length),
      |(countAt counts j : ℚ) - size * taken raw[j] / (raw.map taken).sum| ≤ 5 / 4) ∧
    ((∀ r ∈ raw, r.weight.denomination = some .percent ∨
        r.weight.denomination = none ∧ w r ≠ 1 ∧ (w r = 2 → 1 + p.percentEpsilon < 2)) →
      ∀ j (hj : j < raw.length), |(countAt counts j : ℚ) - size * w raw[j] / 100| ≤ 5 / 4) := by
  intro counts size taken
  have hclose : ∀ j (hj : j < raw.length),
      |(countAt counts j : ℚ) - size * taken raw[j] / (raw.map taken).sum| ≤ 5 / 4 :=
    fun j hj => abs_countAt_ofRaw_sub_le hvalue hsum hp hε hn hj
  refine ⟨hclose, fun hread j hj => ?_⟩
  have htaken : ∀ r ∈ raw, taken r = w r := fun r hr => by
    rcases hread r hr with hpercent | ⟨hnone, hone, htwo⟩
    · simp only [taken, hpercent, RawWeight.takenFor]
    · simp only [taken, hnone, RawWeight.takenFor]
      refine if_neg ?_
      rintro (h | ⟨h, hge⟩)
      · exact hone h
      · exact hge (htwo h)
  have hclose := hclose j hj
  rw [List.map_congr_left htaken, hsum, htaken _ (List.getElem_mem hj)] at hclose
  exact_mod_cast hclose

/-- Two percentages without a tag, and one percent that needs it. -/
theorem percentages_keep_proportions_tagged :
    let raw : List (RawEntry String) :=
      [⟨"a", ⟨20, none⟩⟩, ⟨"b", ⟨79, none⟩⟩, ⟨"c", ⟨1, some .percent⟩⟩]
    let w (r : RawEntry String) : ℕ := if r.id = "a" then 20 else if r.id = "b" then 79 else 1
    (default : Policy).validate = .ok () ∧ (default : Policy).percentEpsilon < 1 ∧
      (∀ r ∈ raw, HasValue r.weight.value (w r)) ∧ (raw.map w).sum = 100 ∧
      raw.length ^ 2 * (default : Policy).scale.size.toNat ≤ 2 ^ 50 ∧
      |(countAt ((default : Policy).toFixed ((default : Policy).ofRaw raw)) 2 : ℚ) - 100| ≤ 5 / 4 := by
  intro raw w
  have hp : (default : Policy).validate = .ok () := by decide +kernel
  have hε : (default : Policy).percentEpsilon < 1 := by decide +kernel
  have hvalue : ∀ r ∈ raw, HasValue r.weight.value (w r) := by
    simp only [raw, List.forall_mem_cons, List.not_mem_nil, false_implies, implies_true, and_true]
    exact ⟨hasValue_ofNat (n := 20) (by norm_num), hasValue_ofNat (n := 79) (by norm_num),
      hasValue_ofNat (n := 1) (by norm_num)⟩
  have hn : raw.length ^ 2 * (default : Policy).scale.size.toNat ≤ 2 ^ 50 := by decide
  obtain ⟨-, hread⟩ := percentages_keep_proportions default hp hε hvalue rfl hn
  have hlast := hread (by simp [raw, w]) 2 (by decide)
  rw [show (default : Policy).scale.size.toNat = 10000 from rfl, show w raw[2] = 1 from rfl] at hlast
  refine ⟨hp, hε, hvalue, rfl, hn, ?_⟩
  norm_num at hlast ⊢
  exact hlast

/-- **A percentage may be taken for the whole**: one percent beside ninety-nine gets a half, and with
the largest tolerance below one so do two percent beside ninety-eight. -/
theorem percentages_taken_for_wholes :
    let counts := (default : Policy).toFixed
      ((default : Policy).ofRaw [⟨"a", ⟨99, none⟩⟩, ⟨"b", ⟨1, none⟩⟩])
    let p : Policy := ⟨default, 0.9999999999999999⟩
    let counts' := p.toFixed (p.ofRaw [⟨"a", ⟨98, none⟩⟩, ⟨"b", ⟨2, none⟩⟩])
    counts = [⟨"a", 4975⟩, ⟨"b", 5025⟩] ∧ ¬ |(countAt counts 0 : ℚ) - 10000 * 99 / 100| ≤ 5 / 4 ∧
      p.validate = .ok () ∧ p.percentEpsilon < 1 ∧ counts' = [⟨"a", 4949⟩, ⟨"b", 5051⟩] ∧
      ¬ |(countAt counts' 0 : ℚ) - 10000 * 98 / 100| ≤ 5 / 4 := by
  intro counts p counts'
  have hparts : (shares ([⟨"a", ⟨99, none⟩⟩, ⟨"b", ⟨1, none⟩⟩].map fun r : RawEntry String =>
      r.weight.toUnit (default : Policy).percentEpsilon)).map (part (default : Policy).scale) =
        [⟨4974, 874371859⟩, ⟨5025, 125628141⟩] := by decide +kernel
  have hsettle : settle 10000 [⟨4974, 874371859⟩, ⟨5025, 125628141⟩] = [4975, 5025] := by
    simp [settle, assigned, total, handOut, byLargest, List.mergeSort]
  have hcounts : counts = [⟨"a", 4975⟩, ⟨"b", 5025⟩] :=
    (toFixed_ofRaw_of_parts (List.cons_ne_nil _ _) (by decide) hparts).trans (congrArg _ hsettle)
  have hparts' : (shares ([⟨"a", ⟨98, none⟩⟩, ⟨"b", ⟨2, none⟩⟩].map fun r : RawEntry String =>
      r.weight.toUnit p.percentEpsilon)).map (part p.scale) =
        [⟨4949, 494949495⟩, ⟨5050, 505050505⟩] := by decide +kernel
  have hsettle' : settle 10000 [⟨4949, 494949495⟩, ⟨5050, 505050505⟩] = [4949, 5051] := by
    simp [settle, assigned, total, handOut, byLargest, List.mergeSort]
  have hcounts' : counts' = [⟨"a", 4949⟩, ⟨"b", 5051⟩] :=
    (toFixed_ofRaw_of_parts (List.cons_ne_nil _ _) (by decide) hparts').trans (congrArg _ hsettle')
  refine ⟨hcounts, ?_, by decide +kernel, by decide +kernel, hcounts', ?_⟩
  · rw [hcounts, show countAt [⟨"a", 4975⟩, ⟨"b", 5025⟩] 0 = 4975 from rfl, abs_le]
    norm_num
  · rw [hcounts', show countAt [⟨"a", 4949⟩, ⟨"b", 5051⟩] 0 = 4949 from rfl, abs_le]
    norm_num

end Policy

end TierBudget
