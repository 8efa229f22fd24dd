import TierBudget.Proofs.Apportionment.Recover
import TierBudget.Proofs.Budget
import TierBudget.Proofs.Shares
/-!
# Counts and units are inverse on budgets

A budget of `n` counts at a scale of size `S` with `n * S ≤ 2 ^ 50` comes back from its units
(`Policy.toFixed_ofFixed`), so that normalizing twice is normalizing once. It even comes back from
units that another scale decoded, as long as that scale can hold the counts
(`Policy.IsBudget.toFixed_decode`).

A unit is one rounding away from its part of the scale that decoded it (`Scale.near_value_decode`),
and so is the mass of all units. What a count is multiplied back to is `n + 4` roundings away from
it (`exists_shares_decode`), which is less than a quarter, and `settle_of_close` recovers the count.
-/

namespace TierBudget

open Binary64 Apportionment

namespace Scale

/-! ## Units of counts -/

variable {s : Scale} {n : Count}

theorem div_size_le_one (h : n ≤ s.size) : (n.toNat : ℚ) / s.size.toNat ≤ 1 := by
  rw [div_le_one (by exact_mod_cast s.size_toNat_pos)]
  exact_mod_cast h

theorem abs_nearest_div_size_sub_le (h : n ≤ s.size) :
    |nearest ((n.toNat : ℚ) / s.size.toNat) - n.toNat / s.size.toNat| ≤ 1 / 2 ^ 54 := by
  have hround := abs_nearest_sub_le_of_abs_le (k := 0) (by norm_num)
    (q := (n.toNat : ℚ) / s.size.toNat) (by
      rw [abs_of_nonneg (by positivity), zpow_zero]
      exact div_size_le_one h)
  norm_num at hround ⊢
  exact hround

theorem min_size_le (s : Scale) (n : Count) : min n s.size ≤ s.size := by
  change (if n ≤ s.size then n else s.size) ≤ s.size
  split
  · assumption
  · exact UInt32.le_refl _

/-- Of a larger count a scale reads its size. -/
theorem decode_min (s : Scale) (n : Count) : s.decode (min n s.size) = s.decode n := by
  rw [decode, decode, show min (min n s.size) s.size = min n s.size from if_pos (s.min_size_le n)]

theorem clampUnit_decode (s : Scale) (n : Count) : clampUnit (s.decode n) = s.decode n := by
  have hone : IsDouble 1 := by simpa using isDouble_natCast (n := 1)
  have h := s.min_size_le n
  rw [← s.decode_min]
  exact (s.hasValue_decode _ h).clampUnit_eq_self (nearest_nonneg (by positivity))
    (nearest_le hone (div_size_le_one h))

theorem value_decode (h : n ≤ s.size) :
    value (clampUnit (s.decode n)) = nearest (n.toNat / s.size.toNat) := by
  rw [clampUnit_decode, (s.hasValue_decode n h).value_eq]

/-- No part of a scale is too small to be a normal number. -/
theorem two_zpow_le_div_size (hn : n.toNat ≠ 0) :
    2 ^ (-32 : ℤ) ≤ (n.toNat : ℚ) / s.size.toNat := by
  have hone : (1 : ℚ) ≤ n.toNat := Nat.one_le_cast.2 (Nat.one_le_iff_ne_zero.2 hn)
  rw [le_div_iff₀ (by exact_mod_cast s.size_toNat_pos)]
  have := size_le s
  norm_num
  linarith

/-- **A unit is one rounding away from its part of the scale.** -/
theorem near_value_decode (h : n ≤ s.size) :
    Near 1 (value (clampUnit (s.decode n))) (n.toNat / s.size.toNat) := by
  rw [value_decode h]
  by_cases hn : n.toNat = 0
  · rw [hn, Nat.cast_zero, zero_div, nearest_zero]
    exact .refl le_rfl 1
  · exact near_nearest ((two_zpow_le (by norm_num)).trans (two_zpow_le_div_size hn))

end Scale

namespace Policy

variable {ι : Type} {p : Policy} {ids : List ι} {fixed : List (FixedEntry ι)} {s : Scale}

theorem map_unit_decode (s : Scale) (l : List (FixedEntry ι)) :
    (l.map fun e => (⟨e.id, s.decode e.count⟩ : Entry ι)).map Entry.unit =
      l.map fun e => s.decode e.count := by
  rw [List.map_map]
  rfl

/-- The mass of units is one rounding away from what their counts are in all of the scale. -/
theorem near_mass_decode (hs : ∀ e ∈ fixed, e.count ≤ s.size) :
    Near 1 (mass (fixed.map fun e => s.decode e.count))
      (((fixed.map fun e => e.count.toNat).sum : ℕ) / s.size.toNat) := by
  have hsum : (fixed.map fun e => (e.count.toNat : ℚ) / s.size.toNat).sum =
      ((fixed.map fun e => e.count.toNat).sum : ℕ) / s.size.toNat := by
    simp only [div_eq_mul_inv]
    rw [List.sum_map_mul_right, Nat.cast_list_sum, List.map_map]
    rfl
  rw [mass, List.map_map, ← hsum]
  exact Near.sum fun e he => Scale.near_value_decode (hs e he)

/-- The parts of the whole add up to one. -/
theorem sum_count_div {l : List (FixedEntry ι)} {whole : ℕ}
    (hsum : (l.map fun e => e.count.toNat).sum = whole) (hwhole : 0 < whole) :
    (l.map fun e => (e.count.toNat : ℚ) / whole).sum = 1 := by
  simp only [div_eq_mul_inv]
  rw [List.sum_map_mul_right, mul_inv_eq_one₀ (Nat.cast_ne_zero.2 hwhole.ne'), ← hsum,
    Nat.cast_list_sum, List.map_map]
  rfl

/-- **Shares of decoded counts lie close to the parts of the whole that the counts have**, whichever
scale decoded them. -/
theorem exists_shares_decode (p : Policy) {l : List (FixedEntry ι)} {whole : ℕ}
    (hs : ∀ e ∈ l, e.count ≤ s.size) (hsum : (l.map fun e => e.count.toNat).sum = whole)
    (hwhole : 0 < whole) (hlen : l.length + 4 ≤ 2 ^ 51) :
    ∃ share : FixedEntry ι → Float, shares (l.map fun e => s.decode e.count) = l.map share ∧
      ∀ e ∈ l, |scaledValue p.scale (share e) - e.count.toNat / whole * p.scale.size.toNat| ≤
        4 / 3 * (l.length + 4 : ℕ) / 2 ^ 53 * (e.count.toNat / whole * p.scale.size.toNat) +
          1 / 2 ^ 60 := by
  have hW : (0 : ℚ) < whole := Nat.cast_pos.2 hwhole
  have hS : (0 : ℚ) < s.size.toNat := Nat.cast_pos.2 s.size_toNat_pos
  have hnear : ∀ e ∈ l, Near 1 (value (clampUnit (s.decode e.count)))
      ((e.count.toNat : ℚ) / whole * (whole / s.size.toNat)) := fun e he => by
    rw [div_mul_div_cancel₀ hW.ne']
    exact Scale.near_value_decode (hs e he)
  obtain ⟨share, hshares, hclose, -, -⟩ := exists_shares_near p.scale (div_pos hW hS)
    (fun e _ => by positivity) hnear (sum_count_div hsum hwhole) (by omega)
  exact ⟨share, hshares, hclose⟩

/-! ## The round trip -/

theorem map_id_map_count_ext {l l' : List (FixedEntry ι)}
    (hid : l.map FixedEntry.id = l'.map FixedEntry.id)
    (hcount : l.map FixedEntry.count = l'.map FixedEntry.count) : l = l' := by
  have hlen : l.length = l'.length := by simpa using congrArg List.length hid
  refine List.ext_getElem hlen fun i h h' => ?_
  have hi := List.getElem_of_eq hid (by simpa using h)
  have hc := List.getElem_of_eq hcount (by simpa using h)
  rw [List.getElem_map, List.getElem_map] at hi hc
  cases hl : l[i]
  cases hl' : l'[i]
  simp_all

/-- **A budget comes back from units that any scale decoded** which can hold its counts. -/
theorem IsBudget.toFixed_decode (h : p.IsBudget ids fixed) (hs : ∀ e ∈ fixed, e.count ≤ s.size)
    (hn : fixed.length * p.scale.size.toNat ≤ 2 ^ 50) :
    p.toFixed (fixed.map fun e => ⟨e.id, s.decode e.count⟩) = fixed := by
  have hlen : fixed.length ≤ 2 ^ 50 :=
    (Nat.le_mul_of_pos_right _ p.scale.size_toNat_pos).trans hn
  obtain ⟨share, hshares, hclose⟩ := exists_shares_decode p hs h.sum_eq p.scale.size_toNat_pos
    (by omega)
  have hclose : ∀ e ∈ fixed, |scaledValue p.scale (share e) - e.count.toNat| ≤ 6 / 25 := by
    intro e he
    have hclose := hclose e he
    rw [div_mul_cancel₀ _ p.scale.size_ne_zero] at hclose
    refine hclose.trans ?_
    have hcount : (e.count.toNat : ℚ) ≤ 2 ^ 32 := by exact_mod_cast e.count.toNat_lt.le
    have hproduct : (fixed.length : ℚ) * e.count.toNat ≤ 2 ^ 50 := by
      exact_mod_cast (Nat.mul_le_mul_left _ (h.count_le he)).trans hn
    push_cast
    linarith
  refine map_id_map_count_ext (by rw [map_id_toFixed, List.map_map]; rfl) ?_
  rw [map_count_toFixed, map_unit_decode, hshares, apportion, settle_of_close hclose h.sum_eq,
    List.map_map]
  exact List.map_congr_left fun e _ => UInt32.ofNat_toNat

/-- **A budget comes back from its units.** -/
theorem toFixed_ofFixed (h : p.IsBudget ids fixed)
    (hn : fixed.length * p.scale.size.toNat ≤ 2 ^ 50) : p.toFixed (p.ofFixed fixed) = fixed :=
  h.toFixed_decode (fun _ he => h.count_le_size he) hn

theorem toFixed_normalize {entries : List (Entry ι)} (h : entries ≠ [])
    (hn : entries.length * p.scale.size.toNat ≤ 2 ^ 50) :
    p.toFixed (p.normalize entries) = p.toFixed entries :=
  toFixed_ofFixed (p.isBudget_toFixed h) (by rwa [length_toFixed])

/-- **Counts and units are exact inverses on budgets**, and so normalizing is idempotent bit for
bit. -/
theorem fixed_and_units_inverse (p : Policy) :
    (∀ fixed : List (FixedEntry ι), (fixed.map fun e => e.count.toNat).sum = p.scale.size.toNat →
      fixed.length * p.scale.size.toNat ≤ 2 ^ 50 → p.toFixed (p.ofFixed fixed) = fixed) ∧
    (∀ entries : List (Entry ι), entries ≠ [] → entries.length * p.scale.size.toNat ≤ 2 ^ 50 →
      p.toFixed (p.normalize entries) = p.toFixed entries ∧
        p.normalize (p.normalize entries) = p.normalize entries) := by
  refine ⟨fun fixed hsum hn => toFixed_ofFixed ⟨rfl, hsum⟩ hn, fun entries h hn => ?_⟩
  have hfixed := toFixed_normalize (p := p) h hn
  exact ⟨hfixed, congrArg p.ofFixed hfixed⟩

/-- A quarter and three quarters of ten thousand units. -/
theorem fixed_and_units_inverse_quarters :
    let fixed : List (FixedEntry String) := [⟨"a", 2500⟩, ⟨"b", 7500⟩]
    (default : Policy).toFixed ((default : Policy).ofFixed fixed) = fixed ∧
      (default : Policy).toFixed ((default : Policy).normalize [⟨"a", 0.5⟩, ⟨"b", 0.25⟩]) =
        (default : Policy).toFixed [⟨"a", 0.5⟩, ⟨"b", 0.25⟩] := by
  intro fixed
  obtain ⟨hfixed, hentries⟩ := fixed_and_units_inverse (ι := String) default
  exact ⟨hfixed fixed rfl (by decide), (hentries _ (List.cons_ne_nil _ _) (by decide)).1⟩

end Policy

end TierBudget
