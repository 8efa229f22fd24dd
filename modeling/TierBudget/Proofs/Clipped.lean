import TierBudget.Proofs.Apportionment.Fair
import TierBudget.Proofs.RoundTrip
/-!
# Counts that a scale cannot hold

A scale reads every count above its size as the whole tier, so of a larger count it holds no more
than its size (`Scale.clip`). What is left of counts read in this way is their proportion: rescaled
to another scale, each gets its part of it in all that was held, give or take little more than a
unit (`Policy.exists_mem_toFixed_decode`).
-/

namespace TierBudget

open Binary64 Apportionment

variable {ι : Type}

namespace Scale

/-- What a scale holds of a count. -/
def clip (s : Scale) (w : FixedEntry ι) : FixedEntry ι := ⟨w.id, min w.count s.size⟩

theorem clip_count_le (s : Scale) (w : FixedEntry ι) : (s.clip w).count ≤ s.size :=
  s.min_size_le w.count

end Scale

namespace Policy

variable {p : Policy} {s : Scale} {l : List (FixedEntry ι)}

/-- Of a budget a scale holds something. -/
theorem IsBudget.sum_clip_pos {ids : List ι} (h : p.IsBudget ids l) (s : Scale) :
    0 < (l.map fun w => (s.clip w).count.toNat).sum := by
  by_contra hzero
  have hnone : ∀ w ∈ l, w.count.toNat = 0 := fun w hw => by
    have hclip : (s.clip w).count.toNat ≤ 0 := (List.single_le_sum (fun _ _ => Nat.zero_le _) _
      (List.mem_map_of_mem (f := fun w => (s.clip w).count.toNat) hw)).trans (Nat.not_lt.1 hzero)
    have hsize := s.size_toNat_pos
    change (if w.count ≤ s.size then w.count else s.size).toNat ≤ 0 at hclip
    split at hclip <;> omega
  have hsum : (l.map fun w => w.count.toNat).sum = 0 := by
    rw [List.sum_eq_zero_iff]
    rintro n hn
    obtain ⟨w, hw, rfl⟩ := List.mem_map.1 hn
    exact hnone w hw
  have hsize := p.scale.size_toNat_pos
  have := h.sum_eq
  omega

/-- What the units of counts are does not depend on what a scale cannot hold of them. -/
theorem map_decode_clip (s : Scale) (l : List (FixedEntry ι)) :
    ((l.map s.clip).map fun w => (⟨w.id, s.decode w.count⟩ : Entry ι)) =
      l.map fun w => ⟨w.id, s.decode w.count⟩ := by
  rw [List.map_map]
  refine List.map_congr_left fun w _ => ?_
  exact congrArg (Entry.mk w.id) (s.decode_min w.count)

/-- Every entry has its settled count. -/
theorem exists_mem_toFixed (p : Policy) {entries : List (Entry ι)} {parts : List Float}
    (hparts : shares (entries.map Entry.unit) = parts) {i : ℕ} (hi : i < entries.length) :
    ∃ n : Count, ⟨entries[i].id, n⟩ ∈ p.toFixed entries ∧
      (settle p.scale.size.toNat (parts.map (part p.scale)))[i]? = some n.toNat := by
  have hne : parts ≠ [] := by
    rw [← List.length_pos_iff, ← hparts, length_shares, List.length_map]
    omega
  have hi' : i < (p.toFixed entries).length := by rwa [length_toFixed]
  have hid : (p.toFixed entries)[i].id = entries[i].id := by
    have hids := List.getElem?_map (f := FixedEntry.id) (l := p.toFixed entries) (i := i)
    rw [map_id_toFixed, List.getElem?_map, List.getElem?_eq_getElem hi,
      List.getElem?_eq_getElem hi'] at hids
    exact (Option.some.inj hids).symm
  refine ⟨(p.toFixed entries)[i].count, ?_, ?_⟩
  · rw [← hid]
    exact List.getElem_mem hi'
  · rw [← map_toNat_apportion hne, ← hparts, ← map_count_toFixed, List.map_map,
      List.getElem?_map, List.getElem?_eq_getElem hi']
    rfl

/-- The shares of decoded counts make little noise. -/
theorem noise_decode_le {share : FixedEntry ι → Float} {whole : ℕ}
    (hclose : ∀ e ∈ l, |scaledValue p.scale (share e) -
      e.count.toNat / whole * p.scale.size.toNat| ≤
        4 / 3 * (l.length + 4 : ℕ) / 2 ^ 53 * (e.count.toNat / whole * p.scale.size.toNat) +
          1 / 2 ^ 60)
    (hsum : (l.map fun e => e.count.toNat).sum = whole) (hwhole : 0 < whole)
    (hn : l.length * p.scale.size.toNat ≤ 2 ^ 50) (hlen : l.length ≤ 2 ^ 27) :
    noise p.scale (l.map share) < 1 := by
  have hparts : (l.map fun e => (e.count.toNat : ℚ) / whole * p.scale.size.toNat).sum =
      p.scale.size.toNat := by rw [List.sum_map_mul_right, sum_count_div hsum hwhole, one_mul]
  refine (noise_le hclose hparts).trans_lt ?_
  have hproduct : (l.length : ℚ) * p.scale.size.toNat ≤ 2 ^ 50 := by exact_mod_cast hn
  have hlen : (l.length : ℚ) ≤ 2 ^ 27 := by exact_mod_cast hlen
  have hS := size_le p.scale
  push_cast
  linarith

/-- **Counts that a scale holds are rescaled in proportion**, give or take little more than a
unit. -/
theorem exists_mem_toFixed_decode (p : Policy) {whole : ℕ} (hs : ∀ e ∈ l, e.count ≤ s.size)
    (hsum : (l.map fun e => e.count.toNat).sum = whole) (hwhole : 0 < whole)
    (hn : l.length * p.scale.size.toNat ≤ 2 ^ 50) (hlen : l.length ≤ 2 ^ 27) {w : FixedEntry ι}
    (hw : w ∈ l) :
    ∃ n : Count, ⟨w.id, n⟩ ∈ p.toFixed (l.map fun e => ⟨e.id, s.decode e.count⟩) ∧
      |(n.toNat : ℚ) - w.count.toNat / whole * p.scale.size.toNat| ≤ 5 / 4 := by
  obtain ⟨share, hshares, hclose⟩ := exists_shares_decode p hs hsum hwhole (by omega)
  have hnoise := noise_decode_le hclose hsum hwhole hn hlen
  obtain ⟨i, hi, rfl⟩ := List.mem_iff_getElem.1 hw
  obtain ⟨n, hmem, hcount⟩ := exists_mem_toFixed p (by rw [map_unit_decode, hshares]) (i := i)
    (by rwa [List.length_map])
  rw [List.getElem_map] at hmem
  obtain ⟨hsettled, hcount⟩ := List.getElem?_eq_some_iff.1 hcount
  have hsettle := abs_settle_sub_le hnoise (by rwa [List.length_map]) hsettled
  rw [List.getElem_map, hcount] at hsettle
  refine ⟨n, hmem, ?_⟩
  have hover := overshoot_scaledValue_le p.scale (share l[i])
  refine (abs_sub_le _ _ _).trans ((add_le_add hsettle (hclose _ (List.getElem_mem hi))).trans ?_)
  have hpart : (l[i].count.toNat : ℚ) / whole * p.scale.size.toNat ≤ p.scale.size.toNat := by
    refine mul_le_of_le_one_left (Nat.cast_nonneg _) ?_
    rw [div_le_one (Nat.cast_pos.2 hwhole)]
    exact_mod_cast count_le_of_sum_le hsum.le hw
  have hproduct : (l.length : ℚ) * ((l[i].count.toNat : ℚ) / whole * p.scale.size.toNat) ≤
      2 ^ 50 :=
    (mul_le_mul_of_nonneg_left hpart (Nat.cast_nonneg _)).trans (by exact_mod_cast hn)
  have hS := size_le p.scale
  push_cast
  linarith

end Policy

end TierBudget
