import TierBudget.Proofs.Encoding
import TierBudget.Proofs.Quotas
import TierBudget.Proofs.Tiers
/-!
# Even splits are exact

`n` entries of the same weight get `S / n` units of a scale of size `S` each, and the first `S % n` of
them one more, if `n * S ≤ 2 ^ 50` (`Policy.toFixed_eq_evenCounts`). This does not depend on how the
even shares were found, by a division of `1 / n` by a running sum or without it.

Equal shares are cut to equal parts. Whatever their floor is, settling them splits the scale evenly
(`Apportionment.settle_replicate`), provided that the floors do not exceed it. They do not, although a
share that lies just below a whole number is cut to it (`Apportionment.mul_part_floor_le`).
-/

namespace TierBudget

/-! ## Equal parts -/

namespace Apportionment

variable {n total : ℕ} {q : Part}

/-- A total that is split evenly. The first parts are one larger, as many as there are units left by
the division. -/
def evenParts (total n : ℕ) : List ℕ :=
  (List.range n).map fun i => total / n + if i < total % n then 1 else 0

@[simp] theorem length_evenParts (total n : ℕ) : (evenParts total n).length = n := by
  simp [evenParts]

theorem le_of_mem_evenParts {m : ℕ} (h : m ∈ evenParts total n) : m ≤ total := by
  obtain ⟨i, hi, rfl⟩ := List.mem_map.1 h
  have hn : 0 < n := i.zero_le.trans_lt (List.mem_range.1 hi)
  have hdiv := Nat.div_add_mod total n
  have hle : total / n ≤ n * (total / n) := Nat.le_mul_of_pos_left _ hn
  split <;> omega

/-- No part is empty unless there are more parts than units. -/
theorem forall_evenParts_ne_zero (hn : 0 < n) : (∀ m ∈ evenParts total n, m ≠ 0) ↔ n ≤ total := by
  simp only [evenParts, List.forall_mem_map, List.mem_range]
  constructor
  · intro h
    by_contra hlt
    have hlast := h (n - 1) (by omega)
    rw [Nat.div_eq_of_lt (by omega), Nat.mod_eq_of_lt (by omega), if_neg (by omega)] at hlast
    exact hlast rfl
  · intro h i _
    have := Nat.div_pos h hn
    omega

/-- Equal parts are given to in the order in which they stand. -/
theorem givingOrder_replicate (n : ℕ) (q : Part) :
    givingOrder (List.replicate n q) = List.range n := by
  have hequal : ∀ x ∈ (List.replicate n q).zipIdx, x.1 = q := fun x hx => by
    obtain ⟨_, heq⟩ := List.mem_zipIdx' hx
    rw [heq, List.getElem_replicate]
  have hsorted : (List.replicate n q).zipIdx.Pairwise fun a b =>
      decide (b.1.remainder ≤ a.1.remainder) = true :=
    List.pairwise_of_forall_mem_list fun a ha b hb => by simp [hequal a ha, hequal b hb]
  rw [givingOrder, byLargest, List.mergeSort_of_pairwise hsorted, List.zipIdx_map_snd,
    List.length_replicate, List.range_eq_range']

/-- **Settling equal parts splits the total evenly**, whatever their floor is. -/
theorem settle_replicate (h : n * q.floor ≤ total) :
    settle total (List.replicate n q) = evenParts total n := by
  have hassigned : assigned (List.replicate n q) = n * q.floor := by
    simp [assigned, total_eq_sum]
  rw [settle, if_pos (by rwa [hassigned]), hassigned]
  refine List.ext_getElem (by simp) fun i hi hi' => ?_
  rw [length_evenParts] at hi'
  have hrank : (List.range n).idxOf i = i := by
    have hrank := (List.nodup_range (n := n)).idxOf_getElem i (by simpa using hi')
    rwa [List.getElem_range] at hrank
  have hfloor : q.floor ≤ total / n := by
    rwa [Nat.le_div_iff_mul_le (i.zero_le.trans_lt hi'), Nat.mul_comm]
  rw [getElem_handOut (by simpa using hi'), givingOrder_replicate, hrank, List.getElem_replicate,
    List.length_replicate, Nat.sub_mul_div, Nat.sub_mul_mod h]
  simp only [evenParts, List.getElem_map, List.getElem_range]
  omega

/-! ## Equal shares -/

/-- How a share is cut depends only on what it is in units of the scale. -/
theorem part_congr {scale : Scale} {x y : Float}
    (h : scaledValue scale x = scaledValue scale y) : part scale x = part scale y := by
  have hfloor : (part scale x).floor = (part scale y).floor := by rw [part_floor, part_floor, h]
  have hrem : (part scale x).remainder = (part scale y).remainder :=
    le_antisymm (remainder_le_remainder h.le hfloor) (remainder_le_remainder h.ge hfloor.symm)
  cases hx : part scale x
  cases hy : part scale y
  simp_all

section

variable {scale : Scale} {share : Float} {even : ℚ}

/-- Up to `2 ^ 27` even shares are so close to their part that the errors of all their floors together
are less than a unit. -/
theorem mul_part_floor_lt (hn : n * scale.size.toNat ≤ 2 ^ 50) (heven : n * even = scale.size.toNat)
    (hshare : scaledValue scale share ≤
      even + (scale.size.toNat + 2 * even) / 2 ^ 52 + 1 / 2 ^ 60) (hfew : n ≤ 2 ^ 27) :
    n * ((part scale share).floor : ℚ) < scale.size.toNat + 1 := by
  have hfloor : ((part scale share).floor : ℚ) ≤ scaledValue scale share +
      (scaledValue scale share / 2 ^ 53 + 1 / 2 ^ 29) := floor_le scale share
  have hn' : (n : ℚ) * scale.size.toNat ≤ 2 ^ 50 := by exact_mod_cast hn
  have hfew' : (n : ℚ) ≤ 2 ^ 27 := by exact_mod_cast hfew
  have hS : (scale.size.toNat : ℚ) ≤ 2 ^ 32 := size_le scale
  have hall : n * scaledValue scale share ≤ scale.size.toNat +
      (n * scale.size.toNat + 2 * scale.size.toNat) / 2 ^ 52 + n / 2 ^ 60 := by
    calc n * scaledValue scale share ≤
        n * (even + (scale.size.toNat + 2 * even) / 2 ^ 52 + 1 / 2 ^ 60) := by gcongr
      _ = n * even + (n * scale.size.toNat + 2 * (n * even)) / 2 ^ 52 + n / 2 ^ 60 := by ring
      _ = _ := by rw [heven]
  calc n * ((part scale share).floor : ℚ) ≤
      n * (scaledValue scale share + (scaledValue scale share / 2 ^ 53 + 1 / 2 ^ 29)) := by gcongr
    _ = n * scaledValue scale share + n * scaledValue scale share / 2 ^ 53 + n / 2 ^ 29 := by ring
    _ < scale.size.toNat + 1 := by linarith

/-- More even shares than that are nearly nothing each, and cut to nothing. -/
theorem part_floor_eq_zero (hn : n * scale.size.toNat ≤ 2 ^ 50) (heven₀ : 0 ≤ even)
    (heven : n * even = scale.size.toNat)
    (hshare : scaledValue scale share ≤
      even + (scale.size.toNat + 2 * even) / 2 ^ 52 + 1 / 2 ^ 60) (hmany : 2 ^ 27 < n) :
    (part scale share).floor = 0 := by
  have hfloor : ((part scale share).floor : ℚ) ≤ scaledValue scale share +
      (scaledValue scale share / 2 ^ 53 + 1 / 2 ^ 29) := floor_le scale share
  have hn' : (n : ℚ) * scale.size.toNat ≤ 2 ^ 50 := by exact_mod_cast hn
  have hmany' : (2 : ℚ) ^ 27 ≤ n := by exact_mod_cast hmany.le
  have hsize : 2 ^ 27 * (scale.size.toNat : ℚ) ≤ 2 ^ 50 :=
    (mul_le_mul_of_nonneg_right hmany' (Nat.cast_nonneg _)).trans hn'
  have hsmall : 2 ^ 27 * even ≤ scale.size.toNat :=
    (mul_le_mul_of_nonneg_right hmany' heven₀).trans heven.le
  have hlt : ((part scale share).floor : ℚ) < 1 := by linarith
  exact Nat.lt_one_iff.1 (by exact_mod_cast hlt)

/-- **The floors of even shares do not exceed the scale.** -/
theorem mul_part_floor_le (hn₀ : 0 < n) (hn : n * scale.size.toNat ≤ 2 ^ 50)
    (hclose : |scaledValue scale share - 1 / n * scale.size.toNat| ≤
      4 / 3 * (n + 2 : ℕ) / 2 ^ 53 * (1 / n * scale.size.toNat) + 1 / 2 ^ 60) :
    n * (part scale share).floor ≤ scale.size.toNat := by
  have heven : (n : ℚ) * (1 / n * scale.size.toNat) = scale.size.toNat := by field_simp
  have heven₀ : (0 : ℚ) ≤ 1 / n * scale.size.toNat := by positivity
  have hclose := (abs_le.1 hclose).2
  generalize (1 : ℚ) / n * scale.size.toNat = even at *
  have hshare : scaledValue scale share ≤
      even + (scale.size.toNat + 2 * even) / 2 ^ 52 + 1 / 2 ^ 60 := by
    have hsplit : ((n + 2 : ℕ) : ℚ) * even = scale.size.toNat + 2 * even := by
      push_cast
      rw [add_mul, heven]
    linarith
  rcases le_or_gt n (2 ^ 27) with hfew | hmany
  · have hlt := mul_part_floor_lt hn heven hshare hfew
    exact Nat.lt_add_one_iff.1 (by exact_mod_cast hlt)
  · rw [part_floor_eq_zero hn heven₀ heven hshare hmany, Nat.mul_zero]
    exact Nat.zero_le _

end

end Apportionment

namespace Policy

open Binary64 Apportionment

/-! ## Even counts -/

variable {ι : Type} {p : Policy}

/-- Even counts under the given ids, in their order. -/
def evenCounts (p : Policy) (ids : List ι) : List (FixedEntry ι) :=
  ids.zipWith (fun id n => ⟨id, .ofNat n⟩) (evenParts p.scale.size.toNat ids.length)

@[simp] theorem map_id_evenCounts (p : Policy) (ids : List ι) :
    (p.evenCounts ids).map FixedEntry.id = ids := by
  refine List.ext_getElem ?_ fun i _ _ => ?_ <;> simp [evenCounts]

/-- No even count leaves the range of words. -/
theorem map_count_evenCounts (p : Policy) (ids : List ι) :
    ((p.evenCounts ids).map fun w => w.count.toNat) = evenParts p.scale.size.toNat ids.length := by
  refine List.ext_getElem (by simp [evenCounts]) fun i _ h => ?_
  have hle := le_of_mem_evenParts (List.getElem_mem h)
  have hlt := p.scale.size.toNat_lt
  simp only [evenCounts, List.getElem_map, List.getElem_zipWith]
  exact toNat_ofNat_of_lt (by omega)

/-- **Entries of the same weight get even counts.** -/
theorem toFixed_eq_evenCounts {entries : List (Entry ι)} {v : ℚ} (hne : entries ≠ [])
    (hn : entries.length * p.scale.size.toNat ≤ 2 ^ 50)
    (h : ∀ e ∈ entries, value (clampUnit e.unit) = v) :
    p.toFixed entries = p.evenCounts (entries.map Entry.id) := by
  obtain ⟨e, he⟩ := List.exists_mem_of_ne_nil entries hne
  have hunits : entries.map Entry.unit ≠ [] := by simpa using hne
  have hsame : ∀ u ∈ entries.map Entry.unit, value (clampUnit u) = v := by simpa using h
  have hmem : e.unit ∈ entries.map Entry.unit := List.mem_map_of_mem he
  obtain ⟨share, hshares, hclose, -, hmono⟩ := exists_shares_quota p.scale hunits (by
    rw [List.length_map]
    exact (Nat.le_mul_of_pos_right _ p.scale.size_toNat_pos).trans hn)
  have hparts : (shares (entries.map Entry.unit)).map (part p.scale) =
      List.replicate entries.length (part p.scale (share e.unit)) := by
    refine List.eq_replicate_iff.2 ⟨by simp, ?_⟩
    rw [hshares, List.map_map, List.forall_mem_map]
    intro u hu
    have heq : value (clampUnit u) = value (clampUnit e.unit) := by rw [hsame u hu, h e he]
    exact part_congr (le_antisymm (hmono u hu _ hmem heq.le) (hmono _ hmem u hu heq.ge))
  have hfloor : entries.length * (part p.scale (share e.unit)).floor ≤ p.scale.size.toNat := by
    have hclose := hclose _ hmem
    rw [quota_of_forall_eq hsame hmem, List.length_map] at hclose
    exact mul_part_floor_le (List.length_pos_of_ne_nil hne) hn hclose
  rw [toFixed, apportion, hparts, settle_replicate hfloor, evenCounts, List.length_map,
    List.zipWith_map_left, List.zipWith_map_right]

/-- Entries that are split evenly: their units are decoded from even counts, and these are what the
entries are rescaled to and what their units are encoded as one by one. -/
structure EvenlySplit (p : Policy) (ids : List ι) (entries : List (Entry ι)) : Prop where
  eq_ofFixed : entries = p.ofFixed (p.evenCounts ids)
  toFixed_eq : p.toFixed entries = p.evenCounts ids
  encode_eq : entries.map (fun e => p.scale.encode e.unit) = (p.evenCounts ids).map FixedEntry.count

theorem evenlySplit_normalize {entries : List (Entry ι)} {v : ℚ} (hne : entries ≠ [])
    (hn : entries.length * p.scale.size.toNat ≤ 2 ^ 50)
    (h : ∀ e ∈ entries, value (clampUnit e.unit) = v) :
    p.EvenlySplit (entries.map Entry.id) (p.normalize entries) := by
  have hfixed := toFixed_eq_evenCounts hne hn h
  refine ⟨congrArg p.ofFixed hfixed, (toFixed_normalize hne hn).trans hfixed, ?_⟩
  rw [← hfixed, normalize, ofFixed, List.map_map]
  exact List.map_congr_left fun w hw =>
    p.scale.encode_decode ((p.isBudget_toFixed hne).count_le_size hw)

theorem evenlySplit_evenSplit {ids : List ι} (hne : ids ≠ [])
    (hn : ids.length * p.scale.size.toNat ≤ 2 ^ 50) : p.EvenlySplit ids (p.evenSplit ids) := by
  have hsame : ∀ e ∈ ids.map fun id => (⟨id, 1 / .ofNat ids.length⟩ : Entry ι),
      value (clampUnit e.unit) = value (clampUnit (1 / .ofNat ids.length)) := fun e he => by
    obtain ⟨id, -, rfl⟩ := List.mem_map.1 he
    rfl
  have hsplit := evenlySplit_normalize (p := p) (by simpa using hne) (by simpa using hn) hsame
  rwa [List.map_map, show Entry.id ∘ _ = id from rfl, List.map_id] at hsplit

/-- **Even splits are exact on every path.** Splitting a scale evenly among ids gives each the whole
part of the division and the first ones one more, so that none of them gets nothing unless there are
more ids than units. The same counts come from entries whose clamped units are all zero, from detaching
an entry if those of all the others are, and from attaching one to a tier, whatever its weights are. -/
theorem even_splits_are_exact [DecidableEq ι] (p : Policy) :
    let size := p.scale.size.toNat
    (∀ ids : List ι, ids ≠ [] → ids.length * size ≤ 2 ^ 50 →
      p.EvenlySplit ids (p.evenSplit ids) ∧
      (p.evenCounts ids).map FixedEntry.id = ids ∧
      ((p.evenCounts ids).map fun w => w.count.toNat) = evenParts size ids.length ∧
      ((∀ w ∈ p.evenCounts ids, w.count ≠ 0) ↔ ids.length ≤ size)) ∧
    (∀ entries : List (Entry ι), entries ≠ [] → entries.length * size ≤ 2 ^ 50 →
      (∀ e ∈ entries, value (clampUnit e.unit) = 0) →
      p.toFixed entries = p.evenCounts (entries.map Entry.id) ∧
      p.EvenlySplit (entries.map Entry.id) (p.normalize entries)) ∧
    (∀ (entries left : List (Entry ι)) (target : ι), target ∈ entries.map Entry.id →
      entries.eraseP (·.id = target) = left → left ≠ [] → left.length * size ≤ 2 ^ 50 →
      (∀ e ∈ left, value (clampUnit e.unit) = 0) →
      ∃ rest, p.detach entries target = some rest ∧ p.EvenlySplit (left.map Entry.id) rest) ∧
    ∀ (t : Tier) (id : String), id ∉ t.ids → (t.ids.length + 1) * size ≤ 2 ^ 50 →
      ∃ t', t.attach p id = .ok t' ∧ t'.id = t.id ∧ p.EvenlySplit (t.ids ++ [id]) t'.entries ∧
        t'.fixedWeights p = p.evenCounts (t.ids ++ [id]) := by
  intro size
  refine ⟨fun ids hne hn => ⟨evenlySplit_evenSplit hne hn, map_id_evenCounts p ids,
      map_count_evenCounts p ids, ?_⟩,
    fun entries hne hn h => ⟨toFixed_eq_evenCounts hne hn h, evenlySplit_normalize hne hn h⟩,
    fun entries left target hmem hleft hne hn h => ?_, fun t id hid hn => ?_⟩
  · rw [← forall_evenParts_ne_zero (List.length_pos_of_ne_nil hne), ← map_count_evenCounts,
      List.forall_mem_map]
    refine forall₂_congr fun w _ => ?_
    rw [ne_eq, ne_eq, ← UInt32.toNat_inj]
    rfl
  · rw [p.detach_of_mem hmem, hleft]
    exact ⟨_, rfl, evenlySplit_normalize hne hn h⟩
  · have hsplit : p.EvenlySplit (t.ids ++ [id]) (p.evenSplit (t.ids ++ [id])) :=
      evenlySplit_evenSplit (by simp) (by simpa using hn)
    refine ⟨{ t with entries := p.evenSplit (t.ids ++ [id]) }, ?_, rfl, hsplit, hsplit.toFixed_eq⟩
    rw [Tier.attach, if_neg (by simpa [Tier.contains] using hid)]

/-- Ten thousand units for three entries, for the two that are left of them, and for the fourth that
is attached. -/
theorem even_splits_are_exact_three :
    let entries : List (Entry String) := [⟨"a", 0⟩, ⟨"b", -1⟩, ⟨"c", 0⟩]
    (entries.length + 1) * (default : Policy).scale.size.toNat ≤ 2 ^ 50 ∧
      (∀ e ∈ entries, value (clampUnit e.unit) = 0) ∧
      (default : Policy).toFixed ((default : Policy).evenSplit ["a", "b", "c"]) =
        [⟨"a", 3334⟩, ⟨"b", 3333⟩, ⟨"c", 3333⟩] ∧
      (default : Policy).toFixed entries = [⟨"a", 3334⟩, ⟨"b", 3333⟩, ⟨"c", 3333⟩] ∧
      (∃ rest, (default : Policy).detach entries "b" = some rest ∧
        (default : Policy).toFixed rest = [⟨"a", 5000⟩, ⟨"c", 5000⟩]) ∧
      ∃ t, Tier.attach default ⟨"t", entries⟩ "d" = .ok t ∧ t.fixedWeights default =
        [⟨"a", 2500⟩, ⟨"b", 2500⟩, ⟨"c", 2500⟩, ⟨"d", 2500⟩] := by
  intro entries
  have hzero : value (clampUnit 0) = 0 := by
    rw [show clampUnit 0 = 0 by decide +kernel, hasValue_zero.value_eq]
  have hlow : value (clampUnit (-1)) = 0 := by
    rw [show clampUnit (-1) = 0 by decide +kernel, hasValue_zero.value_eq]
  have hall : ∀ e ∈ entries, value (clampUnit e.unit) = 0 := by simp [entries, hzero, hlow]
  have hn : (entries.length + 1) * (default : Policy).scale.size.toNat ≤ 2 ^ 50 := by decide
  obtain ⟨heven, hfixed, hdetach, hattach⟩ := even_splits_are_exact (ι := String) default
  obtain ⟨hsplit, -⟩ := heven ["a", "b", "c"] (List.cons_ne_nil _ _) (by decide)
  obtain ⟨hcounts, -⟩ := hfixed entries (List.cons_ne_nil _ _) (by decide) hall
  obtain ⟨rest, hrest, hleft⟩ := hdetach entries [⟨"a", 0⟩, ⟨"c", 0⟩] "b" (by decide) rfl
    (List.cons_ne_nil _ _) (by decide) (by simp [hzero])
  obtain ⟨t, ht, -, -, hweights⟩ := hattach ⟨"t", entries⟩ "d" (by decide) hn
  exact ⟨hn, hall, hsplit.toFixed_eq.trans (by decide +kernel), hcounts.trans (by decide +kernel),
    ⟨rest, hrest, hleft.toFixed_eq.trans (by decide +kernel)⟩, t, ht,
    hweights.trans (by decide +kernel)⟩

end Policy

end TierBudget
