import TierBudget.Proofs.Endpoints
/-!
# Rounding at another scale

Whether a tier is settled is asked of any scale, not only of the one its units are on. Rounded one by
one at a scale of size `S`, the units of `n` endpoints give counts whose sum is half of `n` away from
`S` at most, and at most twice `S` (`Policy.IsBudget.sum_encode_le`). The sum is checked, so the
question has no answer if it leaves the 32-bit range (`Tier.isSettled?_eq_none_iff`). That cannot
happen below `2 ^ 31`, nor as long as half of `n` fits above `S` (`Tier.settled_check_answers`), but
it does happen at the largest scale, with no more than two endpoints
(`Tier.settled_check_overflows`).
-/

namespace TierBudget

open Binary64 Apportionment

/-! ## Checked sums -/

namespace Count

theorem foldlM_add?_eq_none_iff {cs : List Count} {acc : Count} :
    cs.foldlM add? acc = none ↔ UInt32.size ≤ acc.toNat + (cs.map UInt32.toNat).sum := by
  induction cs generalizing acc with
  | nil => exact iff_of_false (fun h => by cases h) (Nat.not_le.2 acc.toNat_lt)
  | cons a cs ih =>
    rw [List.foldlM_cons, List.map_cons, List.sum_cons, ← Nat.add_assoc]
    by_cases h : acc.toNat + a.toNat < UInt32.size
    · obtain ⟨b, hb, hnat⟩ := exists_add? h
      rw [hb, ← hnat]
      exact ih
    · have hnone : add? acc a = none := if_neg h
      rw [hnone]
      exact iff_of_true rfl (by omega)

/-- **A checked sum has no value exactly if it leaves the 32-bit range.** -/
theorem sum?_eq_none_iff {cs : List Count} :
    sum? cs = none ↔ UInt32.size ≤ (cs.map UInt32.toNat).sum := by
  rw [sum?, foldlM_add?_eq_none_iff, UInt32.toNat_zero, Nat.zero_add]

end Count

/-! ## One unit -/

namespace Scale

variable {s q : Scale} {n : Count}

/-- A count of one scale is two roundings away from its part of another scale. -/
theorem near_scaledValue_decode (s : Scale) (h : n ≤ q.size) :
    Near 2 (scaledValue s (q.decode n)) (n.toNat / q.size.toNat * s.size.toNat) := by
  have hS : (1 : ℚ) ≤ s.size.toNat := Nat.one_le_cast.2 s.size_toNat_pos
  have hvalue := (near_value_decode h).mul_right (zero_le_one.trans hS)
  by_cases hn : n.toNat = 0
  · have hzero : scaledValue s (q.decode n) = 0 := by
      rw [scaledValue, value_decode h, hn, Nat.cast_zero, zero_div, nearest_zero, zero_mul,
        nearest_zero]
    rw [hzero, hn, Nat.cast_zero, zero_div, zero_mul]
    exact .refl le_rfl 2
  · have hlow : 2 ^ (-32 : ℤ) ≤ value (clampUnit (q.decode n)) := by
      rw [value_decode h]
      exact le_nearest (isDouble_two_zpow (by norm_num)) (two_zpow_le_div_size hn)
    have hproduct := hlow.trans (le_mul_of_one_le_right ((two_zpow_pos _).le.trans hlow) hS)
    exact (near_nearest ((two_zpow_le (by norm_num)).trans hproduct)).trans hvalue

/-- A count that is not zero is at most twice what was rounded. -/
theorem encode_le_two_mul (s : Scale) (unit : Float) :
    ((s.encode unit).toNat : ℚ) ≤ 2 * scaledValue s unit := by
  have hnonneg := scaledValue_nonneg s unit
  rcases Nat.eq_zero_or_pos (s.encode unit).toNat with hzero | hpos
  · rw [hzero, Nat.cast_zero]
    linarith
  · have hone : (1 : ℚ) ≤ (s.encode unit).toNat := Nat.one_le_cast.2 hpos
    have hround := (abs_le.1 (s.abs_encode_sub_le unit)).2
    linarith

end Scale

/-! ## All units -/

namespace Policy

variable {ι : Type} {p : Policy} {ids : List ι} {fixed : List (FixedEntry ι)}

/-- What the units of a budget are at another scale adds up to about its size. -/
theorem IsBudget.abs_sum_scaledValue_sub_le (h : p.IsBudget ids fixed) (s : Scale) :
    |(fixed.map fun e => scaledValue s (p.scale.decode e.count)).sum - s.size.toNat| ≤
      1 / 2 ^ 19 := by
  have hS₀ : (0 : ℚ) ≤ s.size.toNat := Nat.cast_nonneg _
  have hsum : (fixed.map fun e =>
      (e.count.toNat : ℚ) / p.scale.size.toNat * s.size.toNat).sum = s.size.toNat := by
    rw [List.sum_map_mul_right, sum_count_div h.sum_eq p.scale.size_toNat_pos, one_mul]
  have hnear := Near.sum fun e (he : e ∈ fixed) =>
    Scale.near_scaledValue_decode s (h.count_le_size he)
  rw [hsum] at hnear
  refine (hnear.abs_sub_le hS₀ (by norm_num)).trans ?_
  have hS := size_le s
  rw [Nat.cast_ofNat]
  linarith

/-- **The counts that the units of a budget are rounded to at another scale** add up to its size,
give or take half a unit for each of them, and to no more than twice its size. -/
theorem IsBudget.sum_encode_le (h : p.IsBudget ids fixed) (s : Scale) :
    let total := (fixed.map fun e => (s.encode (p.scale.decode e.count)).toNat).sum
    2 * total ≤ 2 * s.size.toNat + fixed.length ∧ 2 * s.size.toNat ≤ 2 * total + fixed.length ∧
      total ≤ 2 * s.size.toNat := by
  intro total
  have hscaled := abs_le.1 (h.abs_sum_scaledValue_sub_le s)
  set units := (fixed.map fun e => scaledValue s (p.scale.decode e.count)).sum with hunits
  have htotal : (total : ℚ) =
      (fixed.map fun e => ((s.encode (p.scale.decode e.count)).toNat : ℚ)).sum := by
    rw [Nat.cast_list_sum, List.map_map]
    rfl
  have hhalves (c : ℚ) : (fixed.map fun e => scaledValue s (p.scale.decode e.count) + c).sum =
      units + fixed.length * c := by
    rw [List.sum_map_add]
    simp [hunits]
  have hround (e : FixedEntry ι) := abs_le.1 (s.abs_encode_sub_le (p.scale.decode e.count))
  have hhigh : (total : ℚ) ≤ units + fixed.length * (1 / 2) := by
    rw [htotal, ← hhalves]
    exact List.sum_le_sum fun e _ => by linarith [(hround e).2]
  have hlow : units + fixed.length * (-1 / 2) ≤ total := by
    rw [htotal, ← hhalves]
    exact List.sum_le_sum fun e _ => by linarith [(hround e).1]
  have htwice : (total : ℚ) ≤ units * 2 := by
    rw [htotal, hunits, ← List.sum_map_mul_right]
    exact List.sum_le_sum fun e _ => by linarith [s.encode_le_two_mul (p.scale.decode e.count)]
  -- the sums are whole numbers, so what is left of the noise does not matter
  have hwhole {a b : ℕ} (hlt : (a : ℚ) < b + 1) : a ≤ b :=
    Nat.lt_add_one_iff.1 (by exact_mod_cast hlt)
  have hsmall : (1 : ℚ) / 2 ^ 19 ≤ 1 / 4 := by norm_num
  refine ⟨hwhole ?_, hwhole ?_, hwhole ?_⟩
  all_goals
    push_cast
    linarith

end Policy

/-! ## The check -/

namespace Tier

variable {p : Policy} {t : Tier}

/-- The sum of the counts that the units encode to one by one. -/
def encodedSum (t : Tier) (s : Scale) : ℕ := (t.entries.map fun e => (s.encode e.unit).toNat).sum

/-- **The check has no answer exactly if the sum of several counts leaves the 32-bit range.** -/
theorem isSettled?_eq_none_iff (t : Tier) (s : Scale) :
    t.isSettled? s = none ↔ 2 ≤ t.entries.length ∧ UInt32.size ≤ t.encodedSum s := by
  have hcounts : ((t.entries.map fun e => s.encode e.unit).map UInt32.toNat).sum =
      t.encodedSum s := by
    rw [List.map_map]
    rfl
  unfold isSettled?
  split
  · next hnil => simp [hnil]
  · next e hlone => simp [hlone]
  · next hne hmore =>
    have hlen : 2 ≤ t.entries.length := by
      have hpos := List.length_pos_iff.2 hne
      have hlone : t.entries.length ≠ 1 := fun h =>
        let ⟨e, he⟩ := List.length_eq_one_iff.1 h
        hmore e he
      omega
    dsimp only
    rw [Option.map_eq_none_iff, Count.sum?_eq_none_iff, hcounts, and_iff_right hlen]

/-- The sum at another scale is that scale's size, give or take half a unit for each endpoint. -/
theorem OnGrid.encodedSum_near (h : t.OnGrid p) (hne : t.entries ≠ []) (s : Scale) :
    2 * t.encodedSum s ≤ 2 * s.size.toNat + t.entries.length ∧
      2 * s.size.toNat ≤ 2 * t.encodedSum s + t.entries.length ∧
      t.encodedSum s ≤ 2 * s.size.toNat := by
  obtain ⟨fixed, hb, hunits⟩ := h hne
  have hsum : t.encodedSum s =
      (fixed.map fun e => (s.encode (p.scale.decode e.count)).toNat).sum := by
    rw [encodedSum, hunits, Policy.ofFixed, List.map_map]
    rfl
  have hlen : t.entries.length = fixed.length := by rw [hunits, Policy.ofFixed, List.length_map]
  rw [hsum, hlen]
  exact hb.sum_encode_le s

/-- **Asked at any scale, the check answers unless a sum of counts leaves the 32-bit range.** The
tier is made from anything and edited in any way, under policies of any scales. The sum is that of
the units rounded one by one, so it is about the scale asked for: it stays in the range if that scale
is below `2 ^ 31` or leaves room above it for half of the endpoints. At one scale at least, that of
the last edit, the check answers whatever the tier. -/
theorem settled_check_answers (id : String) (o : Origin) (edits : List (Policy × Session.Edit)) :
    let t := ((o.tier id).attempt edits).2
    let n := t.entries.length
    (∀ s : Scale, (t.isSettled? s = none ↔ 2 ≤ n ∧ UInt32.size ≤ t.encodedSum s) ∧
      (t.entries ≠ [] → 2 * t.encodedSum s ≤ 2 * s.size.toNat + n ∧
        2 * s.size.toNat ≤ 2 * t.encodedSum s + n ∧ t.encodedSum s ≤ 2 * s.size.toNat) ∧
      (s.size.toNat < 2 ^ 31 ∨ 2 * s.size.toNat + n < 2 ^ 33 →
        ∃ settled, t.isSettled? s = some settled)) ∧
    ∃ p, t.OnGrid p ∧ ∃ settled, t.isSettled? p.scale = some settled := by
  intro t n
  obtain ⟨q, hgrid⟩ : ∃ q, t.OnGrid q :=
    attempts_induction (P := fun t : Tier => ∃ q, t.OnGrid q)
      (fun _ x _ _ he => ⟨x.1, Session.Edit.onGrid_apply he⟩) (o.exists_onGrid id) edits
  refine ⟨fun s => ⟨t.isSettled?_eq_none_iff s, fun hne => hgrid.encodedSum_near hne s,
    fun hroom => ?_⟩, q, hgrid, hgrid.exists_isSettled?⟩
  refine Option.ne_none_iff_exists'.1 fun hnone => ?_
  obtain ⟨hlen, hsum⟩ := (t.isSettled?_eq_none_iff s).1 hnone
  have hne : t.entries ≠ [] := List.ne_nil_of_length_pos (by omega)
  obtain ⟨hhalf, -, htwice⟩ := hgrid.encodedSum_near hne s
  have hrange : UInt32.size = 2 ^ 32 := rfl
  omega

/-- Two even shares are checked at a scale other than the one they were split at. -/
theorem settled_check_answers_pair :
    let o : Origin := .nothing
    let edits : List (Policy × Session.Edit) := [(default, .attach "a"), (default, .attach "b")]
    let t := ((o.tier "t").attempt edits).2
    let s : Scale := ⟨2147483647, by decide⟩
    s.size.toNat < 2 ^ 31 ∧ ∃ settled, t.isSettled? s = some settled := by
  intro o edits t s
  have hsmall : s.size.toNat < 2 ^ 31 := by decide
  exact ⟨hsmall, ((settled_check_answers "t" o edits).1 s).2.2 (.inl hsmall)⟩

/-- At the largest scale each of two even shares is half a unit short of a whole number, and the
range has no room for both to be rounded up. -/
theorem settled_check_overflows :
    (((Origin.nothing.tier "t").attempt
      [(default, .attach "a"), (default, .attach "b")]).2).isSettled? ⟨4294967295, by decide⟩ =
        none := by
  decide +kernel

end Tier

end TierBudget
