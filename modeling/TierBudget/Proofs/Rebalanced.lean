import TierBudget.Proofs.Encoding
import TierBudget.Proofs.Normalized
import TierBudget.Proofs.Redistribution
/-!
# Rebalancing gives what is asked for

On a budget of `n` counts at a scale of size `S` with `n ^ 2 * S ≤ 2 ^ 50`, `Policy.rebalance` gives
the target the count of the unit that is asked for, give or take one, and exactly the count that the
unit was decoded from. The others get the rest in proportion to their counts
(`Policy.rebalance_honours_request`).

The new shares are off by `slack` units of the scale, a small part of a unit even for all of them
together, so that `Apportionment.Fair` applies.
-/

namespace TierBudget.Policy

open Binary64 Apportionment

variable {ι : Type} {p : Policy} {ids : List ι} {fixed : List (FixedEntry ι)} {target : ℕ}

theorem redistribute_ne_nil {unit : Float} (hi : target < fixed.length) :
    redistribute (p.ofFixed fixed) target unit ≠ [] := by
  rw [← List.length_pos_iff, redistribute, List.length_map, List.length_zipIdx, ofFixed,
    List.length_map]
  omega

/-! ## The shares -/

/-- How far the shares of `n` entries may be from the exact parts of a scale of size `S`. -/
def slack (n S : ℕ) : ℚ := 4 / 3 * (3 * n + 10) / 2 ^ 53 * S + 1 / 2 ^ 60

section

variable {n S : ℕ} (hS : S ≤ 2 ^ 32) (h : n ^ 2 * S ≤ 2 ^ 50)

include hS h

theorem slack_le : slack n S ≤ 1 / 100 := by
  have hmul := cast_mul_le h hS
  have hS : (S : ℚ) ≤ 2 ^ 32 := by exact_mod_cast hS
  unfold slack
  linarith

theorem mul_slack_le (hS₀ : 0 < S) : n * slack n S ≤ 11 / 20 := by
  have hmul := cast_mul_le h hS
  have hn := cast_le h hS₀
  have h : (n : ℚ) * (n * S) ≤ 2 ^ 50 := by
    rw [← mul_assoc, ← pow_two]
    exact_mod_cast h
  unfold slack
  linarith

end

section

variable (h : p.IsBudget ids fixed) (hi : target < fixed.length) (hlen : 2 ≤ fixed.length)
  (hn : fixed.length ^ 2 * p.scale.size.toNat ≤ 2 ^ 50) (desired : Float)
include h hi hlen hn

/-- **The shares of the redistributed weights**: close to the exact parts, nothing where the part is
nothing, in the order of the counts besides the target, and with little noise. -/
theorem IsBudget.exists_requested_shares :
    ∃ share : FixedEntry ι × ℕ → Float,
      shares ((redistribute (p.ofFixed fixed) target desired).map Entry.unit) =
        fixed.zipIdx.map share ∧
      (∀ x ∈ fixed.zipIdx, |scaledValue p.scale (share x) -
        fairPart fixed target (value (clampUnit desired)) x * p.scale.size.toNat| ≤
          slack fixed.length p.scale.size.toNat) ∧
      (∀ x ∈ fixed.zipIdx, fairPart fixed target (value (clampUnit desired)) x = 0 →
        scaledValue p.scale (share x) = 0) ∧
      (∀ x ∈ fixed.zipIdx, ∀ y ∈ fixed.zipIdx, x.2 ≠ target → y.2 ≠ target →
        x.1.count ≤ y.1.count → scaledValue p.scale (share x) ≤ scaledValue p.scale (share y)) ∧
      noise p.scale (fixed.zipIdx.map share) ≤ 1 / 10 := by
  obtain ⟨hd, hd₀, hd₁⟩ := hasValue_clampUnit desired
  have hS₀ := p.scale.size_toNat_pos
  have hS := p.scale.size.toNat_lt.le
  have hcast := cast_le hn hS₀
  have hcount : fixed.length ≤ 2 ^ 25 := by exact_mod_cast hcast
  have hlen₅₀ : fixed.length ≤ 2 ^ 50 := hcount.trans (by norm_num)
  set d := value (clampUnit desired)
  have hpart₀ : ∀ x ∈ fixed.zipIdx, 0 ≤ fairPart fixed target d x := fun x _ =>
    fairPart_nonneg hd₀ hd₁ x
  have hsum := sum_fairPart hi hlen d
  have hpart₁ : ∀ x ∈ fixed.zipIdx, fairPart fixed target d x ≤ 1 := fun x hx => by
    rw [← hsum]
    exact List.single_le_sum (fun y hy => by
      obtain ⟨x, hx, rfl⟩ := List.mem_map.1 hy
      exact hpart₀ x hx) _ (List.mem_map_of_mem hx)
  have hnear : ∀ x ∈ fixed.zipIdx, Near (fixed.length + 4)
      (value (clampUnit (redistributed p.scale fixed target desired x)))
        (fairPart fixed target d x) := fun x hx => h.near_redistributed hi hlen₅₀ desired hx
  obtain ⟨share, hshares, hclose, hzero, hmono⟩ := exists_shares_near p.scale one_pos hpart₀
    (fun x hx => by rw [mul_one]; exact hnear x hx) hsum (by rw [List.length_zipIdx]; omega)
  rw [List.length_zipIdx] at hclose
  refine ⟨share, by rw [map_unit_redistribute p desired hi, hshares], fun x hx => ?_,
    fun x hx hx₀ => hzero x hx ?_, fun x hx y hy hxt hyt hxy => hmono x hx y hy ?_, ?_⟩
  · refine (hclose x hx).trans ?_
    have hmul : fairPart fixed target d x * p.scale.size.toNat ≤ 1 * p.scale.size.toNat :=
      mul_le_mul_of_nonneg_right (hpart₁ x hx) (Nat.cast_nonneg _)
    rw [one_mul] at hmul
    rw [slack, show fixed.length + 2 + (fixed.length + 4 + (fixed.length + 4)) =
      3 * fixed.length + 10 by ring]
    push_cast
    gcongr
  · have hnear := hnear x hx
    rw [hx₀] at hnear
    exact le_antisymm (nonpos_of_mul_nonpos_right hnear.ge (shrink_pow_pos _))
      (hasValue_clampUnit _).2.1
  · exact h.redistributed_mono hi hlen₅₀ desired hx hy hxt hyt hxy
  · have hscale : (fixed.zipIdx.map fun x =>
        fairPart fixed target d x * p.scale.size.toNat).sum = p.scale.size.toNat := by
      rw [List.sum_map_mul_right, hsum, one_mul]
    refine (noise_le hclose hscale).trans ?_
    have hmul := cast_mul_le hn hS
    have hS : (p.scale.size.toNat : ℚ) ≤ 2 ^ 32 := size_le p.scale
    rw [List.length_zipIdx]
    push_cast
    linarith

/-! ## The counts -/

/-- What the counts `next` of a rebalanced budget owe to their shares, which are `s` units of the
scale: these are close to the exact parts, and the counts to them. -/
structure Requested (p : Policy) (fixed next : List (FixedEntry ι)) (target : ℕ) (d : ℚ)
    (s : ℕ → ℚ) : Prop where
  close : ∀ j (hj : j < fixed.length), |s j - fairPart fixed target d (fixed[j], j) *
    p.scale.size.toNat| ≤ slack fixed.length p.scale.size.toNat
  zero : ∀ j (hj : j < fixed.length), fairPart fixed target d (fixed[j], j) = 0 → s j = 0
  mono : ∀ j k (hj : j < fixed.length) (hk : k < fixed.length), j ≠ target → k ≠ target →
    fixed[j].count ≤ fixed[k].count → s j ≤ s k
  within : ∀ j < fixed.length, |(countAt next j : ℚ) - s j| ≤ 1 + 1 / 2 ^ 20
  whole : ∀ j < fixed.length, ∀ k : ℕ, ∀ ε : ℚ, |s j - k| ≤ ε → fixed.length * ε ≤ 4 / 5 →
    countAt next j = k
  ordered : ∀ j k, j < k → k < fixed.length → s k ≤ s j → countAt next k ≤ countAt next j

theorem IsBudget.exists_requested : ∃ s, Requested p fixed
    (p.toFixed (redistribute (p.ofFixed fixed) target desired)) target (value (clampUnit desired))
    s := by
  obtain ⟨share, hshares, hclose, hzero, hmono, hnoise⟩ :=
    h.exists_requested_shares hi hlen hn desired
  have hlength : (redistribute (p.ofFixed fixed) target desired).length = fixed.length := by
    rw [redistribute, List.length_map, List.length_zipIdx, ofFixed, List.length_map]
  have hmem (j) (hj : j < fixed.length) : (fixed[j], j) ∈ fixed.zipIdx :=
    List.mem_iff_getElem.2 ⟨j, by simpa using hj, by simp⟩
  have happortioned := apportioned_toFixed (redistribute_ne_nil hi) (by rwa [hlength])
    (by rwa [hshares])
  rw [hshares, hlength] at happortioned
  have hs (j) (hj : j < fixed.length) :
      (fixed.zipIdx.map share).getD j 0 = share (fixed[j], j) := by simp [hj]
  refine ⟨_, fun j hj => ?_, fun j hj h₀ => ?_, fun j k hj hk hjt hkt hjk => ?_,
    happortioned.within, happortioned.whole, happortioned.ordered⟩
  · rw [hs j hj]
    exact hclose _ (hmem j hj)
  · rw [hs j hj]
    exact hzero _ (hmem j hj) h₀
  · rw [hs j hj, hs k hk]
    exact hmono _ (hmem j hj) _ (hmem k hk) hjt hkt hjk

end

section

variable {next : List (FixedEntry ι)} {desired : Float} {s : ℕ → ℚ}
  (h : Requested p fixed next target (value (clampUnit desired)) s)
  (hn : fixed.length ^ 2 * p.scale.size.toNat ≤ 2 ^ 50)
include h hn

/-- **The target gets the count of the unit**, give or take one. -/
theorem Requested.abs_target_sub_le (hi : target < fixed.length) :
    |(countAt next target : ℤ) - (p.scale.encode desired).toNat| ≤ 1 := by
  have hslack := slack_le p.scale.size.toNat_lt.le hn
  have hclose := h.close target hi
  have hwithin := h.within target hi
  have hproduct := abs_scaledValue_sub_mul_le p.scale desired
  have hround := p.scale.abs_encode_sub_le desired
  rw [fairPart, if_pos rfl] at hclose
  rw [abs_le] at hclose hwithin hproduct hround ⊢
  have hupper : (countAt next target : ℚ) < (p.scale.encode desired).toNat + 2 := by linarith
  have hlower : ((p.scale.encode desired).toNat : ℚ) < countAt next target + 2 := by linarith
  have hupper : countAt next target < (p.scale.encode desired).toNat + 2 := by exact_mod_cast hupper
  have hlower : (p.scale.encode desired).toNat < countAt next target + 2 := by exact_mod_cast hlower
  constructor <;> omega

/-- **The target gets exactly the count that the unit was decoded from.** -/
theorem Requested.target_eq (hi : target < fixed.length) {k : Count} (hk : k ≤ p.scale.size)
    (hdesired : desired = p.scale.decode k) : countAt next target = k.toNat := by
  have hclose := h.close target hi
  have hmul := mul_slack_le p.scale.size.toNat_lt.le hn p.scale.size_toNat_pos
  have hcast := cast_mul_le hn p.scale.size.toNat_lt.le
  have hS : (0 : ℚ) < p.scale.size.toNat := Nat.cast_pos.2 p.scale.size_toNat_pos
  have hunit : |value (clampUnit desired) * p.scale.size.toNat - k.toNat| ≤
      4 / 3 * (1 : ℕ) / 2 ^ 53 * k.toNat := by
    have hnear := (Scale.near_value_decode hk).mul_right hS.le
    rw [← hdesired, div_mul_cancel₀ _ hS.ne'] at hnear
    exact hnear.abs_sub_le (Nat.cast_nonneg _) (by norm_num)
  rw [fairPart, if_pos rfl] at hclose
  refine h.whole target hi k.toNat _ ((abs_sub_le _ _ _).trans (add_le_add hclose hunit)) ?_
  have hkS : (fixed.length : ℚ) * k.toNat ≤ fixed.length * p.scale.size.toNat :=
    mul_le_mul_of_nonneg_left (by exact_mod_cast UInt32.le_iff_toNat_le.1 hk) (Nat.cast_nonneg _)
  push_cast
  linarith

/-- **The others get their parts of the rest**, give or take little more than a unit. -/
theorem Requested.abs_other_sub_le {j : ℕ} (hj : j < fixed.length) (hjt : j ≠ target) :
    |(countAt next j : ℚ) - otherPart (fixed.eraseIdx target) (value (clampUnit desired)) fixed[j] *
      p.scale.size.toNat| ≤ 5 / 4 := by
  have hslack := slack_le p.scale.size.toNat_lt.le hn
  have hclose := h.close j hj
  rw [fairPart, if_neg hjt] at hclose
  refine (abs_sub_le _ _ _).trans ((add_le_add (h.within j hj) hclose).trans ?_)
  linarith

omit hn in
/-- **Who had nothing gets nothing**, if another one had something. -/
theorem Requested.other_eq_zero {j : ℕ} (hj : j < fixed.length) (hjt : j ≠ target)
    (hweight : weight (fixed.eraseIdx target) ≠ 0) (hcount : fixed[j].count = 0) :
    countAt next j = 0 := by
  refine h.whole j hj 0 0 ?_ (by norm_num)
  rw [h.zero j hj]
  · simp
  · rw [fairPart, if_neg hjt, otherPart, if_neg hweight]
    simp [hcount]

omit hn in
/-- **Of two others the one that comes first and had no less gets no less.** -/
theorem Requested.other_le_other {j k : ℕ} (hjk : j < k) (hk : k < fixed.length)
    (hjt : j ≠ target) (hkt : k ≠ target) (hcount : fixed[k].count ≤ fixed[j].count) :
    countAt next k ≤ countAt next j :=
  h.ordered j k hjk hk (h.mono k j hk (hjk.trans hk) hkt hjt hcount)

end

/-! ## The request -/

variable [DecidableEq ι]

theorem findIdx?_ofFixed (p : Policy) (fixed : List (FixedEntry ι)) (target : ι) :
    (p.ofFixed fixed).findIdx? (·.id = target) = fixed.findIdx? (·.id = target) := by
  rw [ofFixed, List.findIdx?_map]
  rfl

/-- **Rebalancing honours the request.** On a budget, the target gets the count of the unit that is
asked for, give or take one, and exactly the count that the unit was decoded from. Every other entry
is within five quarters of its exact part of what is left, in proportion to its count or, if the
others have nothing, in even parts; who had nothing gets nothing if another one had something, and
the order of the others is kept. -/
theorem rebalance_honours_request (p : Policy) {ids : List ι} {fixed : List (FixedEntry ι)}
    (h : p.IsBudget ids fixed) (hlen : 2 ≤ fixed.length)
    (hn : fixed.length ^ 2 * p.scale.size.toNat ≤ 2 ^ 50) {target : ι} {i : ℕ}
    (hi : fixed.findIdx? (·.id = target) = some i) (desired : Float) :
    let d := value (clampUnit desired)
    let size : ℚ := p.scale.size.toNat
    let others := weight (fixed.eraseIdx i)
    ∃ next, p.rebalance (p.ofFixed fixed) target desired = p.ofFixed next ∧
      p.toFixed (p.rebalance (p.ofFixed fixed) target desired) = next ∧ p.IsBudget ids next ∧
      |(countAt next i : ℤ) - (p.scale.encode desired).toNat| ≤ 1 ∧
      (∀ k ≤ p.scale.size, desired = p.scale.decode k → countAt next i = k.toNat) ∧
      (∀ j < fixed.length, j ≠ i →
        (0 < others →
          |(countAt next j : ℚ) - (1 - d) * size * countAt fixed j / others| ≤ 5 / 4 ∧
            (countAt fixed j = 0 → countAt next j = 0)) ∧
        (others = 0 → |(countAt next j : ℚ) - (1 - d) * size / (fixed.length - 1)| ≤ 5 / 4)) ∧
      ∀ j k, j < k → k < fixed.length → j ≠ i → k ≠ i → countAt fixed k ≤ countAt fixed j →
        countAt next k ≤ countAt next j := by
  intro d size others
  have hlt : i < fixed.length := (List.findIdx?_eq_some_iff_getElem.1 hi).1
  have hne : (p.ofFixed fixed).length ≠ 1 := by
    rw [ofFixed, List.length_map]
    omega
  have hrebalance := p.rebalance_eq desired ((findIdx?_ofFixed p fixed target).trans hi) hne
  have hbudget : p.IsBudget ids (p.toFixed (redistribute (p.ofFixed fixed) i desired)) := by
    have hids : (redistribute (p.ofFixed fixed) i desired).map Entry.id = ids := by
      rw [map_id_redistribute, map_id_ofFixed, h.ids_eq]
    rw [← hids]
    exact p.isBudget_toFixed (redistribute_ne_nil hlt)
  have hmul : fixed.length * p.scale.size.toNat ≤ 2 ^ 50 := by
    refine le_trans (Nat.mul_le_mul_right _ ?_) hn
    exact Nat.le_self_pow two_ne_zero _
  obtain ⟨s, hs⟩ := h.exists_requested hlt hlen hn desired
  refine ⟨_, hrebalance, ?_, hbudget, hs.abs_target_sub_le hn hlt,
    fun k hk hdesired => hs.target_eq hn hlt hk hdesired, fun j hj hjt => ⟨fun hpos => ?_,
    fun hzero => ?_⟩, fun j k hjk hk hjt hkt hcount => ?_⟩
  · rw [hrebalance]
    refine toFixed_normalize (redistribute_ne_nil hlt) ?_
    rwa [redistribute, List.length_map, List.length_zipIdx, ofFixed, List.length_map]
  · rw [countAt_of_lt hj]
    refine ⟨?_, fun hcount => hs.other_eq_zero hj hjt hpos.ne' (UInt32.toNat_inj.1 hcount)⟩
    have hclose := hs.abs_other_sub_le hn hj hjt
    rwa [otherPart, if_neg hpos.ne', show (1 - d) * ((fixed[j].count.toNat : ℚ) / others) *
      size = (1 - d) * size * fixed[j].count.toNat / others by ring] at hclose
  · have hclose := hs.abs_other_sub_le hn hj hjt
    have hcast : ((fixed.eraseIdx i).length : ℚ) = fixed.length - 1 := by
      rw [List.length_eraseIdx_of_lt hlt, Nat.cast_sub (by omega), Nat.cast_one]
    rwa [otherPart, if_pos hzero, hcast, show (1 - d) * (1 / ((fixed.length : ℚ) - 1)) * size =
      (1 - d) * size / (fixed.length - 1) by ring] at hclose
  · rw [countAt_of_lt hk, countAt_of_lt (hjk.trans hk)] at hcount
    exact hs.other_le_other hjk hk hjt hkt (UInt32.le_iff_toNat_le.2 hcount)

/-- Three entries, one of them vacated, and the first is set to a tenth. -/
theorem rebalance_honours_request_vacated :
    let fixed : List (FixedEntry String) := [⟨"a", 2500⟩, ⟨"b", 7500⟩, ⟨"c", 0⟩]
    ∃ next, (default : Policy).rebalance ((default : Policy).ofFixed fixed) "a"
        ((default : Policy).scale.decode 1000) = (default : Policy).ofFixed next ∧
      countAt next 0 = 1000 ∧ countAt next 2 = 0 := by
  intro fixed
  have hbudget : (default : Policy).IsBudget ["a", "b", "c"] fixed := ⟨rfl, rfl⟩
  have hfirst : fixed.findIdx? (·.id = "a") = some 0 := rfl
  obtain ⟨next, hnext, -, -, -, hk, hothers, -⟩ := rebalance_honours_request default hbudget
    (by decide) (by decide) hfirst ((default : Policy).scale.decode 1000)
  exact ⟨next, hnext, hk 1000 (by decide) rfl,
    ((hothers 2 (by decide) (by decide)).1 (by decide)).2 rfl⟩

end TierBudget.Policy
