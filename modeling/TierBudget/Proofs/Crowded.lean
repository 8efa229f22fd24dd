import TierBudget.Proofs.Clipped
import TierBudget.Proofs.InStep
/-!
# Too many endpoints

Counts come back from their units as long as doubles tell them apart, `n * S ≤ 2 ^ 50`. At a scale
that is a power of two they come back from any number of endpoints, because nothing is rounded at
all (`Policy.toFixed_ofFixed_two_pow`). At other scales the running sum can drift. Units that lie
nearly half a place below a multiple of the sum's last place gain this half with every addition
(`nearest_grid_add`), and then the shares are taken in a sum that is too large. With `2 ^ 26`
endpoints an endpoint that holds most of the scale comes back several units short
(`Policy.exists_mem_toFixed_crowd`).
-/

namespace TierBudget

open Binary64 Apportionment

/-! ## Sums that stay on a grid -/

namespace Binary64

theorem isDouble_grid {n : ℕ} (h : n ≤ 2 ^ 53) : IsDouble ((n : ℚ) / 2 ^ 53) := by
  refine ⟨n, -53, ?_, by norm_num, ?_⟩
  · rw [abs_of_nonneg (Int.natCast_nonneg n)]
    exact_mod_cast h
  · rw [Int.cast_natCast, div_eq_mul_inv, zpow_neg]
    norm_cast

/-- The doubles from a half to one are the numbers of the grid. -/
theorem exists_nearest_eq_grid {q : ℚ} (hlow : 1 / 2 ≤ q) (hhigh : q < 1) :
    ∃ n : ℕ, 2 ^ 52 ≤ n ∧ nearest q = n / 2 ^ 53 := by
  have hpos : 0 < q := by linarith
  have hplace : lastPlace q = -53 :=
    lastPlace_eq hpos.ne' (by norm_num) (by rw [abs_of_pos hpos]; norm_num; exact hhigh)
      (.inl (by rw [abs_of_pos hpos]; norm_num; linarith))
  have hle : 2 ^ 52 ≤ roundEven (q / 2 ^ lastPlace q) := le_roundEven (by
    rw [hplace]
    norm_num
    linarith)
  obtain ⟨n, hn⟩ := Int.eq_ofNat_of_zero_le ((by norm_num : (0 : ℤ) ≤ 2 ^ 52).trans hle)
  refine ⟨n, by rw [hn] at hle; exact_mod_cast hle, ?_⟩
  rw [nearest, hn, hplace, Int.cast_natCast, div_eq_mul_inv, zpow_neg]
  norm_cast

/-- **A sum between a half and one moves by whole places of the grid**: it gains what the summand is
short of the grid, if that is less than half a place. -/
theorem nearest_grid_add {a g : ℕ} {v : ℚ} (ha : 2 ^ 52 ≤ a) (hlt : a + g < 2 ^ 53) (hv₀ : 0 ≤ v)
    (hv : |v - g / 2 ^ 53| < 1 / 2 ^ 54) : nearest (a / 2 ^ 53 + v) = (a + g : ℕ) / 2 ^ 53 := by
  have haq : (2 : ℚ) ^ 52 ≤ a := by exact_mod_cast ha
  have hltq : (a : ℚ) + g + 1 ≤ 2 ^ 53 := by exact_mod_cast hlt
  have hvq := abs_lt.1 hv
  have hpos : 0 < (a : ℚ) / 2 ^ 53 + v := by positivity
  have hplace : lastPlace ((a : ℚ) / 2 ^ 53 + v) = -53 := by
    refine lastPlace_eq hpos.ne' (by norm_num) ?_ (.inl ?_) <;> rw [abs_of_pos hpos] <;>
      norm_num <;> linarith
  have hround :
      roundEven (((a : ℚ) / 2 ^ 53 + v) / 2 ^ lastPlace ((a : ℚ) / 2 ^ 53 + v)) = a + g := by
    have hoff : |((a : ℚ) / 2 ^ 53 + v) / 2 ^ (-53 : ℤ) - ((a + g : ℤ) : ℚ)| < 1 / 2 := by
      rw [abs_lt]
      norm_num
      constructor <;> linarith
    rw [hplace]
    exact IsNearestInt.roundEven_eq ⟨hoff.le, fun h => absurd h hoff.ne⟩
  rw [nearest, hround, hplace, div_eq_mul_inv, zpow_neg]
  push_cast
  norm_cast

/-- **Summands that move a sum by whole places of the grid**, as long as it stays within bounds. -/
theorem hasValue_foldl_add_grid {α : Type} {f : α → Float} {x : α → ℚ} {g : α → ℕ} (lo : ℕ)
    {hi : ℕ} (hhi : hi ≤ 2 ^ 53) :
    ∀ {l : List α} {acc : Float} {a : ℕ}, HasValue acc (a / 2 ^ 53) → lo ≤ a →
      a + (l.map g).sum ≤ hi →
      (∀ i ∈ l, HasValue (f i) (x i) ∧ |x i| ≤ 1 ∧ ∀ a : ℕ, lo ≤ a → a + g i ≤ hi →
        nearest (a / 2 ^ 53 + x i) = (a + g i : ℕ) / 2 ^ 53) →
      HasValue ((l.map f).foldl (· + ·) acc) ((a + (l.map g).sum : ℕ) / 2 ^ 53)
  | [], acc, a, hacc, _, _, _ => hacc
  | i :: l, acc, a, hacc, hlo, hsum, hl => by
    obtain ⟨hv, hv₁, hmove⟩ := hl i List.mem_cons_self
    rw [List.map_cons, List.sum_cons] at hsum
    have hone : (a : ℚ) / 2 ^ 53 ≤ 1 := by
      rw [div_le_one (by norm_num)]
      exact_mod_cast (by omega : a ≤ 2 ^ 53)
    have hle : |(a : ℚ) / 2 ^ 53 + x i| ≤ 2 ^ 64 := by
      refine (abs_add_le _ _).trans ?_
      rw [abs_of_nonneg (by positivity)]
      linarith
    have hadd : HasValue (acc + f i) ((a + g i : ℕ) / 2 ^ 53) := by
      rw [← hmove a hlo (by omega)]
      exact hacc.add hv (abs_le_of_le_two_pow hle)
    have hrest := hasValue_foldl_add_grid lo hhi (l := l) hadd (by omega) (by omega)
      fun j hj => hl j (List.mem_cons_of_mem i hj)
    rw [List.map_cons, List.map_cons, List.foldl_cons, List.sum_cons, ← Nat.add_assoc]
    exact hrest

end Binary64

namespace Policy

variable {ι : Type} {p : Policy} {s : Scale} {l : List (FixedEntry ι)}

/-! ## Powers of two -/

theorem le_of_size_two_pow {k : ℕ} (hs : s.size.toNat = 2 ^ k) : k ≤ 53 := by
  by_contra hlt
  have hsize := s.size.toNat_lt
  rw [hs] at hsize
  exact absurd (Nat.pow_lt_pow_right one_lt_two (by omega : 32 < k)) hsize.not_gt

theorem two_pow_mul_two_pow_sub {j k : ℕ} (h : j ≤ k) : 2 ^ j * 2 ^ (k - j) = 2 ^ k := by
  rw [← pow_add, Nat.add_sub_cancel' h]

theorem div_two_pow_eq_grid {k : ℕ} (hk : k ≤ 53) (n : ℕ) :
    (n : ℚ) / (2 ^ k : ℕ) = (n * 2 ^ (53 - k) : ℕ) / 2 ^ 53 := by
  have hpow := two_pow_mul_two_pow_sub hk
  rw [div_eq_div_iff (by positivity) (by positivity)]
  exact_mod_cast (by rw [← hpow]; ring : n * 2 ^ 53 = n * 2 ^ (53 - k) * 2 ^ k)

theorem mul_two_pow_sub_le {k n : ℕ} (hk : k ≤ 53) (hn : n ≤ 2 ^ k) :
    n * 2 ^ (53 - k) ≤ 2 ^ 53 := two_pow_mul_two_pow_sub hk ▸ Nat.mul_le_mul_right _ hn

theorem isDouble_div_two_pow {k n : ℕ} (hk : k ≤ 53) (hn : n ≤ 2 ^ k) :
    IsDouble ((n : ℚ) / (2 ^ k : ℕ)) := by
  rw [div_two_pow_eq_grid hk]
  exact isDouble_grid (mul_two_pow_sub_le hk hn)

/-- At a scale that is a power of two counts have exact units. -/
theorem hasValue_decode_two_pow {k : ℕ} (hs : s.size.toNat = 2 ^ k) {n : Count}
    (hn : n.toNat ≤ 2 ^ k) :
    HasValue (s.decode n) ((n.toNat * 2 ^ (53 - k) : ℕ) / 2 ^ 53) := by
  have hk := le_of_size_two_pow hs
  have hvalue := s.hasValue_decode n (UInt32.le_iff_toNat_le.2 (hs ▸ hn))
  rwa [hs, nearest_eq_self (isDouble_div_two_pow hk hn), div_two_pow_eq_grid hk] at hvalue

/-- The running sum of exact units is exact. -/
theorem hasValue_sum_two_pow {k : ℕ} (hs : s.size.toNat = 2 ^ k)
    (hsum : (l.map fun e => e.count.toNat).sum ≤ 2 ^ k) :
    HasValue (((l.map fun e => s.decode e.count).map clampUnit).foldl (· + ·) 0)
      (((l.map fun e => e.count.toNat).sum * 2 ^ (53 - k) : ℕ) / 2 ^ 53) := by
  have hk := le_of_size_two_pow hs
  have hunits : (l.map fun e => s.decode e.count).map clampUnit =
      l.map fun e => s.decode e.count := by
    rw [List.map_map]
    exact List.map_congr_left fun e _ => s.clampUnit_decode e.count
  have hgrid : (l.map fun e => e.count.toNat * 2 ^ (53 - k)).sum =
      (l.map fun e => e.count.toNat).sum * 2 ^ (53 - k) := List.sum_map_mul_right ..
  have hzero : HasValue 0 ((0 : ℕ) / 2 ^ 53) := by simpa using hasValue_zero
  rw [hunits, ← hgrid, ← Nat.zero_add (List.sum _)]
  refine hasValue_foldl_add_grid (x := fun e => (e.count.toNat * 2 ^ (53 - k) : ℕ) / 2 ^ 53)
    0 (le_refl (2 ^ 53)) hzero le_rfl ?_ fun e he => ?_
  · rw [hgrid, Nat.zero_add]
    exact mul_two_pow_sub_le hk hsum
  · have hle := count_le_of_sum_le hsum he
    refine ⟨hasValue_decode_two_pow hs hle, ?_, fun a _ ha => ?_⟩
    · rw [abs_of_nonneg (by positivity), div_le_one (by norm_num)]
      exact_mod_cast mul_two_pow_sub_le hk hle
    · rw [← add_div, ← Nat.cast_add]
      exact nearest_eq_self (isDouble_grid ha)

/-- A share that is no more than a whole number of units stays so when it is rounded. -/
theorem scaled_le_natCast {scale : Scale} {k n : ℕ} (hs : scale.size.toNat = 2 ^ k) (hn : n ≤ 2 ^ k)
    {t v : ℚ} (h : v / t * (2 ^ k : ℕ) ≤ n) : scaled scale t v ≤ n := by
  have hunit : nearest (v / t) ≤ n / (2 ^ k : ℕ) :=
    nearest_le (isDouble_div_two_pow (le_of_size_two_pow hs) hn)
      ((le_div_iff₀ (by positivity)).2 h)
  have hdouble : IsDouble n := isDouble_natCast
    (hn.trans (Nat.pow_le_pow_right two_pos (le_of_size_two_pow hs)))
  rw [scaled, hs]
  exact nearest_le hdouble ((le_div_iff₀ (by positivity)).1 hunit)

/-- And so does one that is no less. -/
theorem natCast_le_scaled {scale : Scale} {k n : ℕ} (hs : scale.size.toNat = 2 ^ k) (hn : n ≤ 2 ^ k)
    {t v : ℚ} (h : n ≤ v / t * (2 ^ k : ℕ)) : n ≤ scaled scale t v := by
  have hunit : n / (2 ^ k : ℕ) ≤ nearest (v / t) :=
    le_nearest (isDouble_div_two_pow (le_of_size_two_pow hs) hn)
      ((div_le_iff₀ (by positivity)).2 h)
  have hdouble : IsDouble n := isDouble_natCast
    (hn.trans (Nat.pow_le_pow_right two_pos (le_of_size_two_pow hs)))
  rw [scaled, hs]
  exact le_nearest hdouble ((div_le_iff₀ (by positivity)).1 hunit)

/-- Exact units have exact shares. -/
theorem scaled_two_pow {scale : Scale} {j k c : ℕ} (hs : scale.size.toNat = 2 ^ k) (hj : j ≤ k)
    (hc : c ≤ 2 ^ j) :
    scaled scale ((2 ^ j * 2 ^ (53 - k) : ℕ) / 2 ^ 53) ((c * 2 ^ (53 - k) : ℕ) / 2 ^ 53) =
      (c * 2 ^ (k - j) : ℕ) := by
  have hjk := two_pow_mul_two_pow_sub hj
  have hquot : ((c * 2 ^ (53 - k) : ℕ) / 2 ^ 53 : ℚ) / ((2 ^ j * 2 ^ (53 - k) : ℕ) / 2 ^ 53) *
      (2 ^ k : ℕ) = (c * 2 ^ (k - j) : ℕ) := by
    rw [← hjk]
    push_cast
    field_simp
  have hle : c * 2 ^ (k - j) ≤ 2 ^ k := hjk ▸ Nat.mul_le_mul_right _ hc
  exact le_antisymm (scaled_le_natCast hs hle hquot.le) (natCast_le_scaled hs hle hquot.ge)

/-- **At a scale that is a power of two nothing is lost**, however many entries there are. Counts
that add up to a smaller power of two are doubled as often as it takes. -/
theorem toFixed_ofFixed_two_pow {j k : ℕ} (hs : p.scale.size.toNat = 2 ^ k)
    (hsum : (l.map fun e => e.count.toNat).sum = 2 ^ j) (hj : j ≤ k) :
    p.toFixed (p.ofFixed l) = l.map fun e => ⟨e.id, .ofNat (e.count.toNat * 2 ^ (k - j))⟩ := by
  have hjk : 2 ^ j ≤ 2 ^ k := Nat.pow_le_pow_right two_pos hj
  have hvalue (e) (he : e ∈ l) : value (clampUnit (p.scale.decode e.count)) =
      (e.count.toNat * 2 ^ (53 - k) : ℕ) / 2 ^ 53 := by
    rw [Scale.clampUnit_decode]
    exact (hasValue_decode_two_pow hs ((count_le_of_sum_le hsum.le he).trans hjk)).value_eq
  have hsumValue := hasValue_sum_two_pow (l := l) hs (hsum.le.trans hjk)
  rw [hsum] at hsumValue
  obtain ⟨share, hshares, hscaled⟩ := exists_shares_of_sum p.scale hsumValue (by positivity)
    fun u hu => by
      obtain ⟨e, he, rfl⟩ := List.mem_map.1 hu
      have hle := count_le_of_sum_le hsum.le he
      rw [hvalue e he]
      gcongr
  have hexact (e) (he : e ∈ l) : |scaledValue p.scale (share (p.scale.decode e.count)) -
      (e.count.toNat * 2 ^ (k - j) : ℕ)| ≤ 6 / 25 := by
    rw [hscaled _ (List.mem_map_of_mem he), hvalue e he,
      scaled_two_pow hs hj (count_le_of_sum_le hsum.le he), sub_self, abs_zero]
    norm_num
  have htotal : (l.map fun e => e.count.toNat * 2 ^ (k - j)).sum = p.scale.size.toNat := by
    rw [List.sum_map_mul_right, hsum, two_pow_mul_two_pow_sub hj, hs]
  refine map_id_map_count_ext (by rw [map_id_toFixed, map_id_ofFixed, List.map_map]; rfl) ?_
  have hshares : shares ((p.ofFixed l).map Entry.unit) =
      l.map fun e => share (p.scale.decode e.count) := by
    rw [ofFixed, map_unit_decode, hshares, List.map_map]
    rfl
  rw [map_count_toFixed, hshares, apportion, settle_of_close hexact htotal, List.map_map,
    List.map_map]
  rfl

/-! ## A sum that drifts -/

/-- Most of `2 ^ 31` units for one endpoint and two units for each of the others. -/
def crowd (id : ι) (ids : List ι) : List (FixedEntry ι) :=
  ⟨id, 2013265920⟩ :: ids.map fun i => ⟨i, 2⟩

/-- At a scale a little larger than `2 ^ 31` the weight of two units lies less than half a place
below the grid. -/
theorem exists_value_two (hs : s.size.toNat = 2147483775) :
    ∃ v, HasValue (s.decode 2) v ∧ 0 ≤ v ∧ v ≤ 1 / 2 ∧
      |v - (2 ^ 23 : ℕ) / 2 ^ 53| < 1 / 2 ^ 54 := by
  have hround := abs_nearest_sub_le_of_abs_le (k := -29) (by norm_num)
    (q := (2 : ℚ) / 2147483775) (by norm_num [abs_of_pos])
  have hvalue := s.hasValue_decode 2 (UInt32.le_iff_toNat_le.2 (by rw [hs]; decide))
  rw [hs] at hvalue
  push_cast at hvalue
  rw [abs_le] at hround
  refine ⟨_, hvalue, nearest_nonneg (by positivity), ?_, ?_⟩
  · norm_num at hround ⊢
    linarith
  · rw [abs_lt]
    norm_num at hround ⊢
    constructor <;> linarith

/-- **The running sum drifts**: with each of `2 ^ 26` endpoints it moves by a whole number of
places, a little more than the endpoint's unit. -/
theorem exists_sum_crowd (hs : s.size.toNat = 2147483775) (id : ι) {ids : List ι}
    (hlen : ids.length = 2 ^ 26) :
    ∃ a : ℕ, 2 ^ 52 ≤ a ∧ HasValue (s.decode 2013265920) (a / 2 ^ 53) ∧
      |(a : ℚ) / 2 ^ 53 - 2013265920 / 2147483775| ≤ 1 / 2 ^ 54 ∧
      HasValue ((((crowd id ids).map fun e => s.decode e.count).map clampUnit).foldl (· + ·) 0)
        ((a + 2 ^ 49 : ℕ) / 2 ^ 53) := by
  obtain ⟨v, hv, hv₀, hv₁, hgrid⟩ := exists_value_two hs
  have hlarge : (2013265920 : Count) ≤ s.size := UInt32.le_iff_toNat_le.2 (by rw [hs]; decide)
  have hfirst := s.hasValue_decode _ hlarge
  have hclose := s.abs_nearest_div_size_sub_le hlarge
  rw [hs, show (2013265920 : Count).toNat = 2013265920 from rfl] at hfirst hclose
  push_cast at hfirst hclose
  obtain ⟨a, ha, hnearest⟩ := exists_nearest_eq_grid
    (q := (2013265920 : ℚ) / 2147483775) (by norm_num) (by norm_num)
  rw [hnearest] at hfirst hclose
  refine ⟨a, ha, hfirst, hclose, ?_⟩
  have hstart : HasValue (0 + s.decode 2013265920) (a / 2 ^ 53) := by
    have hadd := hasValue_zero.add hfirst (abs_le_of_le_two_pow (by
      rw [abs_le] at hclose ⊢
      norm_num at hclose ⊢
      constructor <;> linarith))
    rwa [zero_add, nearest_eq_self hfirst.isDouble] at hadd
  have hsteps : (ids.map fun _ => 2 ^ 23).sum = 2 ^ 49 := by
    rw [List.map_const', List.sum_replicate, hlen]
    norm_num
  have hunits : ((crowd id ids).map fun e => s.decode e.count).map clampUnit =
      s.decode 2013265920 :: ids.map fun _ => s.decode 2 := by
    simp only [crowd, List.map_cons, List.map_map, Function.comp_def, Scale.clampUnit_decode]
  rw [hunits, List.foldl_cons, ← hsteps]
  have hbelow : 2 ^ 53 - 1 ≤ 2 ^ 53 := by norm_num
  refine hasValue_foldl_add_grid (x := fun _ => v) (2 ^ 52) hbelow hstart ha ?_ fun _ _ =>
    ⟨hv, by rw [abs_of_nonneg hv₀]; linarith, fun b hb hle => ?_⟩
  · rw [hsteps]
    have hle : (a : ℚ) + 2 ^ 49 + 1 ≤ 2 ^ 53 := by
      rw [abs_le] at hclose
      norm_num at hclose ⊢
      linarith
    have hle : a + 2 ^ 49 + 1 ≤ 2 ^ 53 := by exact_mod_cast hle
    omega
  · exact nearest_grid_add hb (by omega) hv₀ hgrid

/-- The share of the first endpoint, taken in the sum that has drifted, is seven units short. -/
theorem scaled_crowd {scale : Scale} (hS : scale.size.toNat = 2 ^ 31) {a : ℕ}
    (ha : |(a : ℚ) / 2 ^ 53 - 2013265920 / 2147483775| ≤ 1 / 2 ^ 54) :
    (1879048192 : ℕ) ≤ scaled scale ((a + 2 ^ 49 : ℕ) / 2 ^ 53) (a / 2 ^ 53) ∧
      scaled scale ((a + 2 ^ 49 : ℕ) / 2 ^ 53) (a / 2 ^ 53) ≤ (2013265913 : ℕ) := by
  have ha := abs_le.1 ha
  have hquot : (a : ℚ) / 2 ^ 53 / ((a + 2 ^ 49 : ℕ) / 2 ^ 53) = a / (a + 2 ^ 49) := by
    rw [div_div_div_cancel_right₀ (by norm_num)]
    push_cast
    rfl
  have hpos : (0 : ℚ) < a + 2 ^ 49 := by positivity
  constructor
  · refine natCast_le_scaled hS (by norm_num) ?_
    rw [hquot, div_mul_eq_mul_div, le_div_iff₀ hpos]
    norm_num at ha ⊢
    linarith
  · refine scaled_le_natCast hS (by norm_num) ?_
    rw [hquot, div_mul_eq_mul_div, div_le_iff₀ hpos]
    norm_num at ha ⊢
    linarith

/-- **With `2 ^ 26` endpoints an endpoint comes back short**, though its scale is a power of two and
the store's scale holds every count. -/
theorem exists_mem_toFixed_crowd (hS : p.scale.size.toNat = 2 ^ 31) (hs : s.size.toNat = 2147483775)
    (id : ι) {ids : List ι} (hlen : ids.length = 2 ^ 26) :
    ∃ n : Count, ⟨id, n⟩ ∈ p.toFixed ((crowd id ids).map fun e => ⟨e.id, s.decode e.count⟩) ∧
      n.toNat < 2013265920 := by
  obtain ⟨a, hhalf, ha, hclose, hsum⟩ := exists_sum_crowd hs id hlen
  obtain ⟨v, hv, -, hv₁, -⟩ := exists_value_two hs
  have hhalf : (2 : ℚ) ^ 52 ≤ a := by exact_mod_cast hhalf
  obtain ⟨share, hshares, hscaled⟩ := exists_shares_of_sum p.scale hsum (by positivity)
    fun u hu => by
      obtain ⟨e, he, rfl⟩ := List.mem_map.1 hu
      rw [Scale.clampUnit_decode]
      push_cast
      rcases List.mem_cons.1 he with rfl | he
      · rw [ha.value_eq]
        linarith
      · obtain ⟨i, -, rfl⟩ := List.mem_map.1 he
        rw [hv.value_eq]
        linarith
  have hfirst : scaledValue p.scale (share (s.decode 2013265920)) =
      scaled p.scale ((a + 2 ^ 49 : ℕ) / 2 ^ 53) (a / 2 ^ 53) := by
    rw [hscaled _ List.mem_cons_self, Scale.clampUnit_decode, ha.value_eq]
  obtain ⟨hlow, hhigh⟩ := scaled_crowd hS hclose
  rw [← hfirst] at hlow hhigh
  obtain ⟨n, hmem, hcount⟩ := exists_mem_toFixed p
    ((congrArg shares (map_unit_decode s (crowd id ids))).trans hshares) (i := 0)
    (by simp [crowd])
  refine ⟨n, hmem, ?_⟩
  obtain ⟨hsettled, hcount⟩ := List.getElem?_eq_some_iff.1 hcount
  have hle := getElem_settle_le (by simp [crowd]) hsettled
  rw [hcount] at hle
  simp only [crowd, List.map_cons, List.getElem_cons_zero, List.length_cons, List.length_map, hlen,
    hS] at hle
  -- the floor is seven units short, and the other endpoints take nearly all that is left
  have hover := overshoot_scaledValue_le p.scale (share (s.decode 2013265920))
  have hfloor := floor_le p.scale (share (s.decode 2013265920))
  have hlt := lt_floor_add_one p.scale (share (s.decode 2013265920))
  set floor := (part p.scale (share (s.decode 2013265920))).floor
  have hfloor : (floor : ℚ) < (2013265914 : ℕ) := by
    push_cast at hhigh ⊢
    linarith
  have hfloor : floor < 2013265914 := by exact_mod_cast hfloor
  have hlt : 1879048192 < floor + 1 := by exact_mod_cast hlow.trans_lt hlt
  omega

end Policy

end TierBudget
