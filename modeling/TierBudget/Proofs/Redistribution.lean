import TierBudget.Proofs.RoundTrip
/-!
# The weights that rebalancing redistributes

`Policy.redistribute` gives the target of rebalancing the weight `d` that is asked for, and shares
`1 - d` among the others in proportion to their weights, or evenly if they weigh nothing. On the units
of a budget of `n` counts, the new weights are `n + 4` roundings away from the exact parts
(`Policy.near_redistributed`), which add up to one (`Policy.sum_fairPart`). What is left of the target
is zero or at least `2 ^ -53`, so nothing comes near the smallest normal number. Among the others, a
larger count keeps the larger weight (`Policy.otherUnit_mono`).
-/

namespace TierBudget

open Binary64

/-! ## Sums with one term replaced -/

/-- The terms of a list, one of them replaced by `d`. -/
theorem sum_zipIdx_ite {α : Type} (f : α → ℚ) (d : ℚ) :
    ∀ {l : List α} {i : ℕ} (k : ℕ), i < l.length →
      ((l.zipIdx k).map fun x => if x.2 = k + i then d else f x.1).sum =
        d + ((l.eraseIdx i).map f).sum
  | a :: l, 0, k, _ => by
    have hrest : (l.zipIdx (k + 1)).map (fun x => if x.2 = k + 0 then d else f x.1) =
        l.map f := by
      conv_rhs => rw [← List.zipIdx_map_fst (k + 1) l, List.map_map]
      refine List.map_congr_left fun x hx => if_neg ?_
      have := List.le_snd_of_mem_zipIdx hx
      omega
    rw [List.zipIdx_cons, List.map_cons, List.sum_cons, hrest]
    simp
  | a :: l, i + 1, k, hi => by
    have ih := sum_zipIdx_ite f d (k + 1) (Nat.lt_of_succ_lt_succ hi)
    rw [show k + 1 + i = k + (i + 1) by omega] at ih
    rw [List.zipIdx_cons, List.map_cons, List.sum_cons, ih, if_neg (by simp),
      List.eraseIdx_cons_succ, List.map_cons, List.sum_cons]
    ring

/-! ## What the target leaves -/

/-- A double below one is at least half a last place below it. -/
theorem Binary64.IsDouble.two_zpow_le_one_sub {d : ℚ} (h : IsDouble d) (hd : d < 1) :
    2 ^ (-53 : ℤ) ≤ 1 - d := by
  obtain ⟨m, e, hm, -, rfl⟩ := h
  rcases lt_or_ge e (-53) with he | he
  · -- so small an exponent makes at most a half
    have hm : (m : ℚ) ≤ 2 ^ (53 : ℤ) := by exact_mod_cast (le_abs_self m).trans hm
    have hle : (m : ℚ) * 2 ^ e ≤ 2 ^ (53 : ℤ) * 2 ^ (-54 : ℤ) :=
      mul_le_mul hm (two_zpow_le (by omega)) (two_zpow_pos e).le (two_zpow_pos 53).le
    norm_num at hle ⊢
    linarith
  · obtain ⟨k, rfl⟩ := Int.le.dest he
    have hsplit : (m : ℚ) * 2 ^ (-53 + (k : ℤ)) = ((m * 2 ^ k : ℤ) : ℚ) * 2 ^ (-53 : ℤ) := by
      rw [zpow_add₀ (by norm_num), zpow_natCast, Int.cast_mul, Int.cast_pow, Int.cast_ofNat,
        mul_assoc, mul_comm (2 ^ k)]
    have hunit : (1 : ℚ) = ((2 ^ 53 : ℤ) : ℚ) * 2 ^ (-53 : ℤ) := by norm_num
    rw [hsplit] at hd ⊢
    rw [hunit] at hd
    have hlt : m * 2 ^ k < 2 ^ 53 := by
      exact_mod_cast lt_of_mul_lt_mul_right hd (two_zpow_pos _).le
    have hle : ((m * 2 ^ k : ℤ) : ℚ) ≤ ((2 ^ 53 - 1 : ℤ) : ℚ) := by
      exact_mod_cast (by omega : m * 2 ^ k ≤ 2 ^ 53 - 1)
    have hmul := mul_le_mul_of_nonneg_right hle (two_zpow_pos (-53)).le
    norm_num at hmul ⊢
    linarith

theorem hasValue_remaining {x : Float} {d : ℚ} (h : HasValue x d) (h₀ : 0 ≤ d) (h₁ : d ≤ 1) :
    HasValue (clampUnit (1 - x)) (nearest (1 - d)) := by
  have hone : IsDouble 1 := by simpa using isDouble_natCast (n := 1)
  have hsub : HasValue (1 - x) (nearest (1 - d)) :=
    hasValue_one.sub h (abs_le_of_le_two_pow (by rw [abs_of_nonneg (by linarith)]; linarith))
  have hclamp := hsub.clampUnit_eq_self (nearest_nonneg (by linarith))
    (nearest_le hone (by linarith))
  rwa [hclamp]

theorem near_remaining {d : ℚ} (h : IsDouble d) (h₁ : d ≤ 1) : Near 1 (nearest (1 - d)) (1 - d) := by
  have hone : IsDouble 1 := by simpa using isDouble_natCast (n := 1)
  have hnear := near_nearest_add hone h.neg (by linarith)
  rwa [← sub_eq_add_neg] at hnear

namespace Policy

variable {ι : Type} {s : Scale} {rest : List (FixedEntry ι)} {remaining total : Float} {d F : ℚ}

/-! ## What the others get -/

/-- The sum of the counts. -/
def weight (rest : List (FixedEntry ι)) : ℕ := (rest.map fun e => e.count.toNat).sum

/-- The part of the whole that an entry besides the target is to get where the target gets `d`: its
part of what is left in proportion to its count, or an even part if the others weigh nothing. -/
def otherPart (rest : List (FixedEntry ι)) (d : ℚ) (e : FixedEntry ι) : ℚ :=
  (1 - d) * if weight rest = 0 then 1 / (rest.length : ℚ) else (e.count.toNat : ℚ) / weight rest

theorem otherPart_nonneg (hd : d ≤ 1) (e : FixedEntry ι) : 0 ≤ otherPart rest d e := by
  refine mul_nonneg (by linarith) ?_
  split <;> positivity

/-- The parts of the others are what the target leaves. -/
theorem sum_otherPart (hne : rest ≠ []) (d : ℚ) : (rest.map (otherPart rest d)).sum = 1 - d := by
  unfold otherPart
  rw [List.sum_map_mul_left]
  refine (congrArg ((1 - d) * ·) ?_).trans (mul_one _)
  split
  · have hlen : (rest.length : ℚ) ≠ 0 := by
      exact_mod_cast (List.length_pos_of_ne_nil hne).ne'
    simp [hlen]
  · next hw =>
    have hw : ((weight rest : ℕ) : ℚ) ≠ 0 := by exact_mod_cast hw
    simp only [div_eq_mul_inv]
    rw [List.sum_map_mul_right]
    refine (congrArg (· * _) ?_).trans (mul_inv_cancel₀ hw)
    rw [weight, Nat.cast_list_sum, List.map_map]
    rfl

/-- The running sum of the others is positive if one of them weighs anything. -/
theorem weight_eq_zero_iff (hF : Near (rest.length + 1) F (weight rest / s.size.toNat)) :
    weight rest = 0 ↔ F ≤ 0 := by
  have hs₀ : (0 : ℚ) < s.size.toNat := Nat.cast_pos.2 s.size_toNat_pos
  constructor
  · intro hw
    rw [hw, Nat.cast_zero, zero_div] at hF
    exact nonpos_of_mul_nonpos_right hF.ge (shrink_pow_pos _)
  · intro hle
    by_contra hw
    have hpos := hF.pos (div_pos (Nat.cast_pos.2 (Nat.pos_of_ne_zero hw)) hs₀)
    exact absurd hle (not_le.2 hpos)

/-- If the others weigh nothing, each gets an even part. -/
theorem near_even_part (hr : HasValue remaining (nearest (1 - d))) (hd : IsDouble d) (hd₀ : 0 ≤ d)
    (hd₁ : d < 1) {m : ℕ} (hm : 0 < m) (hm' : m ≤ 2 ^ 50) :
    Near 2 (value (clampUnit (remaining / .ofNat m))) ((1 - d) * (1 / m)) := by
  have hone : IsDouble 1 := by simpa using isDouble_natCast (n := 1)
  have hm₀ : (0 : ℚ) < m := by exact_mod_cast hm
  have hm₁ : (1 : ℚ) ≤ m := by exact_mod_cast hm
  have hmle : (m : ℚ) ≤ 2 ^ (50 : ℤ) := by exact_mod_cast hm'
  have hrem₀ : 0 ≤ nearest (1 - d) := nearest_nonneg (by linarith)
  have hrem₁ : nearest (1 - d) ≤ 1 := nearest_le hone (by linarith)
  have hlow : 2 ^ (-53 : ℤ) ≤ nearest (1 - d) :=
    le_nearest (isDouble_two_zpow (by norm_num)) (hd.two_zpow_le_one_sub hd₁)
  have hquot₀ : 0 ≤ nearest (1 - d) / m := div_nonneg hrem₀ hm₀.le
  have hquot₁ : nearest (1 - d) / m ≤ 1 := (div_le_one hm₀).2 (hrem₁.trans hm₁)
  have hunit : HasValue (remaining / .ofNat m) (nearest (nearest (1 - d) / m)) :=
    hr.div (hasValue_ofNat (hm'.trans_lt (by norm_num))) hm₀.ne'
      (abs_le_of_le_two_pow (by rw [abs_of_nonneg hquot₀]; linarith))
  rw [hunit.clampUnit_eq_self (nearest_nonneg hquot₀) (nearest_le hone hquot₁), hunit.value_eq,
    mul_one_div]
  have hnormal : 2 ^ (-1022 : ℤ) ≤ nearest (1 - d) / m := by
    rw [le_div_iff₀ hm₀]
    calc 2 ^ (-1022 : ℤ) * (m : ℚ) ≤ 2 ^ (-1022 : ℤ) * 2 ^ (50 : ℤ) :=
          mul_le_mul_of_nonneg_left hmle (two_zpow_pos _).le
      _ = 2 ^ (-972 : ℤ) := by rw [← zpow_add₀ (by norm_num)]; norm_num
      _ ≤ nearest (1 - d) := (two_zpow_le (by norm_num)).trans hlow
  have hdiv : Near 1 (nearest (1 - d) / m) ((1 - d) / m) := by
    rw [div_eq_mul_inv, div_eq_mul_inv]
    exact (near_remaining hd hd₁.le).mul_right (inv_nonneg.2 hm₀.le)
  exact (near_nearest hnormal).trans hdiv

/-- What a weight of value `a` becomes in proportion: two roundings of what the target leaves, `r`,
times the weight, over the sum of the others. -/
def proportional (r F a : ℚ) : ℚ := nearest (nearest (r * a) / F)

theorem proportional_mono {r a b : ℚ} (hr : 0 ≤ r) (hF : 0 ≤ F) (hab : a ≤ b) :
    proportional r F a ≤ proportional r F b :=
  nearest_mono (div_le_div_of_nonneg_right (nearest_mono (mul_le_mul_of_nonneg_left hab hr)) hF)

theorem value_proportional {r : ℚ} (hr : HasValue remaining r) (hr₀ : 0 ≤ r) (hr₁ : r ≤ 1)
    (htotal : HasValue total F) (hF : 0 < F) {u : Float} (hle : value (clampUnit u) ≤ F) :
    value (clampUnit (remaining * clampUnit u / total)) = proportional r F (value (clampUnit u)) := by
  have hone : IsDouble 1 := by simpa using isDouble_natCast (n := 1)
  obtain ⟨ha, ha₀, ha₁⟩ := hasValue_clampUnit u
  set a := value (clampUnit u)
  have hproduct₀ : 0 ≤ r * a := mul_nonneg hr₀ ha₀
  have hproduct₁ : r * a ≤ a := mul_le_of_le_one_left ha₀ hr₁
  have hquot₀ : 0 ≤ nearest (r * a) / F := div_nonneg (nearest_nonneg hproduct₀) hF.le
  have hquot₁ : nearest (r * a) / F ≤ 1 :=
    (div_le_one hF).2 ((nearest_le ha.isDouble hproduct₁).trans hle)
  have hunit : HasValue (remaining * clampUnit u / total) (proportional r F a) :=
    (hr.mul ha (abs_le_of_le_two_pow (by rw [abs_of_nonneg hproduct₀]; linarith))).div htotal
      hF.ne' (abs_le_of_le_two_pow (by rw [abs_of_nonneg hquot₀]; linarith))
  rw [hunit.clampUnit_eq_self (nearest_nonneg hquot₀) (nearest_le hone hquot₁), hunit.value_eq]

/-- If the others weigh something, each gets its part in proportion. -/
theorem near_proportional (hd : IsDouble d) (hd₁ : d < 1)
    (hF : Near (rest.length + 1) F (weight rest / s.size.toNat)) (hw : weight rest ≠ 0)
    (hws : weight rest ≤ s.size.toNat) (hlen : rest.length ≤ 2 ^ 50) {n : Count}
    (hn : n ≤ s.size) :
    Near (rest.length + 5) (proportional (nearest (1 - d)) F (value (clampUnit (s.decode n))))
      ((1 - d) * (n.toNat / weight rest)) := by
  have hs₀ : (0 : ℚ) < s.size.toNat := Nat.cast_pos.2 s.size_toNat_pos
  have hw₀ : (0 : ℚ) < weight rest / s.size.toNat :=
    div_pos (Nat.cast_pos.2 (Nat.pos_of_ne_zero hw)) hs₀
  have hF₀ : 0 < F := hF.pos hw₀
  have hrem₀ : 0 ≤ nearest (1 - d) := nearest_nonneg (by linarith)
  have hnear := Scale.near_value_decode hn
  rw [Scale.value_decode hn] at hnear ⊢
  by_cases hn₀ : n.toNat = 0
  · have hzero : proportional (nearest (1 - d)) F (nearest (n.toNat / s.size.toNat)) = 0 := by
      simp [proportional, hn₀]
    rw [hzero, hn₀, Nat.cast_zero, zero_div, mul_zero]
    exact .refl le_rfl _
  set a := nearest (n.toNat / s.size.toNat)
  have ha₀ : 0 ≤ a := nearest_nonneg (by positivity)
  -- nothing here comes near the smallest normal number
  have hrem : 2 ^ (-53 : ℤ) ≤ nearest (1 - d) :=
    le_nearest (isDouble_two_zpow (by norm_num)) (hd.two_zpow_le_one_sub hd₁)
  have hunit : 2 ^ (-32 : ℤ) ≤ a :=
    le_nearest (isDouble_two_zpow (by norm_num)) (Scale.two_zpow_le_div_size hn₀)
  have hproduct : 2 ^ (-85 : ℤ) ≤ nearest (1 - d) * a := by
    rw [show (-85 : ℤ) = -53 + -32 by norm_num, zpow_add₀ (by norm_num)]
    exact mul_le_mul hrem hunit (two_zpow_pos _).le hrem₀
  have hF₂ : F ≤ 2 := by
    have hpow : 1 / 2 ≤ shrink ^ (rest.length + 1) := by
      refine le_trans ?_ (le_shrink_pow _)
      have : ((rest.length + 1 : ℕ) : ℚ) ≤ 2 ^ 51 := by
        exact_mod_cast (by omega : rest.length + 1 ≤ 2 ^ 51)
      linarith
    have hone : (weight rest : ℚ) / s.size.toNat ≤ 1 := by
      rw [div_le_one hs₀]
      exact_mod_cast hws
    have := (mul_le_mul_of_nonneg_right hpow hF₀.le).trans hF.ge
    linarith
  have hquot : 2 ^ (-1022 : ℤ) ≤ nearest (nearest (1 - d) * a) / F := by
    rw [le_div_iff₀ hF₀]
    calc 2 ^ (-1022 : ℤ) * F ≤ 2 ^ (-1022 : ℤ) * 2 ^ (1 : ℤ) :=
          mul_le_mul_of_nonneg_left (by rwa [zpow_one]) (two_zpow_pos _).le
      _ = 2 ^ (-1021 : ℤ) := by rw [← zpow_add₀ (by norm_num)]; norm_num
      _ ≤ 2 ^ (-85 : ℤ) := two_zpow_le (by norm_num)
      _ ≤ nearest (nearest (1 - d) * a) := le_nearest (isDouble_two_zpow (by norm_num)) hproduct
  have hpart : Near 3 (nearest (nearest (1 - d) * a)) ((1 - d) * (n.toNat / s.size.toNat)) :=
    (near_nearest ((two_zpow_le (by norm_num)).trans hproduct)).trans
      ((near_remaining hd hd₁.le).mul hnear hrem₀ (by linarith) ha₀ (by positivity))
  have hdiv := hpart.div hF (nearest_nonneg (mul_nonneg hrem₀ ha₀))
    (mul_nonneg (by linarith) (by positivity)) hF₀ hw₀
  rw [mul_div_assoc, div_div_div_cancel_right₀ hs₀.ne'] at hdiv
  rw [show rest.length + 5 = 1 + (3 + (rest.length + 1)) by ring]
  exact (near_nearest hquot).trans hdiv

/-- **An entry besides the target gets its part**, but for as many roundings as there are entries and
four more. -/
theorem near_otherUnit (hr : HasValue remaining (nearest (1 - d))) (hd : IsDouble d)
    (hd₀ : 0 ≤ d) (hd₁ : d ≤ 1) (htotal : HasValue total F)
    (hF : Near (rest.length + 1) F (weight rest / s.size.toNat))
    (hws : weight rest ≤ s.size.toNat) (hlen : rest.length ≤ 2 ^ 50) {e : FixedEntry ι}
    (he : e ∈ rest) (hs : e.count ≤ s.size) (hle : value (clampUnit (s.decode e.count)) ≤ F) :
    Near (rest.length + 5)
      (value (clampUnit (otherUnit remaining total rest.length (s.decode e.count))))
      (otherPart rest d e) := by
  have hrem := near_remaining hd hd₁
  rw [otherUnit, otherPart]
  rcases hd₁.lt_or_eq with hd₁ | rfl
  · have hpos : ¬ remaining ≤ 0 := fun h =>
      absurd ((hr.le_iff hasValue_zero).1 h) (not_le.2 (hrem.pos (by linarith)))
    rw [if_neg hpos]
    by_cases hw : weight rest = 0
    · have hzero : total ≤ 0 :=
        (htotal.le_iff hasValue_zero).2 ((weight_eq_zero_iff hF).1 hw)
      rw [if_pos hzero, if_pos hw]
      refine (near_even_part hr hd hd₀ hd₁ (List.length_pos_of_mem he) hlen).mono
        (hasValue_clampUnit _).2.1 (mul_nonneg (by linarith) (by positivity)) (by omega)
    · have hlarge : ¬ total ≤ 0 := fun h =>
        hw ((weight_eq_zero_iff hF).2 ((htotal.le_iff hasValue_zero).1 h))
      have hF₀ : 0 < F := not_le.1 fun h => hw ((weight_eq_zero_iff hF).2 h)
      have hone : IsDouble 1 := by simpa using isDouble_natCast (n := 1)
      rw [if_neg hlarge, if_neg hw, value_proportional hr (nearest_nonneg (by linarith))
        (nearest_le hone (by linarith)) htotal hF₀ hle]
      exact near_proportional hd hd₁ hF hw hws hlen hs
  · -- the target takes everything
    have hzero : remaining ≤ 0 := (hr.le_iff hasValue_zero).2 (by simp)
    have hclamp : clampUnit (0 : Float) = 0 :=
      hasValue_zero.clampUnit_eq_self le_rfl zero_le_one
    rw [if_pos hzero, hclamp, hasValue_zero.value_eq, sub_self, zero_mul]
    exact .refl le_rfl _

/-- **Of the others, the one with the larger count keeps the larger weight.** -/
theorem otherUnit_mono (hr : HasValue remaining (nearest (1 - d))) (hd₀ : 0 ≤ d) (hd₁ : d ≤ 1)
    (htotal : HasValue total F) {m : ℕ} {n n' : Count} (hn : n ≤ s.size) (hn' : n' ≤ s.size)
    (hle : value (clampUnit (s.decode n)) ≤ F) (hle' : value (clampUnit (s.decode n')) ≤ F)
    (h : n ≤ n') :
    value (clampUnit (otherUnit remaining total m (s.decode n))) ≤
      value (clampUnit (otherUnit remaining total m (s.decode n'))) := by
  have hone : IsDouble 1 := by simpa using isDouble_natCast (n := 1)
  have hrem₀ : 0 ≤ nearest (1 - d) := nearest_nonneg (by linarith)
  unfold otherUnit
  split
  · exact le_rfl
  split
  · exact le_rfl
  next htotal₀ =>
  have hF₀ : 0 < F := not_le.1 fun hF => htotal₀ ((htotal.le_iff hasValue_zero).2 hF)
  have hrem₁ : nearest (1 - d) ≤ 1 := nearest_le hone (by linarith)
  have hcount : (n.toNat : ℚ) ≤ n'.toNat := by exact_mod_cast UInt32.le_iff_toNat_le.1 h
  rw [value_proportional hr hrem₀ hrem₁ htotal hF₀ hle,
    value_proportional hr hrem₀ hrem₁ htotal hF₀ hle', Scale.value_decode hn,
    Scale.value_decode hn']
  exact proportional_mono hrem₀ hF₀.le
    (nearest_mono (div_le_div_of_nonneg_right hcount (Nat.cast_nonneg _)))

/-! ## The redistributed weights -/

/-- The new weight of a count at a position, of which the one at `target` is to get `desired`. -/
def redistributed (s : Scale) (fixed : List (FixedEntry ι)) (target : ℕ) (desired : Float)
    (x : FixedEntry ι × ℕ) : Float :=
  if x.2 = target then clampUnit desired
  else otherUnit (clampUnit (1 - clampUnit desired))
    ((((fixed.eraseIdx target).map fun e => s.decode e.count).map clampUnit).foldl (· + ·) 0)
    (fixed.eraseIdx target).length (s.decode x.1.count)

/-- The part of the whole that it is to get. -/
def fairPart (fixed : List (FixedEntry ι)) (target : ℕ) (d : ℚ) (x : FixedEntry ι × ℕ) : ℚ :=
  if x.2 = target then d else otherPart (fixed.eraseIdx target) d x.1

variable {fixed : List (FixedEntry ι)} {target : ℕ} {desired : Float}

theorem map_unit_redistribute (p : Policy) (desired : Float) (hi : target < fixed.length) :
    (redistribute (p.ofFixed fixed) target desired).map Entry.unit =
      fixed.zipIdx.map (redistributed p.scale fixed target desired) := by
  have htotal : ((p.ofFixed fixed).eraseIdx target).map (fun e => clampUnit e.unit) =
      ((fixed.eraseIdx target).map fun e => p.scale.decode e.count).map clampUnit := by
    rw [ofFixed, List.eraseIdx_map, List.map_map, List.map_map]
    rfl
  have hlen : (p.ofFixed fixed).length - 1 = (fixed.eraseIdx target).length := by
    rw [List.length_eraseIdx_of_lt hi, ofFixed, List.length_map]
  rw [redistribute, htotal, hlen, ofFixed, List.zipIdx_map, List.map_map, List.map_map]
  rfl

theorem fairPart_nonneg {d : ℚ} (hd₀ : 0 ≤ d) (hd₁ : d ≤ 1) (x : FixedEntry ι × ℕ) :
    0 ≤ fairPart fixed target d x := by
  unfold fairPart
  split
  · exact hd₀
  · exact otherPart_nonneg hd₁ _

/-- **The parts add up to one.** -/
theorem sum_fairPart (hi : target < fixed.length) (hlen : 2 ≤ fixed.length) (d : ℚ) :
    (fixed.zipIdx.map (fairPart fixed target d)).sum = 1 := by
  have hne : fixed.eraseIdx target ≠ [] := by
    rw [← List.length_pos_iff, List.length_eraseIdx_of_lt hi]
    omega
  have hsum := sum_zipIdx_ite (otherPart (fixed.eraseIdx target) d) d 0 hi
  rw [sum_otherPart hne, zero_add] at hsum
  exact hsum.trans (by ring)

theorem mem_eraseIdx_of_mem_zipIdx {x : FixedEntry ι × ℕ} (hx : x ∈ fixed.zipIdx)
    (hne : x.2 ≠ target) : x.1 ∈ fixed.eraseIdx target := by
  obtain ⟨hlt, heq⟩ := List.mem_zipIdx' hx
  rw [List.mem_eraseIdx_iff_getElem]
  exact ⟨x.2, hlt, hne, heq.symm⟩

/-- The running sum of the others. -/
theorem exists_total (hs : ∀ e ∈ rest, e.count ≤ s.size) (hlen : rest.length ≤ 2 ^ 51) :
    ∃ F, HasValue (((rest.map fun e => s.decode e.count).map clampUnit).foldl (· + ·) 0) F ∧
      Near (rest.length + 1) F (weight rest / s.size.toNat) ∧
      ∀ e ∈ rest, value (clampUnit (s.decode e.count)) ≤ F := by
  have hunits : (rest.map fun e => s.decode e.count).length ≤ 2 ^ 51 := by rwa [List.length_map]
  obtain ⟨F, hF, hnear, hle⟩ := exists_runningSum hunits
  rw [List.length_map] at hnear
  exact ⟨F, hF, hnear.trans (near_mass_decode hs), fun e he => hle _ (List.mem_map_of_mem he)⟩

section

variable {p : Policy} {ids : List ι} (h : p.IsBudget ids fixed) (hi : target < fixed.length)
  (hlen : fixed.length ≤ 2 ^ 50)
include h hi hlen

theorem IsBudget.exists_total_others :
    ∃ F, HasValue ((((fixed.eraseIdx target).map fun e => p.scale.decode e.count).map
        clampUnit).foldl (· + ·) 0) F ∧
      Near ((fixed.eraseIdx target).length + 1) F
        (weight (fixed.eraseIdx target) / p.scale.size.toNat) ∧
      ∀ e ∈ fixed.eraseIdx target, value (clampUnit (p.scale.decode e.count)) ≤ F := by
  refine exists_total (fun e he => h.count_le_size (List.mem_of_mem_eraseIdx he)) ?_
  rw [List.length_eraseIdx_of_lt hi]
  omega

/-- **The new weights are near the exact parts.** -/
theorem IsBudget.near_redistributed (desired : Float) {x : FixedEntry ι × ℕ}
    (hx : x ∈ fixed.zipIdx) :
    Near (fixed.length + 4) (value (clampUnit (redistributed p.scale fixed target desired x)))
      (fairPart fixed target (value (clampUnit desired)) x) := by
  obtain ⟨hd, hd₀, hd₁⟩ := hasValue_clampUnit desired
  rw [redistributed, fairPart]
  by_cases hne : x.2 = target
  · rw [if_pos hne, if_pos hne, hd.clampUnit_eq_self hd₀ hd₁]
    exact .refl hd₀ _
  · obtain ⟨F, hF, hnear, hle⟩ := h.exists_total_others hi hlen
    have hmem := mem_eraseIdx_of_mem_zipIdx hx hne
    have hsub : (fixed.eraseIdx target).Sublist fixed := List.eraseIdx_sublist _ _
    have hweight : weight (fixed.eraseIdx target) ≤ p.scale.size.toNat := by
      rw [← h.sum_eq]
      exact (hsub.map _).sum_le_sum fun _ _ => Nat.zero_le _
    have hlast := near_otherUnit (hasValue_remaining hd hd₀ hd₁) hd.isDouble hd₀ hd₁ hF hnear
      hweight (hsub.length_le.trans hlen) hmem (h.count_le_size (hsub.subset hmem)) (hle _ hmem)
    rw [if_neg hne, if_neg hne]
    rwa [show fixed.length + 4 = (fixed.eraseIdx target).length + 5 by
      rw [List.length_eraseIdx_of_lt hi]; omega]

/-- **Besides the target, the larger count keeps the larger weight.** -/
theorem IsBudget.redistributed_mono (desired : Float) {x y : FixedEntry ι × ℕ}
    (hx : x ∈ fixed.zipIdx) (hy : y ∈ fixed.zipIdx) (hxt : x.2 ≠ target) (hyt : y.2 ≠ target)
    (hxy : x.1.count ≤ y.1.count) :
    value (clampUnit (redistributed p.scale fixed target desired x)) ≤
      value (clampUnit (redistributed p.scale fixed target desired y)) := by
  obtain ⟨hd, hd₀, hd₁⟩ := hasValue_clampUnit desired
  obtain ⟨F, hF, -, hle⟩ := h.exists_total_others hi hlen
  have hx := mem_eraseIdx_of_mem_zipIdx hx hxt
  have hy := mem_eraseIdx_of_mem_zipIdx hy hyt
  rw [redistributed, redistributed, if_neg hxt, if_neg hyt]
  exact otherUnit_mono (hasValue_remaining hd hd₀ hd₁) hd₀ hd₁ hF
    (h.count_le_size (List.mem_of_mem_eraseIdx hx)) (h.count_le_size (List.mem_of_mem_eraseIdx hy))
    (hle _ hx) (hle _ hy) hxy

end

end Policy

end TierBudget
