import Mathlib.Algebra.Order.BigOperators.Group.List
import TierBudget.Proofs.Apportionment.Cut
import TierBudget.Proofs.Apportionment.Turns
/-!
# Apportionment one unit at a time

The definition of apportionment is in closed form. Here it is once more as the loops that it stands
for, on 32-bit words with every addition and subtraction checked: `handOutStepwise?` walks the
order of the parts round and round and gives each a unit, `takeBackStepwise?` takes one from each
that has one. `apportionStepwise?_eq` says that the loops end, that no check fails on the way, and
that they give the counts of the closed form.

The invariants are the closed forms themselves: after `d` units the words are `handOut parts d`, and
after `L` rounds of taking back they are `cutOff parts L`, the units taken being `drained parts L`.
-/

namespace TierBudget

/-- The difference of two counts, unless it falls below zero. -/
def Count.sub? (a b : Count) : Option Count := if b.toNat ≤ a.toNat then some (a - b) else none

namespace Apportionment

/-! ## The loops -/

/-- One unit more at a position. -/
def giveOne? (counts : List Count) (i : ℕ) : Option (List Count) :=
  (Count.add? (counts.getD i 0) 1).map (counts.set i)

/-- One unit less at a position. -/
def takeOne? (counts : List Count) (i : ℕ) : Option (List Count) :=
  (Count.sub? (counts.getD i 0) 1).map (counts.set i)

/-- Gives one unit after the other along the order, which starts over at its end. -/
def handOutStepwise? (order : List ℕ) (deficit : ℕ) (counts : List Count) : Option (List Count) :=
  (List.range deficit).foldlM (fun cs k => giveOne? cs (order.getD (k % order.length) 0)) counts

/-- One round along the order that takes a unit from every count that has one, as long as there is
a surplus. -/
def takeRound? : List ℕ → List Count → ℕ → Option (List Count × ℕ)
  | [], counts, surplus => some (counts, surplus)
  | _ :: _, counts, 0 => some (counts, 0)
  | i :: order, counts, surplus + 1 =>
    if 0 < counts.getD i 0 then (takeOne? counts i).bind fun cs => takeRound? order cs surplus
    else takeRound? order counts (surplus + 1)

/-- Rounds of taking back, until there is no surplus or a round takes nothing. -/
def takeBackStepwise? (order : List ℕ) (counts : List Count) (surplus : ℕ) : Option (List Count) :=
  if surplus = 0 then some counts
  else (takeRound? order counts surplus).bind fun (cs, rest) =>
    if rest < surplus then takeBackStepwise? order cs rest else some cs
termination_by surplus

/-- Apportionment by the loops. -/
def apportionStepwise? (scale : Scale) (shares : List Float) : Option (List Count) :=
  let parts := shares.map (part scale)
  let counts := parts.map fun p => UInt32.ofNat p.floor
  let size := scale.size.toNat
  if shares.isEmpty then some []
  else if assigned parts < size then
    handOutStepwise? (givingOrder parts) (size - assigned parts) counts
  else if size < assigned parts then
    takeBackStepwise? (takingOrder parts) counts (assigned parts - size)
  else some counts

/-! ## Words -/

theorem toNat_ofNat_of_lt {n : ℕ} (h : n < 2 ^ 32) : (UInt32.ofNat n).toNat = n :=
  UInt32.toNat_ofNat_of_lt' h

theorem giveOne?_ofNat {ns : List ℕ} {i : ℕ} (hi : i < ns.length) (h : ns[i] + 1 < 2 ^ 32) :
    giveOne? (ns.map UInt32.ofNat) i = some ((ns.set i (ns[i] + 1)).map UInt32.ofNat) := by
  have hadd : Count.add? (UInt32.ofNat ns[i]) 1 = some (.ofNat (ns[i] + 1)) := by
    rw [Count.add?, toNat_ofNat_of_lt (by omega), UInt32.toNat_one,
      if_pos (show ns[i] + 1 < UInt32.size from h), UInt32.ofNat_add]
    rfl
  rw [giveOne?, List.getD_eq_getElem _ _ (by simpa using hi), List.getElem_map, hadd,
    Option.map_some, List.map_set]

theorem takeOne?_ofNat {ns : List ℕ} {i : ℕ} (hi : i < ns.length) (h : 0 < ns[i])
    (hlt : ns[i] < 2 ^ 32) :
    takeOne? (ns.map UInt32.ofNat) i = some ((ns.set i (ns[i] - 1)).map UInt32.ofNat) := by
  have hsub : Count.sub? (UInt32.ofNat ns[i]) 1 = some (.ofNat (ns[i] - 1)) := by
    rw [Count.sub?, toNat_ofNat_of_lt hlt, UInt32.toNat_one,
      if_pos (show 1 ≤ ns[i] from h), UInt32.ofNat_sub h]
    rfl
  rw [takeOne?, List.getD_eq_getElem _ _ (by simpa using hi), List.getElem_map, hsub,
    Option.map_some, List.map_set]

variable {parts : List Part}

/-! ## Handing out -/

theorem getElem_le_sum {ns : List ℕ} {i : ℕ} (hi : i < ns.length) : ns[i] ≤ ns.sum :=
  List.single_le_sum (fun _ _ => Nat.zero_le _) _ (List.getElem_mem hi)

/-- **Handing out never overflows**: no count is larger than the sum that is aimed at. -/
theorem handOutStepwise?_eq (h : parts ≠ []) :
    ∀ {d : ℕ}, assigned parts + d < 2 ^ 32 →
      handOutStepwise? (givingOrder parts) d (parts.map fun p => UInt32.ofNat p.floor) =
        some ((handOut parts d).map UInt32.ofNat)
  | 0, _ => by
    rw [handOut_zero, List.map_map]
    rfl
  | d + 1, hd => by
    have hpos : 0 < parts.length := List.length_pos_of_ne_nil h
    have hk : d % parts.length < (givingOrder parts).length := by
      rw [length_givingOrder]
      exact Nat.mod_lt _ hpos
    have hi := mem_givingOrder.1 (List.getElem_mem hk)
    have hlen : (givingOrder parts)[d % parts.length] < (handOut parts d).length := by
      simpa using hi
    have hroom := getElem_le_sum hlen
    rw [sum_handOut h] at hroom
    have ih := handOutStepwise?_eq h (d := d) (by omega)
    rw [handOutStepwise?] at ih ⊢
    rw [List.range_succ, List.foldlM_append, ih, Option.bind_eq_bind, Option.bind_some,
      List.foldlM_cons, length_givingOrder, List.getD_eq_getElem _ _ hk,
      giveOne?_ofNat hlen (by omega),
      handOut_succ hi ((nodup_givingOrder parts).idxOf_getElem _ hk)]
    rfl

/-! ## Taking back -/

/-- **One round of taking back** lowers the first positions that have a unit left. -/
theorem takeRound?_ofNat :
    ∀ {order ns : List ℕ} {surplus : ℕ}, order.Nodup → (∀ i ∈ order, i < ns.length) →
      (∀ n ∈ ns, n < 2 ^ 32) →
      takeRound? order (ns.map UInt32.ofNat) surplus =
        some ((lower ((payers order ns).take surplus) ns).map UInt32.ofNat,
          surplus - (payers order ns).length)
  | [], ns, surplus, _, _, _ => by simp [takeRound?, payers, lower_nil]
  | i :: order, ns, 0, _, _, _ => by simp [takeRound?, lower_nil]
  | i :: order, ns, surplus + 1, hnodup, hrange, hword => by
    rw [List.nodup_cons] at hnodup
    have hi : i < ns.length := hrange i List.mem_cons_self
    have htail : ∀ j ∈ order, j < ns.length := fun j hj => hrange j (List.mem_cons_of_mem _ hj)
    have hget : (ns.map UInt32.ofNat).getD i 0 = UInt32.ofNat ns[i] := by
      rw [List.getD_eq_getElem _ _ (by simpa using hi), List.getElem_map]
    have hw := hword _ (List.getElem_mem hi)
    have hpos : 0 < (ns.map UInt32.ofNat).getD i 0 ↔ 0 < ns[i] := by
      rw [hget, UInt32.lt_iff_toNat_lt, toNat_ofNat_of_lt hw]
      rfl
    rw [takeRound?]
    by_cases h : 0 < ns[i]
    · have hnot : i ∉ (payers order ns).take surplus := fun hm =>
        hnodup.1 (List.mem_of_mem_filter (List.mem_of_mem_take hm))
      have hword' : ∀ n ∈ ns.set i (ns[i] - 1), n < 2 ^ 32 := fun n hn => by
        rcases List.mem_or_eq_of_mem_set hn with hn | rfl
        · exact hword n hn
        · omega
      rw [if_pos (hpos.2 h), takeOne?_ofNat hi h hw, Option.bind_some,
        takeRound?_ofNat hnodup.2 (by simpa using htail) hword', payers_set hnodup.1,
        payers_cons hi, if_pos h, List.take_succ_cons, lower_cons hi hnot, List.length_cons,
        Nat.add_sub_add_right]
    · rw [if_neg (mt hpos.1 h), takeRound?_ofNat hnodup.2 htail hword, payers_cons hi, if_neg h]

/-- **Taking back never falls below zero and ends**, whatever level it has reached. -/
theorem takeBackStepwise?_cutOff {s : ℕ} (h : s < assigned parts)
    (hfloor : ∀ p ∈ parts, p.floor < 2 ^ 32) {l rest : ℕ}
    (hrest : drained parts l + rest = s) :
    takeBackStepwise? (takingOrder parts) ((cutOff parts l).map UInt32.ofNat) rest =
      some ((takeBack parts s).map UInt32.ofNat) := by
  induction rest using Nat.strong_induction_on generalizing l with
  | _ rest ih =>
    have hfloor' : ∀ p ∈ parts, p.floor ≤ 2 ^ 32 := fun p hp => (hfloor p hp).le
    have hmore : 0 < parts.countP (l < ·.floor) := countP_pos_of_drained_lt (by omega)
    have hsucc := drained_succ parts l
    rw [takeBackStepwise?]
    by_cases h0 : rest = 0
    · have hlevel := level_eq h hfloor' (l := l) (by omega) (by omega)
      rw [if_pos h0, takeBack_eq_lower, hlevel, show s - drained parts l = 0 by omega,
        List.take_zero, lower_nil]
    · have hword : ∀ n ∈ cutOff parts l, n < 2 ^ 32 := fun n hn => by
        obtain ⟨p, hp, rfl⟩ := List.mem_map.1 hn
        have := hfloor p hp
        omega
      rw [if_neg h0, takeRound?_ofNat (nodup_takingOrder parts)
        (fun i hi => by simpa using mem_takingOrder.1 hi) hword, Option.bind_some]
      simp only [length_payers_cutOff]
      rw [if_pos (by omega)]
      rcases Nat.lt_or_ge s (drained parts (l + 1)) with hlt | hge
      · -- the last round
        have hlevel := level_eq h hfloor' (l := l) (by omega) hlt
        rw [show rest - parts.countP (l < ·.floor) = 0 by omega, takeBackStepwise?, if_pos rfl,
          takeBack_eq_lower, hlevel, show s - drained parts l = rest by omega]
      · rw [List.take_of_length_le (by rw [length_payers_cutOff]; omega), lower_payers_cutOff]
        exact ih _ (by omega) (by omega)

/-! ## Both -/

theorem floor_lt_of_mem_map_part {scale : Scale} {shares : List Float} {p : Part}
    (hp : p ∈ shares.map (part scale)) : p.floor < 2 ^ 32 := by
  obtain ⟨share, _, rfl⟩ := List.mem_map.1 hp
  exact (part_floor_le scale share).trans_lt scale.size.toNat_lt

/-- **The loops give the counts of the closed form**, for any shares at any scale, and no word
leaves its range on the way. -/
theorem apportionStepwise?_eq (scale : Scale) (shares : List Float) :
    apportionStepwise? scale shares = some (apportion scale shares) := by
  have hfloor : ∀ p ∈ shares.map (part scale), p.floor < 2 ^ 32 :=
    fun p hp => floor_lt_of_mem_map_part hp
  have hsize := scale.size.toNat_lt
  have hpos := scale.size_toNat_pos
  unfold apportionStepwise? apportion
  dsimp only
  cases hs : shares with
  | nil => simp [settle, handOut, takeBack]
  | cons share rest =>
    rw [← hs, if_neg (by simp [hs])]
    have hne : shares.map (part scale) ≠ [] := by simp [hs]
    generalize shares.map (part scale) = parts at hfloor hne
    unfold settle
    split
    · next hlt =>
      rw [handOutStepwise?_eq hne (d := scale.size.toNat - assigned parts) (by omega),
        if_pos hlt.le]
    · split
      · next hgt =>
        have hloop := takeBackStepwise?_cutOff (s := assigned parts - scale.size.toNat)
          (by omega) hfloor (l := 0) (by rw [drained_zero, zero_add])
        rw [if_neg (by omega), ← hloop, cutOff, List.map_map]
        rfl
      · next hge hle =>
        rw [if_pos (by omega), show scale.size.toNat - assigned parts = 0 by omega, handOut_zero,
          List.map_map]
        rfl

end Apportionment

end TierBudget
