import TierBudget.Proofs.Apportionment.Ranks
import TierBudget.Proofs.Budget
/-!
# Apportionment is the largest-remainder method

What the loops of apportionment end in, whatever the shares are (`apportion_by_largest_remainder`).
If units are missing, every part gets the whole rounds, and those that come first by larger remainder
and earlier place one more. If there are too many, every part loses the whole rounds as far as it has
units, and those that come first by smaller remainder and earlier place one more.

Handing out takes as many turns as units are missing. Taking back is counted in rounds: after `l`
rounds the floors are cut off at `l` (`takeRounds?_cutOff`), and the round after the last whole one
takes what is left of the surplus (`takeRounds?_level`).
-/

namespace TierBudget.Apportionment

variable {parts : List Part} {s l : ℕ}

/-! ## Rounds of taking back -/

/-- The counts and what is left of the surplus after a number of rounds. -/
def takeRounds? (order : List ℕ) (counts : List Count) (surplus : ℕ) :
    ℕ → Option (List Count × ℕ)
  | 0 => some (counts, surplus)
  | l + 1 => (takeRounds? order counts surplus l).bind fun (cs, rest) => takeRound? order cs rest

/-- One round from a level on takes a unit from the first of those who have any. -/
theorem takeRound?_cutOff (hfloor : ∀ p ∈ parts, p.floor < 2 ^ 32) (l rest : ℕ) :
    takeRound? (takingOrder parts) ((cutOff parts l).map UInt32.ofNat) rest =
      some ((lower ((payers (takingOrder parts) (cutOff parts l)).take rest)
        (cutOff parts l)).map UInt32.ofNat, rest - parts.countP (l < ·.floor)) := by
  have hword : ∀ n ∈ cutOff parts l, n < 2 ^ 32 := fun n hn => by
    obtain ⟨p, hp, rfl⟩ := List.mem_map.1 hn
    exact (Nat.sub_le _ _).trans_lt (hfloor p hp)
  rw [takeRound?_ofNat (nodup_takingOrder parts) (fun i hi => by simpa using mem_takingOrder.1 hi)
    hword, length_payers_cutOff]

/-- **Whole rounds cut the floors off**, each one level lower. -/
theorem takeRounds?_cutOff (hfloor : ∀ p ∈ parts, p.floor < 2 ^ 32) :
    ∀ {l : ℕ}, drained parts l ≤ s →
      takeRounds? (takingOrder parts) (parts.map fun p => UInt32.ofNat p.floor) s l =
        some ((cutOff parts l).map UInt32.ofNat, s - drained parts l)
  | 0, _ => by
    rw [takeRounds?, drained_zero, cutOff, List.map_map]
    rfl
  | l + 1, hl => by
    have hsucc := drained_succ parts l
    rw [takeRounds?, takeRounds?_cutOff hfloor (by omega), Option.bind_some]
    simp only [takeRound?_cutOff hfloor]
    rw [List.take_of_length_le (by rw [length_payers_cutOff]; omega), lower_payers_cutOff]
    congr 2
    omega

/-- **Taking back ends**: the round after the last whole one leaves no surplus. -/
theorem takeRounds?_level (hfloor : ∀ p ∈ parts, p.floor < 2 ^ 32) (h : s < assigned parts) :
    takeRounds? (takingOrder parts) (parts.map fun p => UInt32.ofNat p.floor) s
      (level parts s + 1) = some ((takeBack parts s).map UInt32.ofNat, 0) := by
  obtain ⟨hle, hlt⟩ := drained_level h fun p hp => (hfloor p hp).le
  have hsucc := drained_succ parts (level parts s)
  rw [takeRounds?, takeRounds?_cutOff hfloor hle, Option.bind_some]
  simp only [takeRound?_cutOff hfloor]
  rw [← takeBack_eq_lower, Nat.sub_eq_zero_of_le (by omega)]

/-! ## Parts as words -/

/-- What is left of a share is less than a unit, so it has at most a billion billionths. -/
theorem part_remainder_le (scale : Scale) (share : Float) :
    (part scale share).remainder ≤ 1000000000 := by
  have hleft := leftValue_lt_one scale share
  have hrem := (abs_le.1 (abs_remainder_sub_le scale share)).2
  have hlt : ((part scale share).remainder : ℚ) < 1000000000 + 1 := by linarith
  exact Nat.lt_add_one_iff.1 (by exact_mod_cast hlt)

/-! ## The method -/

/-- **Apportionment is the largest-remainder method for any shares**, and its loops end. The floors
and remainders of the parts are words. If `q * n + m` units are missing, with `m` below the number
`n` of parts, that many turns give each part `q`, and one more to those before which fewer than `m`
parts are given to. If the floors exceed the scale, there are a level and a number of parts that have
more than that: one round after the level no surplus is left, each part has lost as much as it has
up to the level, and one more if it has more and fewer than that number of such parts are taken from
before. -/
theorem apportion_by_largest_remainder (scale : Scale) (shares : List Float) (h : shares ≠ []) :
    let parts := shares.map (part scale)
    let floors := parts.map fun p => UInt32.ofNat p.floor
    let size := scale.size.toNat
    let counts := (apportion scale shares).map UInt32.toNat
    apportionStepwise? scale shares = some (apportion scale shares) ∧
    (∀ p ∈ parts, p.floor ≤ size ∧ p.remainder ≤ 1000000000) ∧
    (∀ q m, assigned parts + (q * parts.length + m) = size → m < parts.length →
      handOutStepwise? (givingOrder parts) (q * parts.length + m) floors =
        some (apportion scale shares) ∧
      counts = parts.zipIdx.map fun x => x.1.floor + q +
        if parts.zipIdx.countP (GivenBefore · x) < m then 1 else 0) ∧
    (size < assigned parts → ∃ level k, k < parts.countP (level < ·.floor) ∧
      takeRounds? (takingOrder parts) floors (assigned parts - size) (level + 1) =
        some (apportion scale shares, 0) ∧
      (counts = parts.zipIdx.map fun x => x.1.floor - level -
        if level < x.1.floor ∧ (parts.zipIdx.countP fun y =>
          level < y.1.floor ∧ TakenBefore y x) < k then 1 else 0) ∧
      counts.sum = size) := by
  intro parts floors size counts
  have hne : parts ≠ [] := by simpa [parts] using h
  have hfloor : ∀ p ∈ parts, p.floor < 2 ^ 32 := fun p hp => floor_lt_of_mem_map_part hp
  have hcounts : counts = settle size parts := map_toNat_apportion h
  have hsize : 0 < size := scale.size_toNat_pos
  have hsize' : size < 2 ^ 32 := scale.size.toNat_lt
  refine ⟨apportionStepwise?_eq scale shares, fun p hp => ?_, fun q m hsum hm => ?_,
    fun hgt => ?_⟩
  · obtain ⟨share, -, rfl⟩ := List.mem_map.1 hp
    exact ⟨part_floor_le scale share, part_remainder_le scale share⟩
  · have hdiv : (q * parts.length + m) / parts.length = q ∧
        (q * parts.length + m) % parts.length = m := by
      rw [Nat.mul_comm]
      exact (Nat.div_mod_unique (m.zero_le.trans_lt hm)).2 ⟨Nat.add_comm _ _, hm⟩
    have hsettle : settle size parts = handOut parts (q * parts.length + m) := by
      rw [settle, if_pos (by omega), show size - assigned parts = q * parts.length + m by omega]
    refine ⟨?_, ?_⟩
    · rw [handOutStepwise?_eq hne (by omega), ← hsettle]
      rfl
    · rw [hcounts, hsettle, handOut_eq, hdiv.1, hdiv.2]
  · have hsettle : settle size parts = takeBack parts (assigned parts - size) :=
      if_neg (not_le.2 hgt)
    have hsurplus : assigned parts - size < assigned parts := by omega
    obtain ⟨hle, hlt⟩ := drained_level hsurplus fun p hp => (hfloor p hp).le
    have hsucc := drained_succ parts (level parts (assigned parts - size))
    refine ⟨level parts (assigned parts - size), assigned parts - size -
      drained parts (level parts (assigned parts - size)), by omega, ?_, ?_, sum_apportion h⟩
    · rw [takeRounds?_level hfloor hsurplus, ← hsettle]
      rfl
    · rw [hcounts, hsettle, takeBack_eq]

/-- At a scale of eleven, three shares of nothing are given three units each and two more, and of two
whole shares all but eleven units are taken back. -/
theorem apportion_by_largest_remainder_eleven :
    let scale : Scale := ⟨11, by decide⟩
    let few : List Float := [0, 0, 0]
    let many : List Float := [1, 1, 0]
    few ≠ [] ∧ assigned (few.map (part scale)) + (3 * 3 + 2) = 11 ∧
      (apportion scale few).map UInt32.toNat = [4, 4, 3] ∧
      many ≠ [] ∧ 11 < assigned (many.map (part scale)) ∧
      ((apportion scale many).map UInt32.toNat).sum = 11 := by
  intro scale few many
  have hfew : few ≠ [] := List.cons_ne_nil _ _
  have hmany : many ≠ [] := List.cons_ne_nil _ _
  have hmissing : assigned (few.map (part scale)) + (3 * 3 + 2) = 11 := by decide +kernel
  have hexcess : 11 < assigned (many.map (part scale)) := by decide +kernel
  obtain ⟨-, -, hgive, -⟩ := apportion_by_largest_remainder scale few hfew
  obtain ⟨-, -, -, htake⟩ := apportion_by_largest_remainder scale many hmany
  obtain ⟨level, k, -, -, -, hsum⟩ := htake hexcess
  have hcounts := (hgive 3 2 hmissing (by decide)).2
  exact ⟨hfew, hmissing, hcounts.trans (by decide +kernel), hmany, hexcess, hsum⟩

end TierBudget.Apportionment
