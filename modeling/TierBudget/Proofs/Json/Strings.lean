import TierBudget.Json.Printer
import TierBudget.Json.Reader
import Mathlib.Tactic.SplitIfs
/-!
# Strings in JSON texts

What `Json.writeString` writes is read back by `Json.scanString` (`Json.scanToken_writeString`):
every character of every text, escaped or not, and also a string that stands for no text.
-/

namespace TierBudget.Json

/-! ## Characters -/

theorem hexNumber?_hexDigits : ∀ n < 0x20,
    hexNumber? ['0', '0', hexDigit (n / 16), hexDigit (n % 16)] = some n := by
  decide

/-- Whether escaped or not, a character is scanned as its code point. -/
theorem scanUnits_writeChar (acc : List Nat) (c : Char) (r : List Char) :
    scanUnits acc (writeChar c ++ r) = scanUnits (c.toNat :: acc) r := by
  unfold writeChar
  split_ifs with h1 h2 h3 h4 h5 h6 h7 h8
  · subst h1; rfl
  · subst h2; rfl
  · subst h3; rfl
  · subst h4; rfl
  · subst h5; rfl
  · subst h6; rfl
  · subst h7; rfl
  · have hhex := hexNumber?_hexDigits c.toNat h8
    simp only [List.cons_append, List.nil_append]
    rw [scanUnits, hhex]
  · simp only [List.cons_append, List.nil_append]
    rw [scanUnits, if_neg (by simpa [h2] using h8)]
    · exact h1
    · exact fun _ _ _ _ _ h => absurd h h2
    · exact fun _ _ h => absurd h h2

theorem scanUnits_writeChars (acc : List Nat) (cs r : List Char) :
    scanUnits acc (cs.flatMap writeChar ++ '\x22' :: r) =
      some (acc.reverse ++ cs.map Char.toNat, r) := by
  induction cs generalizing acc with
  | nil => simp [scanUnits]
  | cons c cs ih =>
    rw [List.flatMap_cons, List.append_assoc, scanUnits_writeChar, ih]
    simp

/-! ## Surrogates -/

/-- No character is half of a surrogate pair. -/
theorem toNat_cases (c : Char) : c.toNat < 0xd800 ∨ 0xdfff < c.toNat := c.valid.imp_right And.left

theorem isHigh_toNat (c : Char) : isHigh c.toNat = false := by
  have h := toNat_cases c
  simp only [isHigh, Bool.and_eq_false_iff, decide_eq_false_iff_not]
  omega

theorem isLow_toNat (c : Char) : isLow c.toNat = false := by
  have h := toNat_cases c
  simp only [isLow, Bool.and_eq_false_iff, decide_eq_false_iff_not]
  omega

theorem joinUnits_toNat (acc cs : List Char) :
    joinUnits acc (cs.map Char.toNat) = some (acc.reverse ++ cs) := by
  induction cs generalizing acc with
  | nil => simp [joinUnits]
  | cons c cs ih =>
    cases cs with
    | nil => simp [joinUnits, isHigh_toNat, isLow_toNat, Char.ofNat_toNat]
    | cons d cs =>
      rw [List.map_cons, List.map_cons, joinUnits, isHigh_toNat, isLow_toNat]
      have hrest := ih (c :: acc)
      simp only [Bool.false_eq_true, if_false, Char.ofNat_toNat]
      rw [List.map_cons] at hrest
      rw [hrest, isLow_toNat]
      simp

/-! ## Strings -/

/-- **A written string is scanned as it was.** -/
theorem scanString_writeString (s : JsonString) (r : List Char) :
    ∃ cs, writeString s ++ r = '\x22' :: cs ∧ scanString cs = some (s, r) := by
  cases s with
  | none => exact ⟨_, rfl, rfl⟩
  | some s =>
    refine ⟨s.toList.flatMap writeChar ++ '\x22' :: r, by simp [writeString], ?_⟩
    rw [scanString, scanUnits_writeChars, List.reverse_nil, List.nil_append]
    simp [joinUnits_toNat]

theorem scanToken_writeString (round : Numeral → Float) (s : JsonString) (r : List Char) :
    scanToken round (writeString s ++ r) = some (.string s, r) := by
  obtain ⟨cs, hcs, hscan⟩ := scanString_writeString s r
  rw [hcs, scanToken, hscan]
  rfl

end TierBudget.Json
