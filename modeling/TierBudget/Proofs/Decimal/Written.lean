import TierBudget.Json.Printer
import TierBudget.Json.Token
import TierBudget.Proofs.Decimal.Reading
/-!
# Numbers as JSON texts write them

`Numeral.written x` is the numeral that stands in a JSON text for a finite double
(`Numeral.text_written`). Scanning finds it again, as any written numeral, whatever follows that is
no part of a number (`Numeral.scan_text`); it has the value of the shortest decimal
(`Numeral.value_written`), and so the nearest double to it is the one that was written, bit by bit
(`Numeral.toFloat_written`).
-/

namespace TierBudget

open Binary64

/-! ## Digits -/

/-- Nothing but decimal digits. -/
def AreDigits (ds : List Char) : Prop := ∀ c ∈ ds, c.isDigit = true

theorem areDigits_append {a b : List Char} : AreDigits (a ++ b) ↔ AreDigits a ∧ AreDigits b :=
  List.forall_mem_append

theorem AreDigits.take {ds : List Char} (h : AreDigits ds) (n : ℕ) : AreDigits (ds.take n) :=
  fun c hc => h c (List.mem_of_mem_take hc)

theorem AreDigits.drop {ds : List Char} (h : AreDigits ds) (n : ℕ) : AreDigits (ds.drop n) :=
  fun c hc => h c (List.mem_of_mem_drop hc)

theorem areDigits_digitsOf (n : ℕ) : AreDigits (digitsOf n) :=
  fun _ hc => Nat.isDigit_of_mem_toDigits (by norm_num) (by norm_num) hc

theorem areDigits_replicate (n : ℕ) : AreDigits (List.replicate n '0') :=
  fun _ hc => by rw [List.eq_of_mem_replicate hc]; rfl

theorem digitsOf_ne_nil (n : ℕ) : digitsOf n ≠ [] := Nat.toDigits_ne_nil

@[simp] theorem ofDigits_digitsOf (n : ℕ) : ofDigits (digitsOf n) = n :=
  Nat.ofDigitChars_ten_toDigits

theorem Decimal.digits_ne_nil (d : Decimal) : d.digits ≠ [] := digitsOf_ne_nil _

theorem Decimal.ofDigits_digits (d : Decimal) : ofDigits d.digits = d.coefficient :=
  ofDigits_digitsOf _

theorem ofDigits_append (a b : List Char) :
    ofDigits (a ++ b) = 10 ^ b.length * ofDigits a + ofDigits b := by
  change Nat.ofDigitChars 10 (a ++ b) 0 = 10 ^ b.length * Nat.ofDigitChars 10 a 0 +
    Nat.ofDigitChars 10 b 0
  rw [Nat.ofDigitChars_append, Nat.ofDigitChars_eq_ofDigitChars_zero]

theorem ofDigits_replicate (n : ℕ) : ofDigits (List.replicate n '0') = 0 :=
  Nat.ofDigitChars_replicate_zero

theorem ofDigits_zero_cons (ds : List Char) : ofDigits ('0' :: ds) = ofDigits ds := by
  simp [ofDigits]

theorem ofDigits_singleton_lt {c : Char} (h : c.isDigit = true) : ofDigits [c] < 10 := by
  have hle : c.toNat ≤ 57 := by
    simp only [Char.isDigit, Bool.and_eq_true, decide_eq_true_eq] at h
    exact h.2
  change 10 * 0 + (c.toNat - 48) < 10
  omega

/-- A run of digits is below the power of ten of its length. -/
theorem ofDigits_lt {ds : List Char} (h : AreDigits ds) : ofDigits ds < 10 ^ ds.length := by
  induction ds using List.reverseRecOn with
  | nil => simp [ofDigits]
  | append_singleton ds c ih =>
    rw [areDigits_append] at h
    have hc := ofDigits_singleton_lt (h.2 c List.mem_cons_self)
    have hds := ih h.1
    rw [ofDigits_append, List.length_append, List.length_singleton, pow_one, pow_succ]
    omega

/-- The first digit of a number is not zero, unless the number is. -/
theorem head?_digitsOf {n : ℕ} (hn : n ≠ 0) : (digitsOf n).head? ≠ some '0' := by
  induction n using Nat.strong_induction_on with
  | _ n ih =>
    unfold digitsOf
    by_cases hlt : n < 10
    · rw [Nat.toDigits_of_lt_base hlt]
      interval_cases n <;> first | exact absurd rfl hn | decide
    · have hdiv := ih (n / 10) (by omega) (by omega)
      rw [Nat.toDigits_of_base_le (by norm_num) (by omega), List.head?_append]
      unfold digitsOf at hdiv
      cases h : (Nat.toDigits 10 (n / 10)).head? with
      | none => exact absurd (List.head?_eq_none_iff.1 h) Nat.toDigits_ne_nil
      | some c => rwa [h] at hdiv

/-! ## Scanning -/

/-- A text that does not go on with a number that stands before it. -/
def EndsNumber (r : List Char) : Prop :=
  ∀ c ∈ r.head?, c.isDigit = false ∧ c ≠ '.' ∧ c ≠ 'e' ∧ c ≠ 'E'

theorem takeWhile_digits {ds r : List Char} (h : AreDigits ds)
    (hr : ∀ c ∈ r.head?, c.isDigit = false) :
    (ds ++ r).takeWhile Char.isDigit = ds ∧ (ds ++ r).dropWhile Char.isDigit = r := by
  rw [List.takeWhile_append_of_pos h, List.dropWhile_append_of_pos h]
  cases r with
  | nil => simp
  | cons c r =>
    have hc := hr c rfl
    rw [List.takeWhile_cons_of_neg (by simp [hc]), List.dropWhile_cons_of_neg (by simp [hc])]
    simp

namespace Numeral

/-- The text of a numeral. -/
def text (n : Numeral) : List Char :=
  n.sign.toList ++ n.whole ++ (n.fraction.elim [] ('.' :: ·)) ++
    n.exponent.elim [] fun e => 'e' :: e.1.toList ++ e.2

/-- A numeral with digits where they belong. -/
structure IsWritten (n : Numeral) : Prop where
  sign : n.sign = none ∨ n.sign = some '-'
  whole_ne_nil : n.whole ≠ []
  whole : AreDigits n.whole
  fraction : ∀ ds ∈ n.fraction, AreDigits ds
  exponent : ∀ e ∈ n.exponent, (e.1 = some '-' ∨ e.1 = some '+') ∧ AreDigits e.2

theorem scanSign_digits {ds r : List Char} (hne : ds ≠ []) (h : AreDigits ds) :
    scanSign (ds ++ r) = (none, ds ++ r) := by
  cases ds with
  | nil => exact absurd rfl hne
  | cons c ds =>
    have hc := h c List.mem_cons_self
    rw [List.cons_append, scanSign]
    · rintro r' heq
      cases heq
      exact absurd hc (by decide)
    · rintro r' heq
      cases heq
      exact absurd hc (by decide)

theorem scanExponent_text {e : Option (Option Char × List Char)} {r : List Char}
    (h : ∀ x ∈ e, (x.1 = some '-' ∨ x.1 = some '+') ∧ AreDigits x.2) (hr : EndsNumber r) :
    scanExponent (e.elim [] (fun x => 'e' :: x.1.toList ++ x.2) ++ r) = (e, r) := by
  cases e with
  | none =>
    cases r with
    | nil => rfl
    | cons c r =>
      obtain ⟨-, -, he, hE⟩ := hr c rfl
      simp [scanExponent, he, hE]
  | some x =>
    obtain ⟨sign, ds⟩ := x
    obtain ⟨hsign, hds⟩ := h _ rfl
    obtain ⟨htake, hdrop⟩ := takeWhile_digits hds fun c hc => (hr c hc).1
    rcases hsign with rfl | rfl <;>
      simp [scanExponent, scanSign, htake, hdrop]

theorem scanFraction_text {f : Option (List Char)} {r : List Char} (h : ∀ ds ∈ f, AreDigits ds)
    (hr : ∀ c ∈ r.head?, c.isDigit = false ∧ c ≠ '.') :
    scanFraction (f.elim [] ('.' :: ·) ++ r) = (f, r) := by
  cases f with
  | none =>
    cases r with
    | nil => rfl
    | cons c r =>
      have hc := (hr c rfl).2
      simp [scanFraction, hc]
  | some ds =>
    obtain ⟨htake, hdrop⟩ := takeWhile_digits (h ds rfl) fun c hc => (hr c hc).1
    simp [scanFraction, htake, hdrop]

/-- **Scanning a written numeral finds it.** -/
theorem scan_text {n : Numeral} (h : n.IsWritten) {r : List Char} (hr : EndsNumber r) :
    scan (n.text ++ r) = (n, r) := by
  obtain ⟨sign, whole, fraction, exponent⟩ := n
  let tail := exponent.elim [] (fun x => 'e' :: x.1.toList ++ x.2) ++ r
  let rest := fraction.elim [] ('.' :: ·) ++ tail
  have htail : ∀ c ∈ tail.head?, c.isDigit = false ∧ c ≠ '.' := by
    intro c hc
    cases exponent with
    | none => exact ⟨(hr c hc).1, (hr c hc).2.1⟩
    | some x =>
      cases hc
      decide
  have hrest : ∀ c ∈ rest.head?, c.isDigit = false := by
    intro c hc
    cases fraction with
    | none => exact (htail c hc).1
    | some ds =>
      cases hc
      decide
  have htext : text ⟨sign, whole, fraction, exponent⟩ ++ r = sign.toList ++ (whole ++ rest) := by
    simp [text, rest, tail]
  have hsign : scanSign (sign.toList ++ (whole ++ rest)) = (sign, whole ++ rest) := by
    rcases h.sign with hs | hs
    · obtain rfl : sign = none := hs
      exact @scanSign_digits whole rest h.whole_ne_nil h.whole
    · obtain rfl : sign = some '-' := hs
      rfl
  obtain ⟨htake, hdrop⟩ := takeWhile_digits h.whole hrest
  have hfraction : scanFraction rest = (fraction, tail) := scanFraction_text h.fraction htail
  have hexponent : scanExponent tail = (exponent, r) := scanExponent_text h.exponent hr
  rw [htext, scan, hsign]
  simp only [htake, hdrop, hfraction, hexponent]

/-! ## The numeral of a double -/

/-- The exponent that is written for a whole number. -/
def exponentOf (n : ℤ) : Option Char × List Char :=
  (some (if n < 0 then '-' else '+'), digitsOf n.natAbs)

theorem exponentText_eq (n : ℤ) :
    Layout.exponentText Layout.json.plus n = (exponentOf n).1.toList ++ (exponentOf n).2 := by
  by_cases h : n < 0 <;> simp [Layout.exponentText, Layout.json, exponentOf, h]

/-- The numeral that JSON texts write for `0.d₁d₂… · 10 ^ k`. -/
def ofPoint (sign : Option Char) (ds : List Char) (k : ℤ) : Numeral :=
  if Layout.json.positional k then
    if k ≤ 0 then ⟨sign, ['0'], some (List.replicate (-k).toNat '0' ++ ds), none⟩
    else if (ds.length : ℤ) ≤ k then
      ⟨sign, ds ++ List.replicate (k.toNat - ds.length) '0', some ['0'], none⟩
    else ⟨sign, ds.take k.toNat, some (ds.drop k.toNat), none⟩
  else
    match ds with
    | d :: e :: r => ⟨sign, [d], some (e :: r), some (exponentOf (k - 1))⟩
    | _ => ⟨sign, ds, none, some (exponentOf (k - 1))⟩

theorem text_ofPoint (sign : Option Char) (ds : List Char) (k : ℤ) :
    (ofPoint sign ds k).text = sign.toList ++ Layout.json.writeDigits ds k := by
  unfold ofPoint Layout.writeDigits
  rw [exponentText_eq, if_pos (show Layout.json.pointZero = true from rfl)]
  split_ifs
  · simp [text]
  · simp [text]
  · simp [text]
  · split <;> simp [text]

theorem exponentValue_exponentOf (sign : Option Char) (ds : List Char) (f : Option (List Char))
    (n : ℤ) : exponentValue ⟨sign, ds, f, some (exponentOf n)⟩ = n := by
  by_cases h : n < 0
  · rw [exponentOf, if_pos h]
    change -(ofDigits (digitsOf n.natAbs) : ℤ) = n
    rw [ofDigits_digitsOf]
    omega
  · rw [exponentOf, if_neg h]
    change (ofDigits (digitsOf n.natAbs) : ℤ) = n
    rw [ofDigits_digitsOf]
    omega

theorem hasExponentDigits_exponentOf (sign : Option Char) (ds : List Char) (f : Option (List Char))
    (n : ℤ) : hasExponentDigits ⟨sign, ds, f, some (exponentOf n)⟩ = true := by
  unfold hasExponentDigits exponentOf
  split
  · next heq => exact absurd (Prod.mk.inj (Option.some.inj heq)).2 (digitsOf_ne_nil _)
  · rfl

theorem value_eq (n : Numeral) : n.toDecimal.value =
    ofDigits (n.whole ++ n.fraction.getD []) *
      10 ^ (n.exponentValue - (n.fraction.getD []).length) := rfl

/-- **The numeral has the value of the digits.** -/
theorem value_ofPoint (sign : Option Char) {ds : List Char} (hne : ds ≠ []) (k : ℤ) :
    (ofPoint sign ds k).toDecimal.value = ofDigits ds * 10 ^ (k - ds.length) := by
  unfold ofPoint
  split_ifs with hpos hle hlen
  · have hexp : (0 : ℤ) - (List.replicate (-k).toNat '0' ++ ds).length = k - ds.length := by
      rw [List.length_append, List.length_replicate]
      omega
    change (ofDigits ('0' :: (List.replicate (-k).toNat '0' ++ ds)) : ℚ) * 10 ^ _ = _
    rw [ofDigits_zero_cons, ofDigits_append, ofDigits_replicate, mul_zero, zero_add]
    exact congrArg (fun e => (ofDigits ds : ℚ) * 10 ^ e) hexp
  · obtain ⟨z, hz⟩ := Int.le.dest hlen
    have hzeros : k.toNat - ds.length = z := by omega
    have hdigits :
        ofDigits (ds ++ List.replicate z '0' ++ ['0']) = 10 * (10 ^ z * ofDigits ds) := by
      rw [ofDigits_append, ofDigits_append, ofDigits_replicate, List.length_replicate]
      rfl
    change (ofDigits (ds ++ List.replicate (k.toNat - ds.length) '0' ++ ['0']) : ℚ) *
      10 ^ (-1 : ℤ) = _
    rw [hzeros, hdigits, ← hz, add_sub_cancel_left, zpow_natCast, zpow_neg_one]
    push_cast
    ring
  · have hexp : (0 : ℤ) - (ds.drop k.toNat).length = k - ds.length := by
      rw [List.length_drop]
      omega
    change (ofDigits (ds.take k.toNat ++ ds.drop k.toNat) : ℚ) * 10 ^ _ = _
    rw [List.take_append_drop]
    exact congrArg (fun e => (ofDigits ds : ℚ) * 10 ^ e) hexp
  · match ds, hne with
    | [d], _ =>
      rw [value_eq, exponentValue_exponentOf]
      have hexp : k - 1 - (([] : List Char).length : ℤ) = k - [d].length := by simp
      exact congrArg (fun x => (ofDigits [d] : ℚ) * 10 ^ x) hexp
    | d :: e :: r, _ =>
      rw [value_eq, exponentValue_exponentOf]
      have hexp : k - 1 - ((e :: r).length : ℤ) = k - (d :: e :: r).length := by
        simp only [List.length_cons]
        omega
      exact congrArg (fun x => (ofDigits (d :: e :: r) : ℚ) * 10 ^ x) hexp

section

variable {sign : Option Char} {ds : List Char} (hne : ds ≠ []) (k : ℤ)
include hne

theorem isWritten_ofPoint (hsign : sign = none ∨ sign = some '-') (hds : AreDigits ds) :
    (ofPoint sign ds k).IsWritten := by
  have hexp : ∀ e ∈ some (exponentOf (k - 1)), (e.1 = some '-' ∨ e.1 = some '+') ∧
      AreDigits e.2 := by
    rintro e he
    cases he
    refine ⟨?_, areDigits_digitsOf _⟩
    by_cases h : k - 1 < 0 <;> simp [exponentOf, h]
  unfold ofPoint
  split_ifs with hpos hle hlen
  · refine ⟨hsign, List.cons_ne_nil _ _, ?_, ?_, ?_⟩
    · simp [AreDigits]
    · simpa using areDigits_append.2 ⟨areDigits_replicate _, hds⟩
    · simp
  · refine ⟨hsign, by simp [hne], areDigits_append.2 ⟨hds, areDigits_replicate _⟩, ?_, ?_⟩
    · simp [AreDigits]
    · simp
  · refine ⟨hsign, ?_, hds.take _, ?_, ?_⟩
    · simp only [ne_eq, List.take_eq_nil_iff, hne, or_false]
      omega
    · simpa using hds.drop _
    · simp
  · match ds, hne with
    | [d], _ => exact ⟨hsign, List.cons_ne_nil _ _, hds, by simp, hexp⟩
    | d :: e :: r, _ =>
      have hd := areDigits_append.1 (show AreDigits ([d] ++ e :: r) from hds)
      exact ⟨hsign, List.cons_ne_nil _ _, hd.1, by simpa using hd.2, hexp⟩

/-- Numbers without a leading zero, or of the one digit zero, are written as JSON has them. -/
theorem isNumber_ofPoint (hsign : sign = none ∨ sign = some '-')
    (hhead : ds.head? ≠ some '0' ∨ ds = ['0'] ∧ k = 1) :
    Json.isNumber (ofPoint sign ds k) = true := by
  have hplus : sign ≠ some '+' := by rcases hsign with rfl | rfl <;> simp
  have hnumber {whole : List Char} {f : Option (List Char)} {e : Option (Option Char × List Char)}
      (h₁ : whole ≠ []) (h₂ : whole.head? ≠ some '0' ∨ whole = ['0']) (h₃ : f ≠ some [])
      (h₄ : hasExponentDigits ⟨sign, whole, f, e⟩ = true) :
      Json.isNumber ⟨sign, whole, f, e⟩ = true := by
    simp [Json.isNumber, hplus, h₁, h₂, h₃, h₄]
  unfold ofPoint
  split_ifs with hpos hle hlen
  · exact hnumber (List.cons_ne_nil _ _) (.inr rfl) (by simp [hne]) rfl
  · refine hnumber (by simp [hne]) ?_ (by simp) rfl
    rcases hhead with hhead | ⟨rfl, rfl⟩
    · left
      rwa [List.head?_append_of_ne_nil _ hne]
    · exact .inr rfl
  · refine hnumber ?_ ?_ ?_ rfl
    · simp only [ne_eq, List.take_eq_nil_iff, hne, or_false]
      omega
    · rcases hhead with hhead | ⟨rfl, rfl⟩
      · left
        rwa [List.head?_take, if_neg (by omega)]
      · exact absurd le_rfl hlen
    · simp only [ne_eq, Option.some.injEq, List.drop_eq_nil_iff]
      omega
  · match ds, hne with
    | [d], _ =>
      exact hnumber (List.cons_ne_nil _ _) (hhead.imp_right And.left) (by simp)
        (hasExponentDigits_exponentOf ..)
    | d :: e :: r, _ =>
      refine hnumber (List.cons_ne_nil _ _) (.inl ?_) (by simp) (hasExponentDigits_exponentOf ..)
      rcases hhead with hhead | ⟨h, -⟩
      · exact hhead
      · cases h

theorem sign_ofPoint : (ofPoint sign ds k).sign = sign := by
  unfold ofPoint
  split_ifs
  · rfl
  · rfl
  · rfl
  · match ds, hne with
    | [d], _ => rfl
    | d :: e :: r, _ => rfl

theorem isInteger_ofPoint : (ofPoint sign ds k).isInteger = false := by
  unfold ofPoint
  split_ifs
  · rfl
  · rfl
  · rfl
  · match ds, hne with
    | [d], _ => rfl
    | d :: e :: r, _ => rfl

/-- No more than sixteen digits are written before the point. -/
theorem length_whole_ofPoint : (ofPoint sign ds k).whole.length ≤ 16 := by
  unfold ofPoint
  split_ifs with hpos hle hlen
  · simp
  · simp [Layout.json] at hpos
    simp
    omega
  · simp [Layout.json] at hpos
    simp
    omega
  · match ds, hne with
    | [d], _ => simp
    | d :: e :: r, _ => simp

end

end Numeral

/-! ## The numeral of a double -/

/-- The shortest decimal is zero in one form only. -/
theorem shortest_cases (tie : Tie) (x : Float) :
    (shortest tie x).coefficient ≠ 0 ∨ shortest tie x = ⟨0, 0⟩ := by
  rw [shortest]
  split_ifs with hzero
  · exact .inr rfl
  have hexact : (Decimal.exact (Magnitude.ofFloat x)).coefficient ≠ 0 := by
    unfold Decimal.exact
    split_ifs
    · exact Nat.mul_ne_zero hzero (by simp)
    · exact Nat.mul_ne_zero hzero (by simp)
  left
  split
  · next d hd =>
    split_ifs with hback
    · intro hc
      have hvalue : d.value = 0 := by simp [Decimal.value, hc]
      have hread := d.roundsTo_toFloat.hasValue (by simp [hvalue])
      rw [hvalue, nearest_zero] at hread
      exact hzero (hback ▸ hread.mantissa_eq_zero)
    · exact hexact
  · exact hexact

namespace Numeral

/-- The numeral that stands in a JSON text for a finite double. -/
def written (x : Float) : Numeral :=
  let d := shortest Layout.json.tie x
  ofPoint (if TierBudget.isNegative x then some '-' else none) d.digits d.point

variable (x : Float)

theorem text_written : (written x).text = Layout.json.writeFinite x := by
  rw [written, text_ofPoint, Layout.writeFinite]
  split_ifs <;> simp

theorem isWritten_written : (written x).IsWritten :=
  isWritten_ofPoint (Decimal.digits_ne_nil _) _ (by split_ifs <;> simp) (areDigits_digitsOf _)

theorem isNumber_written : Json.isNumber (written x) = true := by
  refine isNumber_ofPoint (Decimal.digits_ne_nil _) _ (by split_ifs <;> simp) ?_
  rcases shortest_cases Layout.json.tie x with h | h
  · exact .inl (head?_digitsOf h)
  · right
    rw [h]
    decide

theorem isInteger_written : (written x).isInteger = false :=
  isInteger_ofPoint (Decimal.digits_ne_nil _) _

theorem length_whole_written : (written x).whole.length ≤ 16 :=
  length_whole_ofPoint (Decimal.digits_ne_nil _) _

theorem isNegative_written : (written x).isNegative = TierBudget.isNegative x := by
  rw [isNegative, written, sign_ofPoint (Decimal.digits_ne_nil _)]
  split_ifs with h <;> simp [h]

/-- **It has the value of the shortest decimal.** -/
theorem value_written : (written x).toDecimal.value = (shortest Layout.json.tie x).value := by
  rw [written, value_ofPoint _ (Decimal.digits_ne_nil _), Decimal.point, add_sub_cancel_left,
    Decimal.ofDigits_digits]
  rfl

/-- **Read with correct rounding, it is the double**, the sign of zero included. -/
theorem toFloat_written (h : x.isFinite = true) : (written x).toFloat = x := by
  obtain ⟨q, hq⟩ := isFinite_iff.1 h
  rw [toFloat, isNegative_written]
  by_cases h0 : q = 0
  · subst h0
    have hdecimal : (written x).toDecimal = ⟨0, -1⟩ := by
      rw [written, shortest, if_pos hq.mantissa_eq_zero]
      rfl
    rw [hdecimal]
    exact hq.applySign_zero
  · have hnearest : nearest (written x).toDecimal.value = |q| := by
      rw [value_written, nearest_shortest _ hq]
    have hread := (written x).toDecimal.roundsTo_toFloat.hasValue
      (by rw [hnearest, abs_abs]; exact hq.abs_lt)
    rw [hnearest] at hread
    exact hq.applySign_eq h0 hread

end Numeral

end TierBudget
