import TierBudget.Proofs.Decimal.Written
import TierBudget.Proofs.Json.Strings
/-!
# Reading what was written

`Json.readWith_write` says what comes back when a JSON value is written and its text is read: the
value itself, but for the doubles, which are what the reader makes of their numerals, and for those
that are not finite, which come back as `null`. It holds of any spacing with blanks between the
tokens. The text is cut into its tokens first (`Json.scans_writeValue`), from which the value is put
together again (`Json.readValue_tokensOf`); both go along the value. Blanks at the end of the text
make no difference (`Json.readWith_write_append`).
-/

namespace TierBudget.Json

variable (round : Numeral → Float)

/-! ## Whole numbers -/

/-- The numeral that is written for a whole number. -/
def integerNumeral (n : Int) : Numeral :=
  ⟨if n < 0 then some '-' else none, digitsOf n.natAbs, none, none⟩

theorem text_integerNumeral (n : Int) : (integerNumeral n).text = writeInteger n := by
  unfold writeInteger integerNumeral
  split_ifs <;> simp [Numeral.text]

theorem isWritten_integerNumeral (n : Int) : (integerNumeral n).IsWritten where
  sign := by unfold integerNumeral; split_ifs <;> simp
  whole_ne_nil := digitsOf_ne_nil _
  whole := areDigits_digitsOf _
  fraction := by simp [integerNumeral]
  exponent := by simp [integerNumeral]

theorem isNumber_integerNumeral (n : Int) : isNumber (integerNumeral n) = true := by
  have hwhole : (digitsOf n.natAbs).head? ≠ some '0' ∨ digitsOf n.natAbs = ['0'] := by
    by_cases h : n.natAbs = 0
    · exact .inr (by rw [h]; rfl)
    · exact .inl (head?_digitsOf h)
  have hsign : (if n < 0 then some '-' else none) ≠ some '+' := by split_ifs <;> simp
  simp [isNumber, integerNumeral, Numeral.hasExponentDigits, hsign, hwhole, digitsOf_ne_nil]

theorem toInt_integerNumeral (n : Int) : (integerNumeral n).toInt = n := by
  by_cases h : n < 0
  · simp only [integerNumeral, Numeral.toInt, Numeral.isNegative, h, if_true, beq_self_eq_true,
      ofDigits_digitsOf]
    omega
  · simp only [integerNumeral, Numeral.toInt, Numeral.isNegative, h, if_false,
      show (none == some '-') = false from rfl, Bool.false_eq_true, ofDigits_digitsOf]
    omega

theorem numberToken_integerNumeral (n : Int) :
    numberToken round (integerNumeral n) =
      if fitsWord n then .integer n else .float (round (integerNumeral n)) := by
  have hinteger : (integerNumeral n).isInteger = true := rfl
  have hzero : ((integerNumeral n).isNegative && n == 0) = false := by
    by_cases h : n < 0
    · simp [h.ne]
    · simp [integerNumeral, Numeral.isNegative, h]
  rw [numberToken, toInt_integerNumeral, hinteger, hzero]
  simp

/-! ## What comes back -/

mutual

/-- What reading makes of what was written for a value. -/
def reread : Json → Json
  | .null => .null
  | .bool b => .bool b
  | .integer n => if fitsWord n then .integer n else .float (round (integerNumeral n))
  | .float x => if x.isFinite then .float (round (.written x)) else .null
  | .string s => .string s
  | .array xs => .array (rereadElements xs)
  | .object ms => .object (rereadMembers ms)

def rereadElements : List Json → List Json
  | [] => []
  | x :: xs => reread x :: rereadElements xs

def rereadMembers : List (JsonString × Json) → List (JsonString × Json)
  | [] => []
  | (k, x) :: ms => (k, reread x) :: rereadMembers ms

end

theorem rereadElements_eq (xs : List Json) : rereadElements round xs = xs.map (reread round) := by
  induction xs with
  | nil => rfl
  | cons x xs ih => rw [rereadElements, ih, List.map_cons]

theorem rereadMembers_eq (ms : List (JsonString × Json)) :
    rereadMembers round ms = ms.map fun (k, x) => (k, x.reread round) := by
  induction ms with
  | nil => rfl
  | cons m ms ih => rw [rereadMembers, ih, List.map_cons]

theorem reread_array (xs : List Json) :
    reread round (.array xs) = .array (xs.map (reread round)) := by
  rw [reread, rereadElements_eq]

theorem reread_record (ms : List (String × Json)) :
    reread round (.record ms) = .record (ms.map fun (k, x) => (k, x.reread round)) := by
  rw [record, record, reread, rereadMembers_eq, List.map_map, List.map_map]
  rfl

mutual

/-- The tokens that are written for a value. -/
def tokensOf : Json → List Token
  | .null => [.null]
  | .bool b => [.bool b]
  | .integer n => [numberToken round (integerNumeral n)]
  | .float x => [if x.isFinite then .float (round (.written x)) else .null]
  | .string s => [.string s]
  | .array [] => [.openBracket, .closeBracket]
  | .array (x :: xs) => .openBracket :: tokensOf x ++ elementTokens xs ++ [.closeBracket]
  | .object [] => [.openBrace, .closeBrace]
  | .object ((k, x) :: ms) =>
    .openBrace :: .string k :: .colon :: tokensOf x ++ memberTokens ms ++ [.closeBrace]

/-- The tokens of the elements after the first. -/
def elementTokens : List Json → List Token
  | [] => []
  | x :: xs => .comma :: tokensOf x ++ elementTokens xs

/-- The tokens of the members after the first. -/
def memberTokens : List (JsonString × Json) → List Token
  | [] => []
  | (k, x) :: ms => .comma :: .string k :: .colon :: tokensOf x ++ memberTokens ms

end

/-! ## From tokens to the value -/

/-- Every value starts with a token that closes nothing. -/
theorem tokensOf_eq_cons (j : Json) :
    ∃ t ts, tokensOf round j = t :: ts ∧ t ≠ .closeBracket ∧ t ≠ .closeBrace := by
  cases j with
  | null => exact ⟨_, _, rfl, nofun, nofun⟩
  | bool b => exact ⟨_, _, rfl, nofun, nofun⟩
  | integer n =>
    refine ⟨_, _, rfl, ?_, ?_⟩ <;> unfold numberToken <;> split <;> nofun
  | float x =>
    refine ⟨_, _, rfl, ?_, ?_⟩ <;> split <;> nofun
  | string s => exact ⟨_, _, rfl, nofun, nofun⟩
  | array xs => cases xs <;> exact ⟨_, _, rfl, nofun, nofun⟩
  | object ms => cases ms <;> exact ⟨_, _, rfl, nofun, nofun⟩

theorem exists_succ_of_tokensOf {j : Json} {fuel : Nat}
    (h : 2 * (tokensOf round j).length ≤ fuel) : ∃ n, fuel = n + 1 := by
  obtain ⟨t, ts, hts, -⟩ := tokensOf_eq_cons round j
  rw [hts, List.length_cons] at h
  exact ⟨fuel - 1, by omega⟩

theorem readValue_openBracket (j : Json) (ts : List Token) (fuel : Nat) :
    readValue (fuel + 1) (.openBracket :: (tokensOf round j ++ ts)) =
      readElements fuel [] (tokensOf round j ++ ts) := by
  obtain ⟨t, r, ht, hclose, -⟩ := tokensOf_eq_cons round j
  rw [ht, List.cons_append, readValue]
  rintro r' heq
  exact hclose (List.cons.inj heq).1

mutual

theorem readValue_tokensOf : ∀ (j : Json) (ts : List Token) {fuel : Nat},
    2 * (tokensOf round j).length ≤ fuel →
      readValue fuel (tokensOf round j ++ ts) = some (reread round j, ts)
  | .null, ts, fuel, h => by
    obtain ⟨fuel, rfl⟩ := exists_succ_of_tokensOf round h
    rfl
  | .bool b, ts, fuel, h => by
    obtain ⟨fuel, rfl⟩ := exists_succ_of_tokensOf round h
    rfl
  | .integer n, ts, fuel, h => by
    obtain ⟨fuel, rfl⟩ := exists_succ_of_tokensOf round h
    simp only [tokensOf, reread, numberToken_integerNumeral]
    split <;> rfl
  | .float x, ts, fuel, h => by
    obtain ⟨fuel, rfl⟩ := exists_succ_of_tokensOf round h
    simp only [tokensOf, reread]
    split <;> rfl
  | .string s, ts, fuel, h => by
    obtain ⟨fuel, rfl⟩ := exists_succ_of_tokensOf round h
    rfl
  | .array [], ts, fuel, h => by
    obtain ⟨fuel, rfl⟩ := exists_succ_of_tokensOf round h
    simp [tokensOf, readValue, reread, rereadElements]
  | .array (x :: xs), ts, fuel, h => by
    simp only [tokensOf, List.cons_append, List.append_assoc, List.nil_append, List.length_cons,
      List.length_append, List.length_nil] at h ⊢
    obtain ⟨fuel, rfl⟩ : ∃ n, fuel = n + 2 := ⟨fuel - 2, by omega⟩
    have hx := @readValue_tokensOf x (elementTokens round xs ++ .closeBracket :: ts) fuel
      (by omega)
    rw [readValue_openBracket, readElements_tokensOf xs [] ts hx (by omega)]
    rfl
  | .object [], ts, fuel, h => by
    obtain ⟨fuel, rfl⟩ := exists_succ_of_tokensOf round h
    simp [tokensOf, readValue, reread, rereadMembers]
  | .object ((k, x) :: ms), ts, fuel, h => by
    simp only [tokensOf, List.cons_append, List.append_assoc, List.nil_append, List.length_cons,
      List.length_append, List.length_nil] at h ⊢
    obtain ⟨fuel, rfl⟩ : ∃ n, fuel = n + 2 := ⟨fuel - 2, by omega⟩
    have hx := @readValue_tokensOf x (memberTokens round ms ++ .closeBrace :: ts) fuel (by omega)
    rw [readValue, readMembers_tokensOf ms k [] ts hx (by omega)]
    · rfl
    · nofun

theorem readElements_tokensOf : ∀ (xs : List Json) (acc : List Json) (ts : List Token)
    {fuel : Nat} {x : Json} {r : List Token},
    readValue fuel r = some (x, elementTokens round xs ++ .closeBracket :: ts) →
      2 * (elementTokens round xs).length ≤ fuel →
        readElements (fuel + 1) acc r =
          some (.array (acc.reverse ++ x :: rereadElements round xs), ts)
  | [], acc, ts, fuel, x, r, hr, h => by
    rw [readElements, hr]
    simp [elementTokens, rereadElements]
  | y :: ys, acc, ts, fuel, x, r, hr, h => by
    simp only [elementTokens, List.cons_append, List.append_assoc, List.length_cons,
      List.length_append] at hr h
    obtain ⟨fuel, rfl⟩ : ∃ n, fuel = n + 1 := ⟨fuel - 1, by omega⟩
    have hy := @readValue_tokensOf y (elementTokens round ys ++ .closeBracket :: ts) fuel
      (by omega)
    rw [readElements, hr]
    simp only
    rw [readElements_tokensOf ys (x :: acc) ts hy (by omega)]
    simp [rereadElements]

theorem readMembers_tokensOf : ∀ (ms : List (JsonString × Json)) (k : JsonString)
    (acc : List (JsonString × Json)) (ts : List Token) {fuel : Nat} {x : Json} {r : List Token},
    readValue fuel r = some (x, memberTokens round ms ++ .closeBrace :: ts) →
      2 * (memberTokens round ms).length ≤ fuel →
        readMembers (fuel + 1) acc (.string k :: .colon :: r) =
          some (.object (acc.reverse ++ (k, x) :: rereadMembers round ms), ts)
  | [], k, acc, ts, fuel, x, r, hr, h => by
    rw [readMembers, hr]
    simp [memberTokens, rereadMembers]
  | (l, y) :: ms, k, acc, ts, fuel, x, r, hr, h => by
    simp only [memberTokens, List.cons_append, List.append_assoc, List.length_cons,
      List.length_append] at hr h
    obtain ⟨fuel, rfl⟩ : ∃ n, fuel = n + 1 := ⟨fuel - 1, by omega⟩
    have hy := @readValue_tokensOf y (memberTokens round ms ++ .closeBrace :: ts) fuel (by omega)
    rw [readMembers, hr]
    simp only
    rw [readMembers_tokensOf ms l ((k, x) :: acc) ts hy (by omega)]
    simp [rereadMembers]

end

theorem ofTokens_tokensOf (j : Json) : ofTokens (tokensOf round j) = some (reread round j) := by
  have h := readValue_tokensOf round j [] (Nat.le_succ (2 * (tokensOf round j).length))
  rw [List.append_nil] at h
  rw [ofTokens, h]

/-! ## From the text to its tokens -/

/-- Nothing but blanks. -/
def AreBlanks (cs : List Char) : Prop := ∀ c ∈ cs, isBlank c = true

/-- The text is cut into the tokens, given fuel for each character. -/
def Scans (cs : List Char) (ts : List Token) : Prop :=
  ∀ (fuel : Nat) (acc : List Token), cs.length < fuel →
    scanTokens round fuel acc cs = some (acc.reverse ++ ts)

theorem scans_nil : Scans round [] [] := by
  intro fuel acc h
  obtain ⟨fuel, rfl⟩ : ∃ n, fuel = n + 1 := ⟨fuel - 1, by omega⟩
  simp [scanTokens]

variable {round} {cs r : List Char} {t : Token} {ts : List Token}

theorem Scans.blanks {b : List Char} (hb : AreBlanks b) (h : Scans round cs ts) :
    Scans round (b ++ cs) ts := by
  intro fuel acc hfuel
  rw [List.length_append] at hfuel
  rw [← h fuel acc (by omega)]
  obtain ⟨fuel, rfl⟩ : ∃ n, fuel = n + 1 := ⟨fuel - 1, by omega⟩
  rw [scanTokens, scanTokens, List.dropWhile_append_of_pos hb]

/-- A text that starts with a token. -/
theorem Scans.token {c : Char} (hc : isBlank c = false)
    (ht : scanToken round (c :: cs ++ r) = some (t, r)) (h : Scans round r ts) :
    Scans round (c :: cs ++ r) (t :: ts) := by
  intro fuel acc hfuel
  rw [List.length_append, List.length_cons] at hfuel
  obtain ⟨fuel, rfl⟩ : ∃ n, fuel = n + 1 := ⟨fuel - 1, by omega⟩
  have hdrop : (c :: cs ++ r).dropWhile isBlank = c :: cs ++ r := by
    rw [List.cons_append, List.dropWhile_cons_of_neg (by simp [hc])]
  rw [scanTokens, hdrop]
  simp only [List.cons_append] at ht ⊢
  rw [ht]
  simp only
  rw [h fuel (t :: acc) (by omega)]
  simp

/-- A text that starts with a token of one character. -/
theorem Scans.sign {c : Char} (hc : isBlank c = false)
    (ht : ∀ r, scanToken round (c :: r) = some (t, r)) (h : Scans round r ts) :
    Scans round (c :: r) (t :: ts) := @Scans.token round [] r t ts c hc (ht r) h

/-! ### Numbers -/

/-- What starts like a number can only be one. -/
theorem scanToken_of_digit {c : Char} (hc : c.isDigit = true ∨ c = '-') (cs : List Char) :
    scanToken round (c :: cs) = scanNumber round (c :: cs) := by
  unfold scanToken
  split
  case h_11 => rfl
  all_goals
    next heq =>
      obtain ⟨rfl, -⟩ := List.cons.inj heq
      exact absurd hc (by decide)

theorem isBlank_of_digit {c : Char} (hc : c.isDigit = true ∨ c = '-') : isBlank c = false := by
  simp only [isBlank, Bool.or_eq_false_iff, decide_eq_false_iff_not]
  refine ⟨⟨⟨?_, ?_⟩, ?_⟩, ?_⟩ <;>
  · rintro rfl
    exact absurd hc (by decide)

/-- A written numeral starts with a digit or a minus sign. -/
theorem text_eq_cons {n : Numeral} (h : n.IsWritten) :
    ∃ c cs, n.text = c :: cs ∧ (c.isDigit = true ∨ c = '-') := by
  obtain ⟨d, ds, hwhole⟩ := List.exists_cons_of_ne_nil h.whole_ne_nil
  have hd : d.isDigit = true := h.whole d (by rw [hwhole]; exact List.mem_cons_self)
  rcases h.sign with hs | hs
  · exact ⟨d, _, by rw [Numeral.text, hs, hwhole]; rfl, .inl hd⟩
  · exact ⟨'-', _, by rw [Numeral.text, hs]; rfl, .inr rfl⟩

theorem Scans.numeral {n : Numeral} (hn : n.IsWritten) (hnumber : isNumber n = true)
    (hr : EndsNumber r) (h : Scans round r ts) :
    Scans round (n.text ++ r) (numberToken round n :: ts) := by
  obtain ⟨c, cs, htext, hc⟩ := text_eq_cons hn
  have hscan := Numeral.scan_text hn hr
  rw [htext] at hscan ⊢
  refine h.token (isBlank_of_digit hc) ?_
  rw [List.cons_append, scanToken_of_digit hc, scanNumber, ← List.cons_append, hscan]
  simp [hnumber]

theorem Scans.integer (n : Int) (hr : EndsNumber r) (h : Scans round r ts) :
    Scans round (writeInteger n ++ r) (numberToken round (integerNumeral n) :: ts) := by
  rw [← text_integerNumeral]
  exact h.numeral (isWritten_integerNumeral n) (isNumber_integerNumeral n) hr

theorem Scans.float (x : Float) (hr : EndsNumber r) (h : Scans round r ts) :
    Scans round (writeFloat x ++ r) (tokensOf round (.float x) ++ ts) := by
  rw [writeFloat, tokensOf]
  split_ifs
  · have htoken : numberToken round (.written x) = .float (round (.written x)) := by
      simp [numberToken, Numeral.isInteger_written]
    rw [← Numeral.text_written, List.singleton_append, ← htoken]
    exact h.numeral (Numeral.isWritten_written x) (Numeral.isNumber_written x) hr
  · exact h.token rfl rfl

theorem Scans.string (s : JsonString) (h : Scans round r ts) :
    Scans round (writeString s ++ r) (.string s :: ts) := by
  have hscan := scanToken_writeString round s r
  obtain ⟨cs, hcs⟩ : ∃ cs, writeString s = '\x22' :: cs := by cases s <;> exact ⟨_, rfl⟩
  rw [hcs] at hscan ⊢
  exact h.token rfl hscan

/-! ### Values -/

/-- A spacing that puts nothing but blanks and the colon between tokens. -/
structure Spacing.IsBlank (sp : Spacing) : Prop where
  line : ∀ d, AreBlanks (sp.line d)
  colon : ∃ b, sp.colon = ':' :: b ∧ AreBlanks b

theorem Spacing.isBlank_compact : Spacing.compact.IsBlank where
  line _ := by simp [AreBlanks, Spacing.compact]
  colon := ⟨[], rfl, by simp [AreBlanks]⟩

theorem Spacing.isBlank_pretty : Spacing.pretty.IsBlank where
  line d c hc := by
    rcases List.mem_cons.1 hc with rfl | hc
    · rfl
    · rw [List.eq_of_mem_replicate hc]
      rfl
  colon := ⟨[' '], rfl, by simp [AreBlanks, isBlank]⟩

theorem endsNumber_nil : EndsNumber [] := by simp [EndsNumber]

theorem endsNumber_cons {c : Char} (h : c.isDigit = false ∧ c ≠ '.' ∧ c ≠ 'e' ∧ c ≠ 'E')
    (r : List Char) : EndsNumber (c :: r) := by
  rintro _ ⟨⟩
  exact h

theorem endsNumber_blanks {b : List Char} (hb : AreBlanks b) (hr : EndsNumber r) :
    EndsNumber (b ++ r) := by
  cases b with
  | nil => exact hr
  | cons c b =>
    have hc := hb c List.mem_cons_self
    simp only [isBlank, Bool.or_eq_true, decide_eq_true_eq] at hc
    exact endsNumber_cons (by rcases hc with ((rfl | rfl) | rfl) | rfl <;> decide) _

variable {sp : Spacing} (hsp : sp.IsBlank)
include hsp

theorem Scans.colon (h : Scans round r ts) : Scans round (sp.colon ++ r) (.colon :: ts) := by
  obtain ⟨b, hcolon, hb⟩ := hsp.colon
  rw [hcolon]
  exact (h.blanks hb).sign rfl fun _ => rfl

omit hsp in
theorem endsNumber_writeElements (xs : List Json) (d : Nat) (hr : EndsNumber r) :
    EndsNumber (writeElements sp d xs ++ r) := by
  cases xs with
  | nil => exact hr
  | cons x xs => exact endsNumber_cons (by decide) _

omit hsp in
theorem endsNumber_writeMembers (ms : List (JsonString × Json)) (d : Nat) (hr : EndsNumber r) :
    EndsNumber (writeMembers sp d ms ++ r) := by
  cases ms with
  | nil => exact hr
  | cons m ms => exact endsNumber_cons (by decide) _

mutual

theorem scans_writeValue : ∀ (j : Json) (d : Nat) {r : List Char} {ts : List Token},
    EndsNumber r → Scans round r ts →
      Scans round (writeValue sp d j ++ r) (tokensOf round j ++ ts)
  | .null, d, r, ts, hr, h => h.token rfl rfl
  | .bool true, d, r, ts, hr, h => h.token rfl rfl
  | .bool false, d, r, ts, hr, h => h.token rfl rfl
  | .integer n, d, r, ts, hr, h => h.integer n hr
  | .float x, d, r, ts, hr, h => h.float x hr
  | .string s, d, r, ts, hr, h => h.string s
  | .array [], d, r, ts, hr, h => by
    have hclose : Scans round (']' :: r) (.closeBracket :: ts) := h.sign rfl fun _ => rfl
    exact hclose.sign rfl fun _ => rfl
  | .array (x :: xs), d, r, ts, hr, h => by
    have hclose : Scans round (']' :: r) (.closeBracket :: ts) := h.sign rfl fun _ => rfl
    have hend : EndsNumber (sp.line d ++ ']' :: r) :=
      endsNumber_blanks (hsp.line d) (endsNumber_cons (by decide) r)
    have hxs := scans_writeElements xs (d + 1) hend (hclose.blanks (hsp.line d))
    have hx := scans_writeValue x (d + 1) (endsNumber_writeElements xs (d + 1) hend) hxs
    have hopen := (hx.blanks (hsp.line (d + 1))).sign (c := '[') rfl fun _ => rfl
    simpa only [writeValue, tokensOf, List.cons_append, List.append_assoc, List.nil_append]
      using hopen
  | .object [], d, r, ts, hr, h => by
    have hclose : Scans round ('\x7d' :: r) (.closeBrace :: ts) := h.sign rfl fun _ => rfl
    exact hclose.sign rfl fun _ => rfl
  | .object ((k, x) :: ms), d, r, ts, hr, h => by
    have hclose : Scans round ('\x7d' :: r) (.closeBrace :: ts) := h.sign rfl fun _ => rfl
    have hend : EndsNumber (sp.line d ++ '\x7d' :: r) :=
      endsNumber_blanks (hsp.line d) (endsNumber_cons (by decide) r)
    have hms := scans_writeMembers ms (d + 1) hend (hclose.blanks (hsp.line d))
    have hx := scans_writeValue x (d + 1) (endsNumber_writeMembers ms (d + 1) hend) hms
    have hkey := (hx.colon hsp).string k
    have hopen := (hkey.blanks (hsp.line (d + 1))).sign (c := '\x7b') rfl fun _ => rfl
    simpa only [writeValue, tokensOf, List.cons_append, List.append_assoc, List.nil_append]
      using hopen

theorem scans_writeElements : ∀ (xs : List Json) (d : Nat) {r : List Char} {ts : List Token},
    EndsNumber r → Scans round r ts →
      Scans round (writeElements sp d xs ++ r) (elementTokens round xs ++ ts)
  | [], d, r, ts, hr, h => h
  | x :: xs, d, r, ts, hr, h => by
    have hxs := scans_writeElements xs d hr h
    have hx := scans_writeValue x d (endsNumber_writeElements xs d hr) hxs
    have hcomma := (hx.blanks (hsp.line d)).sign (c := ',') rfl fun _ => rfl
    simpa only [writeElements, elementTokens, List.cons_append, List.append_assoc] using hcomma

theorem scans_writeMembers : ∀ (ms : List (JsonString × Json)) (d : Nat) {r : List Char}
    {ts : List Token}, EndsNumber r → Scans round r ts →
      Scans round (writeMembers sp d ms ++ r) (memberTokens round ms ++ ts)
  | [], d, r, ts, hr, h => h
  | (k, x) :: ms, d, r, ts, hr, h => by
    have hms := scans_writeMembers ms d hr h
    have hx := scans_writeValue x d (endsNumber_writeMembers ms d hr) hms
    have hkey := (hx.colon hsp).string k
    have hcomma := (hkey.blanks (hsp.line d)).sign (c := ',') rfl fun _ => rfl
    simpa only [writeMembers, memberTokens, List.cons_append, List.append_assoc] using hcomma

end

/-- **Reading what was written gives the value again**, with its numbers as the reader takes them.
Blanks may follow it. -/
theorem readWith_write_append (j : Json) {b : String} (hb : AreBlanks b.toList) :
    readWith round (j.write sp ++ b) = some (j.reread round) := by
  have hend : EndsNumber b.toList := by simpa using endsNumber_blanks hb endsNumber_nil
  have hblanks : Scans round b.toList [] := by simpa using (scans_nil round).blanks hb
  have h : Scans round (writeValue sp 0 j ++ b.toList) (tokensOf round j) := by
    simpa using scans_writeValue hsp j 0 hend hblanks
  have hscan := h _ [] (Nat.lt_succ_self _)
  rw [readWith, write, String.toList_append, String.toList_ofList, Token.scan, hscan]
  exact ofTokens_tokensOf round j

theorem readWith_write (j : Json) : readWith round (j.write sp) = some (j.reread round) := by
  have h : readWith round (j.write sp ++ "") = some (j.reread round) :=
    readWith_write_append hsp j (by simp [AreBlanks])
  rwa [String.append_empty] at h

end TierBudget.Json
