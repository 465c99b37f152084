import SettlementOS.Computation.Decimal
import SettlementOS.Model.Money

/-!
# Exact units

`parseScaledUnits` reads the decimals of at most fifteen digits before the point that its scale
has room for, and answers exactly what is written. `toBaseUnits` truncates: where nothing is left
to truncate the two agree. `formatScaledUnits` and `fromBaseUnits` write what they read.
-/

set_option autoImplicit false

namespace SettlementOS.Model

open SettlementOS.Computation

/-- The units are the amount a decimal string writes, with nothing rounded. -/
def ExactUnits (amount : String) (decimals units : ℕ) : Prop :=
  ∃ whole frac : List Char,
    amount.toList = (if frac.isEmpty then whole else whole ++ '.' :: frac) ∧
      (∀ c ∈ whole ++ frac, c.isDigit = true) ∧ frac.length ≤ decimals ∧
      units * 10 ^ frac.length = digitsValue (whole ++ frac) * 10 ^ decimals

/-- The string writes the decimal. -/
def Writes (amount : String) (x : Decimal) : Prop := amount.toList = x.chars

/-- The string writes a decimal that is read at a scale: at most fifteen digits before the point,
and no more behind it than the scale has. -/
structure ReadsAt (amount : String) (decimals : ℕ) (x : Decimal) : Prop where
  writes : Writes amount x
  whole : x.whole.length ≤ maxIntegerDigits
  frac : x.frac.length ≤ decimals

variable {amount what currency : String} {decimals units : ℕ} {message : Option String}
  {x : Decimal}

/-- An amount is written by one decimal alone. -/
theorem Writes.unique {y : Decimal} (h : Writes amount x) (h' : Writes amount y) : x = y :=
  Decimal.ext_chars (h.symm.trans h')

/-! ## The grammar -/

/-- A decimal is canonical. -/
theorem canonicalDecimal_chars (x : Decimal) : canonicalDecimal x.chars = true := by
  have hwhole : ∀ c ∈ x.whole, c.isDigit = true := fun c hc =>
    x.digits c (List.mem_append_left _ hc)
  have hfrac : ∀ c ∈ x.frac, c.isDigit = true := fun c hc =>
    x.digits c (List.mem_append_right _ hc)
  have hnonempty : x.whole.isEmpty = false := List.isEmpty_eq_false_iff.mpr x.nonempty
  unfold canonicalDecimal Decimal.chars
  by_cases hempty : x.frac.isEmpty
  · rw [if_pos hempty, List.takeWhile_eq_self_iff.mpr hwhole,
      List.dropWhile_eq_nil_iff.mpr hwhole, hnonempty]
    rfl
  · have hpoint : ¬('.'.isDigit = true) := by decide
    rw [if_neg hempty, List.takeWhile_append_of_pos hwhole, List.takeWhile_cons_of_neg hpoint,
      List.dropWhile_append_of_pos hwhole, List.dropWhile_cons_of_neg hpoint, List.append_nil,
      hnonempty]
    simp [List.all_eq_true.mpr hfrac, hempty]

/-- A canonical string is a decimal. -/
theorem exists_writes (h : canonicalDecimal amount.toList = true) : ∃ x, Writes amount x := by
  have hparts := List.takeWhile_append_dropWhile (p := Char.isDigit) (l := amount.toList)
  have hwhole : ∀ c ∈ amount.toList.takeWhile Char.isDigit, c.isDigit = true :=
    fun c hc => List.mem_takeWhile_imp hc
  simp only [canonicalDecimal, Bool.and_eq_true, Bool.not_eq_true', List.isEmpty_eq_false_iff]
    at h
  obtain ⟨hnonempty, h⟩ := h
  cases hd : amount.toList.dropWhile Char.isDigit with
  | nil =>
    rw [hd, List.append_nil] at hparts
    exact ⟨⟨_, [], by simpa using hwhole, hnonempty⟩, hparts.symm⟩
  | cons point frac =>
    simp only [hd, Bool.and_eq_true, beq_iff_eq, Bool.not_eq_true', List.all_eq_true] at h
    obtain ⟨⟨rfl, hne⟩, hfrac⟩ := h
    have hdigits : ∀ c ∈ amount.toList.takeWhile Char.isDigit ++ frac, c.isDigit = true :=
      fun c hc => (List.mem_append.mp hc).elim (hwhole c) (hfrac c)
    refine ⟨⟨_, frac, hdigits, hnonempty⟩, ?_⟩
    unfold Writes Decimal.chars
    rw [hne, if_neg Bool.false_ne_true, ← hd, hparts]

/-- The two parts of a decimal. -/
theorem splitPoint_chars (x : Decimal) : splitPoint x.chars = (x.whole, x.frac) := by
  unfold splitPoint
  rw [x.takeWhile_chars, x.drop_dropWhile_chars, List.takeWhile_eq_self_iff.mpr x.frac_ne_point]

/-! ## The strict parser -/

/-- What the strict parser accepts, and what it answers. -/
theorem parse_eq_ok : parseScaledUnits amount decimals what message = .ok units ↔
    ∃ x, ReadsAt amount decimals x ∧ units = x.scaled decimals := by
  constructor
  · intro h
    unfold parseScaledUnits at h
    by_cases hc : canonicalDecimal amount.toList = true
    · obtain ⟨x, hx⟩ := exists_writes hc
      rw [if_neg (by simp [hc]), hx, splitPoint_chars] at h
      by_cases hlong : maxIntegerDigits < x.whole.length
      · rw [if_pos hlong] at h
        cases h
      · rw [if_neg hlong] at h
        by_cases hexcess : decimals < x.frac.length
        · rw [if_pos hexcess] at h
          cases h
        · rw [if_neg hexcess] at h
          cases h
          exact ⟨x, ⟨hx, Nat.le_of_not_lt hlong, Nat.le_of_not_lt hexcess⟩, rfl⟩
    · rw [if_pos (by simp [hc])] at h
      cases h
  · rintro ⟨x, ⟨hx, hlong, hexcess⟩, rfl⟩
    unfold parseScaledUnits
    rw [hx, canonicalDecimal_chars, splitPoint_chars, if_neg (by decide),
      if_neg (Nat.not_lt.mpr hlong), if_neg (Nat.not_lt.mpr hexcess)]
    rfl

/-- What is accepted as an amount. -/
theorem parseAmount_eq_ok : parseAmount amount currency = .ok units ↔
    ∃ decimals x, currencyDecimals currency = .ok decimals ∧ ReadsAt amount decimals x ∧
      units = x.scaled decimals ∧ 0 < units := by
  unfold parseAmount
  cases hd : currencyDecimals currency with
  | error e => simp [bind, Except.bind]
  | ok decimals =>
    simp only [bind, Except.bind]
    constructor
    · intro h
      split at h
      · cases h
      · rename_i n hparse
        obtain ⟨x, hx, hn⟩ := parse_eq_ok.mp hparse
        by_cases hzero : n = 0
        · rw [if_pos hzero] at h
          cases h
        · rw [if_neg hzero] at h
          cases h
          exact ⟨decimals, x, rfl, hx, hn, Nat.pos_of_ne_zero hzero⟩
    · rintro ⟨_, x, hsame, hx, hunits, hpos⟩
      cases hsame
      rw [parse_eq_ok.mpr ⟨x, hx, hunits⟩]
      dsimp only
      rw [if_neg (Nat.ne_of_gt hpos)]
      rfl

/-- What the strict parser accepts is exact. -/
theorem exactUnits_of_parse
    (h : parseScaledUnits amount decimals what message = .ok units) :
    ExactUnits amount decimals units := by
  obtain ⟨x, hx, rfl⟩ := parse_eq_ok.mp h
  exact ⟨x.whole, x.frac, hx.writes, x.digits, hx.frac, Decimal.scaled_mul_pow hx.frac⟩

/-! ## The lenient parser -/

/-- Nothing is trimmed off a decimal. -/
theorem trim_chars (x : Decimal) : trim x.chars = x.chars := by
  have hblank : ∀ c ∈ x.chars, ¬(c.isWhitespace = true) := by
    intro c hc hw
    rcases mem_canonicalDecimal (canonicalDecimal_chars x) hc with hd | rfl
    · simp only [Char.isWhitespace, Bool.or_eq_true, decide_eq_true_eq] at hw
      rcases hw with ((rfl | rfl) | rfl) | rfl <;> cases hd
    · cases hw
  have hself : ∀ l : List Char, (∀ c ∈ l, ¬(c.isWhitespace = true)) →
      l.dropWhile Char.isWhitespace = l := by
    intro l hl
    cases l with
    | nil => rfl
    | cons c l => exact List.dropWhile_cons_of_neg (hl c List.mem_cons_self)
  unfold trim
  rw [hself _ hblank, hself _ fun c hc => hblank c (List.mem_reverse.mp hc), List.reverse_reverse]

/-- Where the scale has room for the decimal, nothing of it is truncated. -/
theorem toBaseUnits_of_writes (hx : Writes amount x) (hlen : x.frac.length ≤ decimals) :
    toBaseUnits amount decimals = .ok (x.scaled decimals) := by
  have hpad : (x.frac ++ List.replicate decimals '0').take decimals =
      x.frac ++ List.replicate (decimals - x.frac.length) '0' := by
    rw [List.take_append, List.take_of_length_le hlen, List.take_replicate,
      Nat.min_eq_left (Nat.sub_le _ _)]
  have hwhole : bigInt x.whole = .ok (digitsValue x.whole) :=
    bigInt_ok fun c hc => x.digits c (List.mem_append_left _ hc)
  have hfrac : bigInt (x.frac ++ List.replicate (decimals - x.frac.length) '0') =
      .ok (digitsValue (x.frac ++ List.replicate (decimals - x.frac.length) '0')) := by
    apply bigInt_ok
    intro c hc
    rcases List.mem_append.mp hc with hc | hc
    · exact x.digits c (List.mem_append_right _ hc)
    · rw [List.eq_of_mem_replicate hc]
      rfl
  unfold toBaseUnits
  rw [hx, trim_chars, splitPoint_chars]
  simp only [hpad, hwhole, hfrac, bind, Except.bind]
  rfl

/-- The two parsers agree on what the strict one accepts. -/
theorem toBaseUnits_of_parse
    (h : parseScaledUnits amount decimals what message = .ok units) :
    toBaseUnits amount decimals = .ok units := by
  obtain ⟨x, hx, rfl⟩ := parse_eq_ok.mp h
  exact toBaseUnits_of_writes hx.writes hx.frac

/-! ## Formats -/

/-- The digits of a number are its decimal digits. -/
theorem digitsOf_eq (n : ℕ) : digitsOf n = Nat.toDigits 10 n := by
  rw [digitsOf, Nat.toString_eq_repr, Nat.toList_repr]

/-- The text of a number writes the number. -/
theorem toString_writes (n : ℕ) : Writes (toString n) (.fixed n 0) := by
  unfold Writes
  rw [Nat.toString_eq_repr, Nat.toList_repr, Decimal.chars_fixed_zero]

/-- The fixed form has all the digits behind the point. -/
theorem formatScaledUnits_writes (units decimals : ℕ) :
    Writes (formatScaledUnits units decimals) (.fixed units decimals) := by
  unfold formatScaledUnits
  by_cases hd : decimals = 0
  · subst hd
    exact toString_writes units
  · unfold Writes
    rw [if_neg hd, digitsOf_eq, Decimal.chars_of_ne_nil (Decimal.frac_fixed_ne_nil hd)]
    simp [Decimal.fixed, Decimal.padded]

/-- The base units are written without the last zeros. -/
theorem fromBaseUnits_writes (units decimals : ℕ) :
    Writes (fromBaseUnits units decimals) (Decimal.fixed units decimals).short := by
  unfold fromBaseUnits
  by_cases hd : decimals = 0
  · subst hd
    have hfrac : (Decimal.fixed units 0).frac = [] :=
      List.eq_nil_of_length_eq_zero (Decimal.length_frac_fixed units 0)
    rw [Decimal.short_of_nil hfrac]
    exact toString_writes units
  · unfold Writes Decimal.chars
    rw [if_neg hd, digitsOf_eq]
    by_cases hempty : (Decimal.fixed units decimals).short.frac.isEmpty = true
    · rw [if_pos hempty]
      simp only [Decimal.short, Decimal.fixed, Decimal.padded] at hempty ⊢
      rw [if_pos hempty]
      exact String.toList_ofList
    · rw [if_neg hempty]
      simp only [Decimal.short, Decimal.fixed, Decimal.padded] at hempty ⊢
      rw [if_neg hempty]
      simp

/-- The fixed form of what the integer digits have room for is read back. -/
theorem formatScaledUnits_readsAt (h : units < 10 ^ (maxIntegerDigits + decimals)) :
    ReadsAt (formatScaledUnits units decimals) decimals (.fixed units decimals) where
  writes := formatScaledUnits_writes units decimals
  whole := (Decimal.length_whole_fixed_le_iff (by decide)).mpr h
  frac := Nat.le_of_eq (Decimal.length_frac_fixed units decimals)

/-- What the canonical form of an amount is. -/
theorem canonicalAmount_eq_ok {canonical : String} :
    canonicalAmount amount currency = .ok canonical ↔
      ∃ decimals x, currencyDecimals currency = .ok decimals ∧ ReadsAt amount decimals x ∧
        0 < x.scaled decimals ∧ canonical = formatScaledUnits (x.scaled decimals) decimals := by
  unfold canonicalAmount formatMinorUnits
  constructor
  · intro h
    cases hparse : parseAmount amount currency with
    | error e =>
      rw [hparse] at h
      cases h
    | ok units =>
      obtain ⟨decimals, x, hd, hx, rfl, hpos⟩ := parseAmount_eq_ok.mp hparse
      rw [hparse, hd] at h
      cases h
      exact ⟨decimals, x, hd, hx, hpos, rfl⟩
  · rintro ⟨decimals, x, hd, hx, hpos, rfl⟩
    rw [parseAmount_eq_ok.mpr ⟨decimals, x, hd, hx, rfl, hpos⟩, hd]
    rfl

/-- The canonical form is accepted as the same amount. -/
theorem parseAmount_canonical {canonical : String} {minorUnits : ℕ}
    (h : parseAmount amount currency = .ok minorUnits)
    (hcanonical : canonicalAmount amount currency = .ok canonical) :
    parseAmount canonical currency = .ok minorUnits := by
  obtain ⟨d, x, hd, hx, rfl, hpos⟩ := parseAmount_eq_ok.mp h
  obtain ⟨d', y, hd', hy, -, rfl⟩ := canonicalAmount_eq_ok.mp hcanonical
  obtain rfl : x = y := hx.writes.unique hy.writes
  obtain rfl : d = d' := Except.ok.inj (hd.symm.trans hd')
  exact parseAmount_eq_ok.mpr ⟨d, _, hd,
    formatScaledUnits_readsAt (Decimal.scaled_lt hx.whole hx.frac),
    (Decimal.scaled_fixed _ d).symm, hpos⟩

/-- An accepted amount is positive, and has at most fifteen digits before the point. -/
theorem parseAmount_bounds (h : parseAmount amount currency = .ok units)
    (hd : currencyDecimals currency = .ok decimals) :
    0 < units ∧ units < 10 ^ (maxIntegerDigits + decimals) := by
  obtain ⟨d, x, hd', hx, rfl, hpos⟩ := parseAmount_eq_ok.mp h
  obtain rfl : decimals = d := Except.ok.inj (hd.symm.trans hd')
  exact ⟨hpos, Decimal.scaled_lt hx.whole hx.frac⟩

end SettlementOS.Model
