import SettlementOS.Model.Units
import SettlementOS.Results.Amounts

/-!
# Amounts as text

What the strict parser accepts and answers, that it reads back what the formats write, and that
the lenient parser, which what is moved goes through, never has anything to truncate.
-/

set_option autoImplicit false

namespace SettlementOS.Results

open SettlementOS.Computation Service Model Program Analysis

/-! ## Statement -/

/-- The strict parser and the formats as a codec. -/
structure DecimalCodec : Prop where
  parses : ∀ (amount what : String) (message : Option String) (d units : ℕ),
    parseScaledUnits amount d what message = .ok units ↔
      ∃ x, ReadsAt amount d x ∧ (units : ℚ) = x.value * 10 ^ d
  amounts : ∀ (amount currency : String) (units : ℕ),
    parseAmount amount currency = .ok units ↔
      ∃ d x, currencyDecimals currency = .ok d ∧ ReadsAt amount d x ∧
        (units : ℚ) = x.value * 10 ^ d ∧ 0 < units
  reads : ∀ (what : String) (message : Option String) (d units : ℕ),
    units < 10 ^ (maxIntegerDigits + d) →
      parseScaledUnits (formatScaledUnits units d) d what message = .ok units
  accepts : ∀ amount currency : String,
    (∃ canonical, canonicalAmount amount currency = .ok canonical) ↔
      ∃ units, parseAmount amount currency = .ok units
  idempotent : ∀ amount currency canonical : String,
    canonicalAmount amount currency = .ok canonical →
      canonicalAmount canonical currency = .ok canonical
  preserves : ∀ amount currency canonical : String,
    canonicalAmount amount currency = .ok canonical →
      ∃ x y, Writes amount x ∧ Writes canonical y ∧ y.value = x.value
  unique : ∀ (amount amount' currency canonical canonical' : String) (x x' : Decimal),
    canonicalAmount amount currency = .ok canonical →
      canonicalAmount amount' currency = .ok canonical' → Writes amount x → Writes amount' x' →
        x.value = x'.value → canonical = canonical'

/-- The token a payment is escrowed in. -/
def SourceToken (env : Env) (new : NewPayment) (token : Token) : Prop :=
  ∃ asset net, assetForCurrency new.sourceCurrency = .ok asset ∧
    env.contracts new.sourceNetwork = .ok net ∧ net.tokens asset.symbol = some token

/-- The lenient parser against the strict one, and what is escrowed. -/
structure ParsersAgree : Prop where
  agree : ∀ (amount what : String) (message : Option String) (d units : ℕ),
    parseScaledUnits amount d what message = .ok units → toBaseUnits amount d = .ok units
  lossless : ∀ (amount currency canonical : String) (minorUnits cd td : ℕ),
    parseAmount amount currency = .ok minorUnits →
      canonicalAmount amount currency = .ok canonical → currencyDecimals currency = .ok cd →
        cd ≤ td → toBaseUnits canonical td = .ok (minorUnits * 10 ^ (td - cd))
  escrowed : ∀ (env : Env) (new : NewPayment) (c : Config env) (minorUnits cd : ℕ),
    Reachable env new c → parseAmount new.amount new.sourceCurrency = .ok minorUnits →
      currencyDecimals new.sourceCurrency = .ok cd → ∀ tx ∈ c.world.state.txs,
        ∀ id sender recipient asset units source destination,
          tx.call = .initiatePayment id sender recipient asset units source destination →
            ∃ token, SourceToken env new token ∧ asset = token.address ∧
              (cd ≤ token.decimals → units = minorUnits * 10 ^ (token.decimals - cd))
  roundTrip : ∀ units d : ℕ, toBaseUnits (fromBaseUnits units d) d = .ok units

/-! ## Proof -/

variable {amount what currency : String} {message : Option String} {d units : ℕ} {x : Decimal}

/-- Reading is exact. -/
theorem exact_iff (h : ReadsAt amount d x) :
    units = x.scaled d ↔ (units : ℚ) = x.value * 10 ^ d := by
  rw [← Decimal.scaled_eq h.frac]
  norm_cast

/-- Exactly the amounts that are accepted have a canonical form. -/
theorem canonicalAmount_accepts :
    (∃ canonical, canonicalAmount amount currency = .ok canonical) ↔
      ∃ units, parseAmount amount currency = .ok units := by
  constructor
  · rintro ⟨canonical, h⟩
    obtain ⟨d, x, hd, hx, hpos, -⟩ := canonicalAmount_eq_ok.mp h
    exact ⟨_, parseAmount_eq_ok.mpr ⟨d, x, hd, hx, rfl, hpos⟩⟩
  · rintro ⟨units, h⟩
    obtain ⟨d, x, hd, hx, rfl, hpos⟩ := parseAmount_eq_ok.mp h
    exact ⟨_, canonicalAmount_eq_ok.mpr ⟨d, x, hd, hx, hpos, rfl⟩⟩

/-- The canonical form is its own canonical form. -/
theorem canonicalAmount_idempotent {canonical : String}
    (h : canonicalAmount amount currency = .ok canonical) :
    canonicalAmount canonical currency = .ok canonical := by
  obtain ⟨d, x, hd, hx, hpos, rfl⟩ := canonicalAmount_eq_ok.mp h
  have hreads := formatScaledUnits_readsAt (Decimal.scaled_lt hx.whole hx.frac)
  refine canonicalAmount_eq_ok.mpr ⟨d, _, hd, hreads, ?_, ?_⟩ <;> rw [Decimal.scaled_fixed]
  exact hpos

/-- The canonical form writes the same number. -/
theorem canonicalAmount_value {canonical : String}
    (h : canonicalAmount amount currency = .ok canonical) :
    ∃ x y, Writes amount x ∧ Writes canonical y ∧ y.value = x.value := by
  obtain ⟨d, x, hd, hx, hpos, rfl⟩ := canonicalAmount_eq_ok.mp h
  refine ⟨x, _, hx.writes, formatScaledUnits_writes _ d, ?_⟩
  have hscale : (10 : ℚ) ^ d ≠ 0 := pow_ne_zero d (by norm_num)
  apply mul_right_cancel₀ hscale
  rw [← Decimal.scaled_eq hx.frac,
    ← Decimal.scaled_eq (Nat.le_of_eq (Decimal.length_frac_fixed _ d)),
    Decimal.scaled_fixed]

/-- **The codec of amounts.** -/
theorem decimal_codec : DecimalCodec where
  parses amount what message d units := by
    rw [parse_eq_ok]
    exact exists_congr fun x => and_congr_right exact_iff
  amounts amount currency units := by
    rw [parseAmount_eq_ok]
    refine exists_congr fun d => exists_congr fun x => and_congr_right fun _ => ?_
    exact and_congr_right fun hx => and_congr_left' (exact_iff hx)
  reads what message d units h :=
    parse_eq_ok.mpr ⟨_, formatScaledUnits_readsAt h, (Decimal.scaled_fixed units d).symm⟩
  accepts _ _ := canonicalAmount_accepts
  idempotent _ _ _ := canonicalAmount_idempotent
  preserves _ _ _ := canonicalAmount_value
  unique amount amount' currency canonical canonical' x x' h h' hx hx' hvalue := by
    obtain ⟨d, y, hd, hy, -, rfl⟩ := canonicalAmount_eq_ok.mp h
    obtain ⟨d', y', hd', hy', -, rfl⟩ := canonicalAmount_eq_ok.mp h'
    obtain rfl : x = y := hx.unique hy.writes
    obtain rfl : x' = y' := hx'.unique hy'.writes
    obtain rfl : d = d' := Except.ok.inj (hd.symm.trans hd')
    have hscaled : (x.scaled d : ℚ) = x'.scaled d := by
      rw [Decimal.scaled_eq hy.frac, Decimal.scaled_eq hy'.frac, hvalue]
    rw [Nat.cast_injective hscaled]

example : canonicalAmount "007.5" "USD" = .ok "7.50" := by decide +kernel

/-- What is accepted as an amount is read exactly at every scale that is no coarser. -/
theorem toBaseUnits_of_amount {minorUnits cd td : ℕ}
    (h : parseAmount amount currency = .ok minorUnits) (hcd : currencyDecimals currency = .ok cd)
    (hle : cd ≤ td) : toBaseUnits amount td = .ok (minorUnits * 10 ^ (td - cd)) := by
  obtain ⟨d, x, hd, hx, rfl, -⟩ := parseAmount_eq_ok.mp h
  obtain rfl : cd = d := Except.ok.inj (hcd.symm.trans hd)
  rw [toBaseUnits_of_writes hx.writes (Nat.le_trans hx.frac hle), ← Decimal.scaled_add hx.frac,
    Nat.add_sub_cancel' hle]

/-- What is written from base units reads back as the same units. -/
theorem toBaseUnits_fromBaseUnits (units d : ℕ) :
    toBaseUnits (fromBaseUnits units d) d = .ok units := by
  have hfrac : (Decimal.fixed units d).frac.length ≤ d :=
    Nat.le_of_eq (Decimal.length_frac_fixed units d)
  have hlen := Nat.le_trans (Decimal.length_frac_short_le (.fixed units d)) hfrac
  rw [toBaseUnits_of_writes (fromBaseUnits_writes units d) hlen, Decimal.scaled_short hfrac,
    Decimal.scaled_fixed]

/-- What is escrowed is the amount of the payment, in units of its token. -/
theorem Reachable.escrowedUnits {env : Env} {new : NewPayment} {c : Config env}
    (h : Reachable env new c) {minorUnits cd : ℕ}
    (hparse : parseAmount new.amount new.sourceCurrency = .ok minorUnits)
    (hcd : currencyDecimals new.sourceCurrency = .ok cd) {tx : Tx}
    (htx : tx ∈ c.world.state.txs) {id sender recipient asset source destination : String}
    {units : ℕ}
    (hcall : tx.call = .initiatePayment id sender recipient asset units source destination) :
    ∃ token, SourceToken env new token ∧ asset = token.address ∧
      (cd ≤ token.decimals → units = minorUnits * 10 ^ (token.decimals - cd)) := by
  have hdue := h.movesDue htx
  rw [hcall] at hdue
  obtain ⟨assetInfo, net, token, w, hasset, hnet, htoken, -, haddress, -, hunits⟩ := hdue.terms
  have hidentity : identity c.world.state.payment = identity new.row :=
    (Reachable.evolves (Config.Reaches.refl _) h).identity
  simp only [identity, NewPayment.row, Prod.mk.injEq] at hidentity
  obtain ⟨-, -, hamount, hcurrency, -, hnetwork⟩ := hidentity
  rw [hcurrency] at hasset
  rw [hnetwork] at hnet
  rw [hamount] at hunits
  refine ⟨token, ⟨assetInfo, net, hasset, hnet, htoken⟩, haddress, fun hle => ?_⟩
  rw [toBaseUnits_of_amount hparse hcd hle] at hunits
  exact (Except.ok.inj hunits).symm

/-- **Nothing is truncated.** -/
theorem parsers_agree : ParsersAgree where
  agree _ _ _ _ _ := toBaseUnits_of_parse
  lossless _ _ _ _ _ _ h hcanonical hcd :=
    toBaseUnits_of_amount (parseAmount_canonical h hcanonical) hcd
  escrowed _ _ _ _ _ h hparse hcd _ htx _ _ _ _ _ _ _ := h.escrowedUnits hparse hcd htx
  roundTrip := toBaseUnits_fromBaseUnits

end SettlementOS.Results
