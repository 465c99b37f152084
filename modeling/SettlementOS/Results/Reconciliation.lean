import SettlementOS.Model.Reconciliation

/-!
# Whether the export can be read back

A field with a comma, a quote or a line feed is quoted, and read back whatever else it has. A
carriage return alone is not quoted, though it ends a record.
-/

set_option autoImplicit false

namespace SettlementOS.Results

open SettlementOS.Computation Csv Model.Reconciliation

/-! ## Fields -/

/-- A carriage return that is left to stand outside quotes. -/
def BareReturn (s : Text) : Prop := '\r' ∈ s ∧ ∀ c ∈ s, c ≠ '"' ∧ c ≠ ',' ∧ c ≠ '\n'

/-- A field without quotes, commas and line feeds is written as it stands. -/
theorem esc_plain {s : Text} (h : ∀ c ∈ s, c ≠ '"' ∧ c ≠ ',' ∧ c ≠ '\n') : esc s = s := by
  have hnone : ¬ (s.any fun c => c = '"' || c = ',' || c = '\n') = true := by
    intro hany
    obtain ⟨c, hc, hspecial⟩ := List.any_eq_true.mp hany
    have hcs := h c hc
    simp [hcs.1, hcs.2.1, hcs.2.2] at hspecial
  exact if_neg hnone

/-- Any other field is quoted, with its quotes doubled. -/
theorem esc_quoted {s : Text} (h : ¬ ∀ c ∈ s, c ≠ '"' ∧ c ≠ ',' ∧ c ≠ '\n') :
    esc s = '"' :: (doubled s ++ ['"']) := by
  have hany : (s.any fun c => c = '"' || c = ',' || c = '\n') = true := by
    by_contra hnone
    refine h fun c hc => ?_
    have hspecial : ¬ (decide (c = '"') || decide (c = ',') || decide (c = '\n')) = true :=
      fun hspecial => hnone (List.any_eq_true.mpr ⟨c, hc, hspecial⟩)
    simp only [Bool.or_eq_true, decide_eq_true_eq, not_or] at hspecial
    exact ⟨hspecial.1.1, hspecial.1.2, hspecial.2⟩
  exact if_pos hany

/-- A field without a bare return is read as it was. -/
theorem readsAs_esc {s : Text} (h : ¬ BareReturn s) : ReadsAs (esc s) s := by
  by_cases hplain : ∀ c ∈ s, c ≠ '"' ∧ c ≠ ',' ∧ c ≠ '\n'
  · rw [esc_plain hplain]
    refine readsAs_plain fun c hc => ?_
    obtain ⟨hquote, hcomma, hline⟩ := hplain c hc
    refine ⟨hcomma, hline, ?_, hquote⟩
    rintro rfl
    exact h ⟨hc, hplain⟩
  · rw [esc_quoted hplain]
    exact readsAs_quoted s

/-- A field with a bare return is broken in two. -/
theorem broken_esc {s : Text} (h : BareReturn s) : Broken (esc s) s := by
  obtain ⟨u, v, hs, hu⟩ := List.eq_append_cons_of_mem h.1
  refine ⟨u, v, (esc_plain h.2).trans hs, fun c hc => ?_, fun heq => ?_⟩
  · have hcs : c ∈ s := by
      rw [hs]
      exact List.mem_append_left _ hc
    obtain ⟨hquote, hcomma, hline⟩ := h.2 c hcs
    refine ⟨hcomma, hline, ?_, hquote⟩
    rintro rfl
    exact hu hc
  · have hlength := congrArg List.length (heq.trans hs)
    simp at hlength

/-! ## The export -/

/-- The export is a table with a header. -/
theorem reconciliationCsv_eq (rt : Rendering) (payments : List ExportedPayment) :
    reconciliationCsv rt payments = tableText esc (header :: payments.map (fields rt)) := by
  have hheader : header.map esc = header := by decide
  rw [reconciliationCsv, tableText, List.map_cons, recordText, hheader, List.map_map]
  rfl

/-- The fields of a payment are its texts, its date and the sum of its credits. -/
theorem mem_fields_iff (rt : Rendering) (p : ExportedPayment) (f : Text) : f ∈ fields rt p ↔
    f ∈ textColumns p ∨ f = (rt.toISOString p.createdAt).toList ∨
      f = (rt.creditSum p.ledgerCredits).toList := by
  have hfields : fields rt p = (textColumns p).take 2 ++ (rt.toISOString p.createdAt).toList ::
      ((textColumns p).drop 2 ++ [(rt.creditSum p.ledgerCredits).toList]) := rfl
  have htexts : f ∈ textColumns p ↔ f ∈ (textColumns p).take 2 ∨ f ∈ (textColumns p).drop 2 := by
    rw [← List.mem_append, List.take_append_drop]
  rw [hfields, htexts, List.mem_append, List.mem_cons, List.mem_append, List.mem_singleton]
  constructor
  · rintro (h | h | h | h)
    · exact .inl (.inl h)
    · exact .inr (.inl h)
    · exact .inl (.inr h)
    · exact .inr (.inr h)
  · rintro ((h | h) | h | h)
    · exact .inl h
    · exact .inr (.inr (.inl h))
    · exact .inr (.inl h)
    · exact .inr (.inr (.inr h))

/-- For every list of payments, a standard reader reads the export back, the header and a record of
the computed fields for each payment, if and only if every text of a payment that has a carriage
return also has a comma, a quote or a line feed. -/
theorem read_reconciliationCsv_iff (rt : Rendering) (payments : List ExportedPayment) :
    Csv.read (reconciliationCsv rt payments) = header :: payments.map (fields rt) ↔
      ∀ p ∈ payments, ∀ s ∈ textColumns p, '\r' ∈ s → ∃ c ∈ s, c = '"' ∨ c = ',' ∨ c = '\n' := by
  have hrows : ∀ row ∈ header :: payments.map (fields rt), 2 ≤ row.length := by
    intro row hrow
    rcases List.mem_cons.mp hrow with rfl | hrow
    · decide
    · obtain ⟨p, -, rfl⟩ := List.mem_map.mp hrow
      exact Nat.le_add_left 2 17
  rw [reconciliationCsv_eq, read_tableText_iff (List.cons_ne_nil _ _) hrows
    (fun _ _ _ _ => readsAs_esc) fun _ _ _ _ => broken_esc]
  constructor
  · intro hall p hp s hs hreturn
    by_contra hnone
    have hrow : fields rt p ∈ header :: payments.map (fields rt) :=
      List.mem_cons_of_mem _ (List.mem_map_of_mem hp)
    refine hall _ hrow s ((mem_fields_iff rt p s).mpr (.inl hs)) ⟨hreturn, fun c hc => ?_⟩
    have hspecial : ¬ (c = '"' ∨ c = ',' ∨ c = '\n') := fun hspecial => hnone ⟨c, hc, hspecial⟩
    simpa only [not_or] using hspecial
  · rintro hcolumns row hrow f hf ⟨hreturn, hplain⟩
    rcases List.mem_cons.mp hrow with rfl | hrow
    · have hheader : ∀ name ∈ header, '\r' ∉ name := by decide
      exact hheader f hf hreturn
    · obtain ⟨p, hp, rfl⟩ := List.mem_map.mp hrow
      rcases (mem_fields_iff rt p f).mp hf with hs | rfl | rfl
      · obtain ⟨c, hc, hspecial⟩ := hcolumns p hp f hs hreturn
        obtain ⟨hquote, hcomma, hline⟩ := hplain c hc
        rcases hspecial with rfl | rfl | rfl
        · exact hquote rfl
        · exact hcomma rfl
        · exact hline rfl
      · exact rt.date_plain p.createdAt hreturn
      · exact rt.credit_plain p.ledgerCredits hreturn

/-! ## A carriage return in a reference -/

/-- What the runtime writes of the first millisecond, and of no credits. -/
def plainRendering : Rendering where
  toISOString _ := "1970-01-01T00:00:00.000Z"
  creditSum _ := ""
  date_plain _ := by decide
  credit_plain _ := by decide

/-- A draft whose reference the client made of two lines, by the old Macintosh's line break. -/
def twoLineReference : ExportedPayment where
  id := "pay_1"
  referenceId := "INV-7\rdeposit"
  createdAt := 0
  status := "DRAFT"
  senderName := "Acme, Inc."
  recipientName := "Say \"Ja\""
  sourceCurrency := "USD"
  destinationCurrency := "JPY"
  amount := "100.00"
  sourceAsset := "mockUSDC"
  sourceNetwork := "base-local"
  destinationNetwork := "base-local"

/-- The record of the payment is split in two. -/
theorem reference_splits_record :
    Csv.read (reconciliationCsv plainRendering [twoLineReference]) ≠
        [header, fields plainRendering twoLineReference] ∧
      (Csv.read (reconciliationCsv plainRendering [twoLineReference])).length = 3 := by
  constructor
  · decide +kernel
  · decide +kernel

end SettlementOS.Results
