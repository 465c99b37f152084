import SettlementOS.Analysis.Faithful
import SettlementOS.Analysis.Reserving

/-!
# The rows that faithful requests write

What the rows next to the payment say was written by an entry of the history, and the amount on
the payment's own row is that of its selected route from `FX_OR_SWAP_COMPLETED` on.
-/

set_option autoImplicit false

namespace SettlementOS.Analysis

open SettlementOS.Computation Service Model Program

variable {env : Env} {new : NewPayment} {q : Payment} {o : Stmt} {c : Choice} {s s' : State}
  {r : Except Err o.Result}

/-! ## The amount on the row -/

/-- The row an event answers is the row as it is then. -/
theorem rowOf_exec (h : o.exec c s = some (r, s')) {row : Payment}
    (hrow : rowOf ⟨o, r⟩ = some row) : row = s'.payment := by
  rcases exec_eq_some h with ⟨⟨m, rfl⟩, -⟩ | hp
  · cases o <;> cases hrow
  · cases o with
    | findPayment =>
      cases hp
      cases hrow
      rfl
    | updatePayment data =>
      cases hp
      cases hrow
      rfl
    | transition status next opts =>
      simp only [Stmt.perform, State.transition] at hp
      split at hp <;> cases hp
      · cases hrow
        rfl
      · cases hrow
    | _ =>
      cases r <;> cases hrow

/-- A read changes nothing. -/
theorem readRow_exec (h : o.exec c s = some (r, s')) {row : Payment}
    (hrow : readRow ⟨o, r⟩ = some row) : row = s.payment := by
  cases o with
  | findPayment =>
    rcases exec_eq_some h with ⟨⟨m, rfl⟩, -⟩ | hp
    · cases hrow
    · cases hp
      cases hrow
      rfl
  | _ => cases r <;> cases hrow

/-- A status change writes the destination amount, or leaves it. -/
theorem apply_destinationAmount (p : Payment) (next : PaymentStatus) (opts : TransitionOpts) :
    (p.apply (transitionData next opts)).destinationAmount =
      (opts.data.destinationAmount <|> p.destinationAmount) := by
  by_cases hr : next ∈ leaseReleaseStates <;>
    simp [Payment.apply, transitionData, releaseLease, PaymentPatch.spread, hr]

/-- The status a change leads to, whatever it writes. -/
theorem apply_status_getD (p : Payment) (next : PaymentStatus) (opts : TransitionOpts) :
    (p.apply (transitionData next opts)).status = opts.data.status.getD next := by
  by_cases hr : next ∈ leaseReleaseStates <;> cases hs : opts.data.status <;>
    simp [Payment.apply, transitionData, releaseLease, PaymentPatch.spread, hr, hs]

/-- Before a priced status there was another one, but for the first. -/
theorem priced_before {status next : PaymentStatus} (h : canTransition status next = true)
    (hnext : next ∈ pricedStates) (hne : next ≠ .fxOrSwapCompleted) : status ∈ pricedStates := by
  revert h hnext hne
  cases status <;> cases next <;> decide

/-- A faithful statement keeps the amount of the selected route on the row. -/
theorem Priced.exec (h : Priced q s.payment) (hF : Faithful env q ⟨o, r⟩)
    (he : o.exec c s = some (r, s')) : Priced q s'.payment := by
  rcases exec_eq_some he with ⟨-, rfl⟩ | hp
  · exact h
  · cases o with
    | updatePayment data =>
      cases hp
      obtain ⟨hstatus, hamount⟩ := hF
      intro hpriced
      have hsame : (s.payment.apply data).status = s.payment.status := by
        simp [Payment.apply, hstatus]
      rw [hsame] at hpriced
      obtain ⟨a, ha, hselected⟩ := h hpriced
      exact ⟨a, by simp [Payment.apply, hamount, ha], hselected⟩
    | transition status next opts =>
      simp only [Stmt.perform, State.transition] at hp
      split at hp
      · rename_i hstatus
        cases hp
        intro hpriced
        rw [apply_status_getD] at hpriced
        obtain ⟨hdata, hcan, hprices⟩ := hF hpriced
        rw [hdata] at hpriced
        rw [apply_destinationAmount]
        unfold Prices at hprices
        cases hamount : opts.data.destinationAmount with
        | some amount =>
          rw [hamount] at hprices
          exact ⟨amount, rfl, hprices⟩
        | none =>
          rw [hamount] at hprices
          exact h (hstatus ▸ priced_before hcan hpriced hprices)
      · cases hp
        exact h
    | _ =>
      have hsame : s'.payment.status = s.payment.status ∧
          s'.payment.destinationAmount = s.payment.destinationAmount := by
        simp only [Stmt.perform, State.reserve] at hp
        (repeat' split at hp) <;> cases hp <;> exact ⟨rfl, rfl⟩
      intro hpriced
      rw [hsame.1] at hpriced
      rw [hsame.2]
      exact h hpriced

/-- **The amount on the row.** Where everything performed so far was faithful, the row has the
amount of the selected route from `FX_OR_SWAP_COMPLETED` on. -/
theorem priced_of_faithful {c : (sagaService env).Config}
    (h : (Config.start (S := sagaService env) (State.created new)).Reaches c)
    (hF : ∀ e ∈ c.world.history, Faithful env q ⟨e.stmt, e.answer⟩) :
    Priced q c.world.state.payment := by
  refine h.induct (P := fun (c : (sagaService env).Config) =>
    (∀ e ∈ c.world.history, Faithful env q ⟨e.stmt, e.answer⟩) →
    Priced q c.world.state.payment) (fun _ hpriced => ?_) ?_ hF
  · exact absurd hpriced (by simp [Config.start, State.created, NewPayment.row, pricedStates])
  intro c₁ m c₂ _ ih hm hF
  rcases Config.step_eq_some hm with ⟨r, -, rfl⟩ | ⟨i, ch, r, o, k, a, w, -, -, he, rfl⟩ |
    ⟨x, s, -, hs, rfl⟩
  · exact ih hF
  · obtain ⟨s, hs, rfl⟩ := World.exec_eq_some.mp he
    exact (ih fun e he => hF e (List.mem_cons_of_mem _ he)).exec (hF _ List.mem_cons_self) hs
  · rw [(mine_rows hs).1]
    exact ih hF

/-! ## The rows next to it -/

/-- The credits and the reservation were written by entries of the history. -/
structure Written (s : State) (h : History) : Prop where
  credits : ∀ credit ∈ s.ledgerCredits, ∃ e ∈ h, e.stmt = .createLedgerCredit credit
  reservation : ∀ row, s.reservation = some row →
    ∃ e ∈ h, ∃ leaseId, e.stmt = .reserve leaseId row.asset row.network row.amount

/-- One statement more. -/
theorem Written.exec {h : History} (hw : Written s h) {i : ℕ} (he : o.exec c s = some (r, s')) :
    Written s' (⟨i, o, r⟩ :: h) := by
  have hold : s'.ledgerCredits = s.ledgerCredits → s'.reservation = s.reservation →
      Written s' (⟨i, o, r⟩ :: h) := by
    intro hc hr
    refine ⟨fun credit hcredit => ?_, fun row hrow => ?_⟩
    · obtain ⟨e, hmem, hs⟩ := hw.credits credit (hc ▸ hcredit)
      exact ⟨e, List.mem_cons_of_mem _ hmem, hs⟩
    · obtain ⟨e, hmem, hs⟩ := hw.reservation row (hr ▸ hrow)
      exact ⟨e, List.mem_cons_of_mem _ hmem, hs⟩
  rcases exec_eq_some he with ⟨-, rfl⟩ | hp
  · exact hold rfl rfl
  · cases o with
    | createLedgerCredit credit =>
      simp only [Stmt.perform] at hp
      split at hp <;> cases hp
      · refine ⟨fun credit' hcredit => ?_, fun row hrow => ?_⟩
        · rw [List.mem_singleton.mp hcredit]
          exact ⟨_, List.mem_cons_self, rfl⟩
        · obtain ⟨e, hmem, hs⟩ := hw.reservation row hrow
          exact ⟨e, List.mem_cons_of_mem _ hmem, hs⟩
      · exact hold rfl rfl
    | reserve leaseId asset network amount =>
      simp only [Stmt.perform, State.reserve] at hp
      split at hp <;> cases hp
      · refine ⟨fun credit hcredit => ?_, fun row hrow => ?_⟩
        · obtain ⟨e, hmem, hs⟩ := hw.credits credit hcredit
          exact ⟨e, List.mem_cons_of_mem _ hmem, hs⟩
        · cases hrow
          exact ⟨_, List.mem_cons_self, leaseId, rfl⟩
      · exact hold rfl rfl
    | updateReservation status =>
      simp only [Stmt.perform] at hp
      split at hp <;> cases hp
      · rename_i row₀ hrow₀
        refine ⟨fun credit hcredit => ?_, fun row hrow => ?_⟩
        · obtain ⟨e, hmem, hs⟩ := hw.credits credit hcredit
          exact ⟨e, List.mem_cons_of_mem _ hmem, hs⟩
        · cases hrow
          obtain ⟨e, hmem, hs⟩ := hw.reservation row₀ hrow₀
          exact ⟨e, List.mem_cons_of_mem _ hmem, hs⟩
      · exact hold rfl rfl
    | _ =>
      have hsame : s'.ledgerCredits = s.ledgerCredits ∧ s'.reservation = s.reservation := by
        simp only [Stmt.perform, State.transition] at hp
        (repeat' split at hp) <;> cases hp <;> exact ⟨rfl, rfl⟩
      exact hold hsame.1 hsame.2

/-- In every run the history wrote the credits and the reservation. -/
theorem written {c : (sagaService env).Config}
    (h : (Config.start (S := sagaService env) (State.created new)).Reaches c) :
    Written c.world.state c.world.history := by
  refine h.induct (P := fun c => Written c.world.state c.world.history)
    ⟨by simp [Config.start, State.created], by simp [Config.start, State.created]⟩ ?_
  intro c₁ m c₂ _ hw hm
  rcases Config.step_eq_some hm with ⟨r, -, rfl⟩ | ⟨i, ch, r, o, k, a, w, -, -, he, rfl⟩ |
    ⟨x, s, -, hs, rfl⟩
  · exact hw
  · obtain ⟨s, hs, rfl⟩ := World.exec_eq_some.mp he
    exact hw.exec hs
  · obtain ⟨-, hr, hc⟩ := mine_rows hs
    exact ⟨hc ▸ hw.credits, hr ▸ hw.reservation⟩

end SettlementOS.Analysis
