import SettlementOS.Analysis.Evolution
import SettlementOS.Computation.Trails

/-!
# What a statement leaves alone

A statement that fails changes nothing. One that is performed writes the rows it names and
leaves the others as they are; mining touches transactions and escrows only.
-/

set_option autoImplicit false

namespace SettlementOS.Analysis

open SettlementOS.Computation Model Program

variable {o : Stmt} {c : Choice} {s s' : State} {r : Except Err o.Result}

/-- The two ways a statement goes. -/
theorem exec_eq_some (h : o.exec c s = some (r, s')) :
    ((∃ m, r = .error (o.fault m)) ∧ s' = s) ∨ o.perform c s = some (r, s') := by
  unfold Stmt.exec at h
  split at h
  · cases h
    exact .inl ⟨⟨_, rfl⟩, rfl⟩
  · exact .inr h

/-- Only a transaction that is sent is added to those sent. -/
theorem txs_of_exec (h : o.exec c s = some (r, s')) (ho : ∀ n k, o ≠ .writeContract n k) :
    s'.txs = s.txs := by
  rcases exec_eq_some h with ⟨-, rfl⟩ | h
  · rfl
  · cases o with
    | writeContract network call => exact absurd rfl (ho network call)
    | _ =>
      simp only [Stmt.perform, State.transition, State.reserve] at h
      (repeat' split at h) <;> cases h <;> rfl

/-- A transaction that is there was there, or has just been sent. -/
theorem sends_of_exec (h : o.exec c s = some (r, s')) (i : ℕ) {hash : Hash} {tx : Tx}
    (ht : s'.txs[hash]? = some tx) :
    s.txs[hash]? = some tx ∨ sends ⟨i, o, r⟩ = some (tx.network, tx.call, hash) := by
  cases o with
  | writeContract network call =>
    rcases exec_eq_some h with ⟨-, rfl⟩ | h
    · exact .inl ht
    · cases h
      by_cases hlt : hash < s.txs.length
      · rw [List.getElem?_append_left hlt] at ht
        exact .inl ht
      · obtain ⟨rfl, rfl⟩ := Service.getElem?_concat_last hlt ht
        exact .inr rfl
  | _ => exact .inl (txs_of_exec h (by simp) ▸ ht)

/-- A reservation row is never deleted. -/
theorem reservation_of_exec (h : o.exec c s = some (r, s')) (hres : s.reservation ≠ none) :
    s'.reservation ≠ none := by
  rcases exec_eq_some h with ⟨-, rfl⟩ | h
  · exact hres
  · cases o with
    | reserve leaseId asset network amount =>
      simp only [Stmt.perform, State.reserve] at h
      split at h <;> cases h
      · simp
      · exact hres
    | updateReservation status =>
      simp only [Stmt.perform] at h
      split at h <;> cases h
      · simp
      · exact hres
    | _ =>
      have hsame : s'.reservation = s.reservation := by
        simp only [Stmt.perform, State.transition] at h
        (repeat' split at h) <;> cases h <;> rfl
      exact hsame ▸ hres

end SettlementOS.Analysis
