import SettlementOS.Analysis.Deeds
import SettlementOS.Analysis.Invariant
import SettlementOS.Analysis.Frames

/-!
# What becomes of the hash of a transfer

A transfer is broadcast, and the write that persists its hash comes right after it. When that
write fails the hash is on the attempt's local row only, and whether it reaches the payment's
row depends on what the attempt is answered next. Here is the vocabulary for it: what an attempt
has performed since a broadcast, whether the write failed, whether the receipt was read since
and what it said, and whether the row carries the hash.
-/

set_option autoImplicit false

namespace SettlementOS.Analysis

open SettlementOS.Computation Service Model Program

/-- What an attempt has performed, newest first. -/
abbrev Trail := List (Event sagaEffects)

/-- The column that carries the hash of a leg's transfer. -/
def hashOf (leg : Leg) (p : Payment) : Option Hash :=
  match leg with
  | .destinationPayout => p.destinationTxHash
  | .compensation => p.compensationTxHash

/-- What a patch writes to it. -/
def patchOf (leg : Leg) (data : PaymentPatch) : Option Hash :=
  match leg with
  | .destinationPayout => data.destinationTxHash
  | .compensation => data.compensationTxHash

/-- A transfer was broadcast: for which leg, and with which hash. -/
def broadcast : Event sagaEffects → Option (Leg × Hash)
  | ⟨.writeContract _ (.transfer leg _ _ _), .ok hash⟩ => some (leg, hash)
  | _ => none

/-- A database statement failed. -/
def failsInDb : Event sagaEffects → Bool
  | ⟨_, .error (.database _)⟩ => true
  | _ => false

/-- The receipt of the transaction was read: whether it succeeded. -/
def receiptOf (hash : Hash) : Event sagaEffects → Option Bool
  | ⟨.getTransactionReceipt _ h, .ok (some receipt)⟩ =>
    if h = hash then some receipt.success else none
  | ⟨.waitForTransactionReceipt _ h, .ok receipt⟩ =>
    if h = hash then some receipt.success else none
  | _ => none

/-- The row was read, and carried no hash of a compensation. -/
def foundUnsent : Event sagaEffects → Bool
  | ⟨.findPayment, .ok row⟩ => row.compensationTxHash.isNone
  | _ => false

/-- The hash a statement wrote to the row. -/
def persists (leg : Leg) : Event sagaEffects → Option Hash
  | ⟨.updatePayment data, .ok _⟩ => patchOf leg data
  | ⟨.transition _ _ opts, .ok (some _)⟩ => patchOf leg opts.data
  | _ => none

/-! ## Since a broadcast -/

/-- The transfer was broadcast, and `since` is what was performed after it. -/
def Since (trail : Trail) (leg : Leg) (hash : Hash) (since : Trail) : Prop :=
  ∃ b past, trail = since ++ b :: past ∧ broadcast b = some (leg, hash)

/-- The write right after the broadcast failed. -/
def WriteFailed (since : Trail) : Prop := ∃ x, since.getLast? = some x ∧ failsInDb x = true

/-- A receipt that says the transfer reverted was read. -/
def ToldReverted (hash : Hash) (since : Trail) : Prop :=
  ∃ x ∈ since, receiptOf hash x = some false

/-- A receipt of the transfer was read. -/
def ReceiptRead (hash : Hash) (since : Trail) : Prop :=
  ∃ x ∈ since, (receiptOf hash x).isSome = true

/-- The hash was written to the row. -/
def Persisted (leg : Leg) (hash : Hash) (since : Trail) : Prop :=
  ∃ x ∈ since, persists leg x = some hash

/-- A write that failed can be made up for: the receipt was read, or the transfer is a
compensation and the row, read back, carries no hash of an earlier one. -/
def Recoverable (leg : Leg) (hash : Hash) (since : Trail) : Prop :=
  WriteFailed since → ReceiptRead hash since ∨
    (leg = .compensation ∧ ∃ x ∈ since, foundUnsent x = true)

/-- The transfer is known to have reverted, or the row carries its hash. -/
def Carried (leg : Leg) (hash : Hash) (since : Trail) (p : Payment) : Prop :=
  ToldReverted hash since ∨ hashOf leg p = some hash

/-- Once something was broadcast, no database statement fails but the one right after a
broadcast. -/
def LaterSucceed : Trail → Prop
  | [] => True
  | x :: past => LaterSucceed past ∧ (failsInDb x = true → (∃ y ∈ past, broadcast y ≠ none) →
      ∃ b, past.head? = some b ∧ broadcast b ≠ none)

instance : DecidablePred WriteFailed := fun since =>
  decidable_of_iff (since.getLast?.any failsInDb = true) (Option.any_eq_true _ _)

instance (hash : Hash) : DecidablePred (ToldReverted hash) := fun since =>
  inferInstanceAs (Decidable (∃ x ∈ since, receiptOf hash x = some false))

instance (hash : Hash) : DecidablePred (ReceiptRead hash) := fun since =>
  inferInstanceAs (Decidable (∃ x ∈ since, (receiptOf hash x).isSome = true))

instance (leg : Leg) (hash : Hash) : DecidablePred (Recoverable leg hash) := fun since =>
  inferInstanceAs (Decidable (WriteFailed since → ReceiptRead hash since ∨
    (leg = .compensation ∧ ∃ x ∈ since, foundUnsent x = true)))

instance decidableLaterSucceed : DecidablePred LaterSucceed
  | [] => .isTrue trivial
  | x :: past =>
    have := decidableLaterSucceed past
    have : Decidable (∃ b, past.head? = some b ∧ broadcast b ≠ none) :=
      decidable_of_iff (past.head?.any (broadcast · ≠ none) = true)
        ((Option.any_eq_true _ _).trans (by simp))
    inferInstanceAs (Decidable (LaterSucceed past ∧ (failsInDb x = true →
      (∃ y ∈ past, broadcast y ≠ none) → ∃ b, past.head? = some b ∧ broadcast b ≠ none)))

variable {trail since : Trail} {e : Event sagaEffects} {leg : Leg} {hash : Hash} {p p' : Payment}

/-- The broadcast at a place of the trail, and what was performed after it. -/
theorem since_of_getElem? {n : ℕ} {b : Event sagaEffects} (h : trail[n]? = some b)
    (hb : broadcast b = some (leg, hash)) : Since trail leg hash (trail.take n) := by
  obtain ⟨hn, rfl⟩ := List.getElem?_eq_some_iff.mp h
  exact ⟨trail[n], trail.drop (n + 1), by rw [← List.drop_eq_getElem_cons hn,
    List.take_append_drop], hb⟩

/-- One event more. -/
theorem since_cons : Since (e :: trail) leg hash since ↔
    (since = [] ∧ broadcast e = some (leg, hash)) ∨
      ∃ since', since = e :: since' ∧ Since trail leg hash since' := by
  constructor
  · rintro ⟨b, past, heq, hb⟩
    cases since with
    | nil =>
      obtain ⟨rfl, rfl⟩ := List.cons.inj heq
      exact .inl ⟨rfl, hb⟩
    | cons x since =>
      obtain ⟨rfl, rfl⟩ := List.cons.inj heq
      exact .inr ⟨since, rfl, b, past, rfl, hb⟩
  · rintro (⟨rfl, hb⟩ | ⟨since', rfl, b, past, rfl, hb⟩)
    · exact ⟨e, trail, rfl, hb⟩
    · exact ⟨b, past, rfl, hb⟩

/-- An event that broadcasts nothing comes after every broadcast. -/
theorem since_cons_plain (he : broadcast e = none) : Since (e :: trail) leg hash since ↔
    ∃ since', since = e :: since' ∧ Since trail leg hash since' := by
  rw [since_cons, he]
  constructor
  · rintro (⟨-, h⟩ | h)
    · cases h
    · exact h
  · exact .inr

/-- Nothing has been broadcast at the start. -/
theorem not_since_nil : ¬ Since [] leg hash since := by
  rintro ⟨b, past, heq, -⟩
  exact List.cons_ne_nil _ _ (List.append_eq_nil_iff.mp heq.symm).2

/-- What was broadcast is in the trail. -/
theorem Since.mem (h : Since trail leg hash since) : ∃ y ∈ trail, broadcast y ≠ none := by
  obtain ⟨b, past, rfl, hb⟩ := h
  exact ⟨b, List.mem_append_right _ List.mem_cons_self, by simp [hb]⟩

/-- Which write came right after the broadcast does not change. -/
theorem writeFailed_cons (h : since ≠ []) : WriteFailed (e :: since) ↔ WriteFailed since := by
  unfold WriteFailed
  rw [List.getLast?_cons_of_ne_nil h]

/-- What a receipt has told stays told. -/
theorem ToldReverted.cons (h : ToldReverted hash since) : ToldReverted hash (e :: since) := by
  obtain ⟨x, hx, hr⟩ := h
  exact ⟨x, List.mem_cons_of_mem _ hx, hr⟩

/-- A receipt that was read stays read. -/
theorem ReceiptRead.cons (h : ReceiptRead hash since) : ReceiptRead hash (e :: since) := by
  obtain ⟨x, hx, hr⟩ := h
  exact ⟨x, List.mem_cons_of_mem _ hx, hr⟩

/-- What was persisted stays persisted. -/
theorem Persisted.cons (h : Persisted leg hash since) : Persisted leg hash (e :: since) := by
  obtain ⟨x, hx, hr⟩ := h
  exact ⟨x, List.mem_cons_of_mem _ hx, hr⟩

/-- A hash that can be recovered stays recoverable once the write is over. -/
theorem Recoverable.cons (h : Recoverable leg hash since) (hne : since ≠ []) :
    Recoverable leg hash (e :: since) := by
  intro hf
  rcases h ((writeFailed_cons hne).mp hf) with hread | ⟨hleg, x, hx, hu⟩
  · exact .inl hread.cons
  · exact .inr ⟨hleg, x, List.mem_cons_of_mem _ hx, hu⟩

/-! ## Settled broadcasts -/

/-- Nothing is left open of the transfer: it is known to have reverted, or it is the payout and
its hash was written. -/
structure Closed (leg : Leg) (hash : Hash) (since : Trail) : Prop where
  followed : since ≠ []
  recoverable : Recoverable leg hash since
  outcome : ToldReverted hash since ∨ (leg = .destinationPayout ∧ Persisted leg hash since)

/-- What is closed stays closed. -/
theorem Closed.cons (h : Closed leg hash since) : Closed leg hash (e :: since) where
  followed := List.cons_ne_nil _ _
  recoverable := h.recoverable.cons h.followed
  outcome := h.outcome.imp ToldReverted.cons fun hp => ⟨hp.1, hp.2.cons⟩

/-- Nothing is left open of any transfer. -/
def Sealed (trail : Trail) : Prop :=
  ∀ leg hash since, Since trail leg hash since → Closed leg hash since

/-- At the start nothing is open. -/
theorem sealed_nil : Sealed [] := fun _ _ _ h => absurd h not_since_nil

/-- A statement that broadcasts nothing leaves it sealed. -/
theorem Sealed.cons (h : Sealed trail) (he : broadcast e = none) : Sealed (e :: trail) := by
  intro leg hash since hs
  obtain ⟨since', rfl, hs'⟩ := (since_cons_plain he).mp hs
  exact (h _ _ _ hs').cons

/-- How a transfer may stand when the attempt ends. -/
inductive Resolved (leg : Leg) (hash : Hash) (since : Trail) (p : Payment) : Prop where
  | closed (h : Closed leg hash since)
  | carried (hne : since ≠ []) (h : hashOf leg p = some hash)
      (hr : Recoverable leg hash since)
  | lost (hne : since ≠ []) (h : ¬ Carried leg hash since p) (hr : ¬ Recoverable leg hash since)

/-- An event that reads neither a receipt nor the row leaves it standing so. -/
theorem Resolved.cons (h : Resolved leg hash since p) (hp : hashOf leg p' = hashOf leg p)
    (hr : ∀ hash, receiptOf hash e = none) (hf : foundUnsent e = false) :
    Resolved leg hash (e :: since) p' := by
  cases h with
  | closed h => exact .closed h.cons
  | carried hne h hrec => exact .carried (List.cons_ne_nil _ _) (hp.trans h) (hrec.cons hne)
  | lost hne h hrec =>
    refine .lost (List.cons_ne_nil _ _) (fun hc => h ?_) fun hrec' => hrec fun hfail => ?_
    · refine hc.imp ?_ fun hh => hp ▸ hh
      rintro ⟨x, hx, hx'⟩
      rcases List.mem_cons.mp hx with rfl | hx
      · rw [hr] at hx'
        cases hx'
      · exact ⟨x, hx, hx'⟩
    · rcases hrec' ((writeFailed_cons hne).mpr hfail) with ⟨x, hx, hx'⟩ | ⟨hleg, x, hx, hx'⟩
      · rcases List.mem_cons.mp hx with rfl | hx
        · rw [hr] at hx'
          cases hx'
        · exact .inl ⟨x, hx, hx'⟩
      · rcases List.mem_cons.mp hx with rfl | hx
        · rw [hf] at hx'
          cases hx'
        · exact .inr ⟨hleg, x, hx, hx'⟩

/-- A failure that is not right after a broadcast is one too many. -/
theorem not_laterSucceed (he : failsInDb e = true) (hs : Since trail leg hash since)
    (hhead : ∀ b, trail.head? = some b → broadcast b = none) :
    ¬ LaterSucceed (e :: trail) := by
  intro h
  obtain ⟨b, hb, hbroadcast⟩ := h.2 he hs.mem
  exact hbroadcast (hhead b hb)

/-- What succeeds later on succeeds later on from here. -/
theorem LaterSucceed.tail (h : LaterSucceed (e :: trail)) : LaterSucceed trail := h.1

end SettlementOS.Analysis
