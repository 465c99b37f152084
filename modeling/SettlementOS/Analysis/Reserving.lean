import SettlementOS.Analysis.Deeds
import SettlementOS.Analysis.Frames

/-!
# An escrow is initiated by who has reserved

`initiatePayment` is sent by executions only, and by them only after their reservation was
written. A reservation row is never deleted, so a payment whose escrow was ever initiated has
one.
-/

set_option autoImplicit false

namespace SettlementOS.Analysis

open SettlementOS.Computation Service Law Model Program

variable {env : Env} {α : Type}

/-- The reservation was written. -/
def wroteReservation : Event sagaEffects → Bool
  | ⟨.reserve .., .ok true⟩ => true
  | _ => false

/-- An `initiatePayment` was sent, or was tried to be. -/
def initiates : Event sagaEffects → Bool
  | ⟨.writeContract _ c, _⟩ => c.kind == .initiate
  | _ => false

/-- An escrow is initiated after the reservation. -/
def reservesFirst : Law sagaEffects where
  Answers _ _ := True
  Allows past e := initiates e = true → ∃ x ∈ past, wroteReservation x = true

variable {past : List (Event sagaEffects)} {ds : List Deed}

/-- Whoever sends no `initiatePayment` need not have reserved. -/
theorem keeps_of_no_initiate {ε : Type} {p : Prog sagaEffects ε α} (hp : p.Uses (Within ds))
    (hds : .send .initiate ∉ ds) :
    reservesFirst.Keeps (fun _ _ => True) (fun _ _ => True) p past := by
  apply keeps_of_uses (P := fun _ => True) _ hp trivial
  intro past o r ho _ _
  refine ⟨fun hi => absurd ?_ hds, trivial⟩
  cases o with
  | writeContract network c =>
    have hkind : c.kind = .initiate := by simpa [initiates] using hi
    exact hkind ▸ ho (.send c.kind) rfl
  | _ => cases hi

/-- Whoever has reserved may do anything. -/
theorem keeps_of_reserved {ε : Type} (p : Prog sagaEffects ε α)
    (h : ∃ x ∈ past, wroteReservation x = true) :
    reservesFirst.Keeps (fun _ _ => True) (fun _ _ => True) p past := by
  refine keeps_mono (keeps_of_forall (P := fun past => ∃ x ∈ past, wroteReservation x = true)
    ?_ p h) (fun _ _ _ => trivial) fun _ _ _ => trivial
  rintro past o r ⟨x, hx, hw⟩ _
  exact ⟨fun _ => ⟨x, hx, hw⟩, x, List.mem_cons_of_mem _ hx, hw⟩

/-- What follows the reservation follows a reservation that was written. -/
theorem keeps_reserveLiquidity {leaseId : ℕ} {p : Payment} {plan : Plan} {f : Unit → Saga α} :
    reservesFirst.Keeps (fun _ _ => True) (fun _ _ => True)
      ((reserveLiquidity leaseId p plan).bind f) past := by
  intro r _
  refine ⟨fun h => Bool.noConfusion h, ?_⟩
  cases r with
  | error e => trivial
  | ok held =>
    cases held with
    | false => trivial
    | true => exact keeps_of_reserved _ ⟨_, List.mem_cons_self, rfl⟩

/-- The execution proper reserves before it escrows. -/
theorem keeps_runExecution {leaseId : ℕ} {p : Payment} :
    reservesFirst.Keeps (fun _ _ => True) (fun _ _ => True) (runExecution env leaseId p) past := by
  have hfailed : ∀ {β : Type} {q : Saga β} {past : List (Event sagaEffects)},
      q.Uses (Within [.move .failed]) →
      reservesFirst.Keeps (fun _ _ => True) (fun _ _ => True) q past :=
    fun h => keeps_of_no_initiate h (by decide)
  apply keeps_bind_of_forall (hfailed (does_lift _))
  intro plan past
  apply keeps_bind_of_forall (hfailed (does_alignDestination _ _))
  intro p past
  apply keeps_bind_of_forall (hfailed (does_autoRecall _ _ (List.mem_singleton_self _)))
  intro _ past
  apply keeps_bind_of_forall (hfailed (does_checkLiquidity _ _ (List.mem_singleton_self _)))
  intro _ past
  exact keeps_reserveLiquidity

/-- So does the execution of an approved payment. -/
theorem keeps_executePayment {leaseId : ℕ} :
    reservesFirst.Keeps (fun _ _ => True) (fun _ _ => True) (executePayment env leaseId) past := by
  have hplain : ∀ {β : Type} {q : Saga β} {past : List (Event sagaEffects)},
      q.Uses (Within leaseDeeds) →
      reservesFirst.Keeps (fun _ _ => True) (fun _ _ => True) q past :=
    fun h => keeps_of_no_initiate h (by decide)
  apply keeps_bind_of_forall (hplain (does_plain rfl))
  intro p past
  split
  · apply keeps_bind_of_forall (hplain (does_call (within_deed rfl (by decide))))
    intro claimed past
    have hrelease : ∀ past, reservesFirst.Keeps (fun _ _ => True) (fun _ _ => True)
        ((call (.releaseLease leaseId)).ignoring : Saga Unit) past :=
      fun past => hplain (does_call (within_deed rfl (by decide))).ignoring
    split
    · exact keeps_andFinally (keeps_mono keeps_runExecution (fun _ past _ => hrelease past)
        fun _ past _ => hrelease past)
    · trivial
  · trivial

/-- So does an execution. -/
theorem keeps_runExecute {leaseId : ℕ} {actor : String} {routeId : Option String} :
    reservesFirst.Keeps (fun _ _ => True) (fun _ _ => True)
      (runExecute env leaseId actor routeId) past := by
  have hgate : ∀ {β : Type} {q : Saga β} {past : List (Event sagaEffects)},
      q.Uses (Within gateDeeds) →
      reservesFirst.Keeps (fun _ _ => True) (fun _ _ => True) q past :=
    fun h => keeps_of_no_initiate h (by decide)
  have happroved : ∀ past, reservesFirst.Keeps (fun _ _ => True) (fun _ _ => True)
      (executeApproved env leaseId) past := fun past =>
    keeps_handle (keeps_mono keeps_executePayment (fun _ _ h => h) fun _ _ _ =>
      hgate (Prog.Uses.bind (does_plain rfl) fun _ => trivial))
  apply keeps_bind_of_forall (hgate (does_plain rfl))
  intro p past
  apply keeps_bind_of_forall (hgate (does_lift _))
  intro _ past
  apply keeps_bind
  refine keeps_ofExcept (fun selection hselection => ?_) fun _ _ => trivial
  have hs := routeSelection_status hselection
  split
  · apply keeps_bind_of_forall (hgate (does_complianceGate _ _ hs (List.Subset.refl _)))
    intro p past
    split
    · exact happroved past
    · trivial
  · split
    · exact happroved past
    · trivial

/-- Every request keeps the law. -/
theorem request_reservesFirst (i : ℕ) (r : Request) :
    reservesFirst.Keeps (fun _ _ => True) (fun _ _ => True) (r.program env i) [] := by
  cases r with
  | execute actor routeId => exact keeps_bind_of_forall keeps_runExecute fun _ _ => trivial
  | cancel actor =>
    exact keeps_of_no_initiate (Prog.Uses.bind (does_cancelPayment actor
      (List.mem_singleton_self _)) fun _ => trivial) (by decide)
  | review actor approve note =>
    exact keeps_of_no_initiate (Prog.Uses.bind (does_reviewPayment actor approve note
      (List.Subset.refl _)) fun _ => trivial) (by decide)
  | quote actor =>
    exact keeps_of_no_initiate (Prog.Uses.bind (does_quotePayment actor
      (List.mem_singleton_self _)) fun _ => trivial) (by decide)
  | repair =>
    exact keeps_of_no_initiate (Prog.Uses.bind (does_repairCompensation i
      (List.Subset.refl _)) fun _ => trivial) (by decide)
  | reconcile =>
    exact keeps_of_no_initiate (Prog.Uses.bind (does_reconcileUnresolvedPayment i
      (List.Subset.refl _)) fun _ => trivial) (by decide)

/-! ## The reservation row -/

/-- What the history says of the reservation and of the transactions that were sent. -/
structure Recorded (s : State) (h : History) : Prop where
  reservation : ∀ e ∈ h, wroteReservation ⟨e.stmt, e.answer⟩ = true → s.reservation ≠ none
  sent : ∀ (hash : Hash) (tx : Tx), s.txs[hash]? = some tx →
    ∃ e ∈ h, sends e = some (tx.network, tx.call, hash)

/-- One statement more. -/
theorem Recorded.exec {s s' : State} {h : History} (hrec : Recorded s h) {i : ℕ} {o : Stmt}
    {c : Choice} {r : Except Err o.Result} (he : o.exec c s = some (r, s')) :
    Recorded s' (⟨i, o, r⟩ :: h) where
  reservation := by
    intro e hmem hw
    rcases List.mem_cons.mp hmem with rfl | hmem
    · rcases exec_eq_some he with ⟨⟨m, rfl⟩, -⟩ | hp
      · cases o <;> cases hw
      · cases o with
        | reserve leaseId asset network amount =>
          simp only [Stmt.perform, State.reserve] at hp
          split at hp <;> cases hp
          · simp
          · cases hw
        | _ => cases hw
    · exact reservation_of_exec he (hrec.reservation e hmem hw)
  sent := by
    intro hash tx htx
    rcases sends_of_exec he i htx with hold | hnew
    · obtain ⟨e, hmem, hs⟩ := hrec.sent hash tx hold
      exact ⟨e, List.mem_cons_of_mem _ hmem, hs⟩
    · exact ⟨_, List.mem_cons_self, hnew⟩

/-- Mining. -/
theorem Recorded.mine {s s' : State} {h : History} (hrec : Recorded s h) {m : Mining}
    (hm : m.exec s = some s') : Recorded s' h where
  reservation e hmem hw := (mine_rows hm).2.1.symm ▸ hrec.reservation e hmem hw
  sent hash tx htx := by
    obtain ⟨h₀, network, call, r, ht, -, rfl⟩ := mine_eq_some hm
    by_cases hh : hash = h₀
    · subst hh
      rw [List.getElem?_set_self (List.getElem?_eq_some_iff.mp ht).1, Option.some.injEq] at htx
      subst htx
      obtain ⟨e, hmem, hs⟩ := hrec.sent hash _ ht
      exact ⟨e, hmem, hs⟩
    · rw [List.getElem?_set_ne (Ne.symm hh)] at htx
      exact hrec.sent hash tx htx

/-- In every run the history tells of the reservation and of what was sent. -/
theorem recorded {new : NewPayment} {c : (sagaService env).Config}
    (h : (Config.start (S := sagaService env) (State.created new)).Reaches c) :
    Recorded c.world.state c.world.history := by
  refine h.induct (P := fun c => Recorded c.world.state c.world.history)
    ⟨by simp [Config.start], by simp [Config.start, State.created]⟩ ?_
  intro c₁ m c₂ _ hrec hm
  rcases Config.step_eq_some hm with ⟨r, -, rfl⟩ | ⟨i, ch, r, o, k, a, w, -, -, he, rfl⟩ |
    ⟨x, s, -, hs, rfl⟩
  · exact hrec
  · obtain ⟨s, hs, rfl⟩ := World.exec_eq_some.mp he
    exact hrec.exec hs
  · exact hrec.mine hs

/-- **A payment whose escrow was initiated has a reservation.** -/
theorem reservation_of_initiated {new : NewPayment} {c : (sagaService env).Config}
    (h : (Config.start (S := sagaService env) (State.created new)).Reaches c)
    (hchain : ChainInv c.world.state) {n : Network} (hn : c.world.state.escrow n ≠ .none) :
    c.world.state.reservation ≠ none := by
  obtain ⟨hash, tx, htx, hkind⟩ := hchain.sent (n := n) (k := .initiate) (by decide)
    (by simpa [happened] using hn)
  obtain ⟨e, hmem, hsends⟩ := (recorded h).sent hash tx htx
  obtain ⟨l, past, hhist⟩ := List.append_of_mem hmem
  have hlawful := h.keeps (L := fun _ _ => reservesFirst) (fun _ _ _ _ _ _ _ _ => trivial)
    request_reservesFirst
  obtain ⟨t, -, hallows⟩ := hlawful.allows hhist
  have hinitiates : initiates ⟨e.stmt, e.answer⟩ = true := by
    obtain ⟨i, o, r⟩ := e
    cases o with
    | writeContract network call =>
      cases r with
      | ok hash' =>
        simp only [sends, Option.some.injEq, Prod.mk.injEq] at hsends
        simp [initiates, hsends.2.1, hkind]
      | error err => cases hsends
    | _ => cases hsends
  obtain ⟨x, hx, hw⟩ := hallows hinitiates
  have hpast : (⟨e.tid, x.stmt, x.answer⟩ : Entry sagaEffects) ∈ c.world.history :=
    hhist ▸ List.mem_append_right _ (List.mem_cons_of_mem _ (mem_of_trail hx))
  exact (recorded h).reservation _ hpast hw

end SettlementOS.Analysis
