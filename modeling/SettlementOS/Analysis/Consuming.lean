import SettlementOS.Analysis.Drawing

/-!
# Escrows that nobody disturbs

Where no other payment grants or draws between a payment's last look and its escrow, no escrow of
something fails: it is allowed, and what the sender has covers it beside all that has been drawn.
What stays allowed is then the approval of a payment that is not done, and nothing once all are.
-/

set_option autoImplicit false

namespace SettlementOS.Analysis

open SettlementOS.Computation Service Law Model.Allowances Program.Allowances
open SettlementOS.Contracts (Address Bytes32 MockERC20 Outside)
open Model (AssetSymbol Err Hash)

/-! ## What one payment draws -/

section

variable {contract : Address} {token : Address} {owner : Outside contract} {p : Payment}

/-- What is not escrowed draws nothing. -/
theorem drawnBy_of_not_escrowed {e : Event (allowanceEffects contract)}
    (h : escrowed e = false) : drawnBy e = 0 := by
  obtain ⟨o, r⟩ := e
  cases o <;> cases r <;> first | rfl | cases h

/-- What escrows nothing draws nothing together. -/
theorem sum_drawnBy {l : List (Event (allowanceEffects contract))}
    (h : ∀ e ∈ l, escrowed e = false) : (l.map drawnBy).sum = 0 := by
  refine List.sum_eq_zero fun n hn => ?_
  obtain ⟨e, he, rfl⟩ := List.mem_map.mp hn
  exact drawnBy_of_not_escrowed (h e he)

/-- A payment draws its amount at most. -/
theorem drawn_le_amount {l : List (Event (allowanceEffects contract))}
    (h : (escrowLaw token owner p).Obeyed l) : (l.map drawnBy).sum ≤ p.amountUnits := by
  induction l with
  | nil => exact Nat.zero_le _
  | cons e l ih =>
    rw [List.map_cons, List.sum_cons]
    obtain ⟨hallows, hrest⟩ := h
    by_cases hescrowed : escrowed e = true
    · obtain ⟨o, r⟩ := e
      cases o with
      | initiatePayment id payer recipient asset amount source destination =>
        obtain ⟨-, -, -, hamount, -, hnone⟩ := hallows
        cases r with
        | ok hash =>
          rw [sum_drawnBy hnone]
          exact le_of_eq hamount
        | error e => cases hescrowed
      | _ => cases hescrowed
    · rw [drawnBy_of_not_escrowed (Bool.eq_false_iff.mpr hescrowed), Nat.zero_add]
      exact ih hrest

end

/-! ## What all payments draw -/

variable {env : Env} {sender : Sender} {symbol : AssetSymbol} {asset : Model.Treasury.DeployedToken}
variable {owner : Outside env.contract} {s : State env.contract}
variable {c : (service env sender symbol).Config}

/-- The sender has what the payments add up to, and the payments are different and new. -/
structure Covered (asset : Address) (owner : Outside env.contract) (s : State env.contract)
    (payments : List Payment) : Prop where
  funds : (payments.map Payment.amountUnits).sum ≤ s.balance asset owner.val
  distinct : (payments.map Payment.onchainId).Nodup
  fresh : ∀ p ∈ payments, (s.chain.world.storage.payments p.onchainId).state = .NONE

/-- The payments of a run. -/
def paymentsOf (c : (service env sender symbol).Config) : List Payment := c.threads.map (·.request)

/-- A balance fits into a word. -/
theorem balance_lt {contract : Address} (s : State contract) (token owner : Address) :
    s.balance token owner < 2 ^ 256 := by
  unfold State.balance
  split
  · exact Fin.isLt _
  · exact Nat.two_pow_pos 256

/-- One payment is covered. -/
theorem Covered.amount_le {payments : List Payment} (h : Covered asset.address owner s payments)
    {p : Payment} (hp : p ∈ payments) : p.amountUnits ≤ s.balance asset.address owner.val :=
  (List.single_le_sum (fun _ _ => Nat.zero_le _) _ (List.mem_map_of_mem hp)).trans h.funds

/-- What a payment that has escrowed nothing is for is covered beside all that has been drawn. -/
theorem covered_beside (hprepared : Prepared env sender symbol asset owner s)
    (hreach : (Config.start (S := service env sender symbol) s).Reaches c)
    (hcovered : Covered asset.address owner s (paymentsOf c))
    {l past : List (Entry (allowanceEffects env.contract))} (heq : c.world.history = l ++ past)
    {i : ℕ} {t : (service env sender symbol).Thread} (ht : c.threads[i]? = some t)
    (hnone : ∀ e ∈ trail i past, escrowed e = false) :
    drawn past + t.request.amountUnits ≤ s.balance asset.address owner.val := by
  have hlawful := lawful_escrows hprepared hreach
  have hlength : ((paymentsOf c).map Payment.amountUnits).length = c.threads.length := by
    rw [List.length_map, paymentsOf, List.length_map]
  have hshare : ∀ j t', c.threads[j]? = some t' →
      ((paymentsOf c).map Payment.amountUnits).getD j 0 = t'.request.amountUnits := by
    intro j t' ht'
    unfold paymentsOf
    rw [List.getD_eq_getElem?_getD, List.getElem?_map, List.getElem?_map, ht']
    rfl
  have hknown : ∀ e ∈ past, e.tid < ((paymentsOf c).map Payment.amountUnits).length := by
    intro e he
    rw [hlength]
    exact hlawful.known e (heq ▸ List.mem_append_right l he)
  have hle : ∀ j < ((paymentsOf c).map Payment.amountUnits).length,
      ((trail j past).map drawnBy).sum ≤ ((paymentsOf c).map Payment.amountUnits).getD j 0 := by
    intro j hj
    rw [hlength] at hj
    have htj : c.threads[j]? = some c.threads[j] := List.getElem?_eq_getElem hj
    have hobeyed := hlawful.obeyed j _ htj
    rw [heq, trail_append] at hobeyed
    rw [hshare j _ htj]
    exact drawn_le_amount hobeyed.tail
  have hi : i < ((paymentsOf c).map Payment.amountUnits).length := by
    rw [hlength]
    exact (List.getElem?_eq_some_iff.mp ht).1
  have hspent := spent_add_le hknown hle hi (sum_drawnBy hnone)
  rw [hshare i t ht] at hspent
  exact hspent.trans hcovered.funds

/-- Two payments of a run with one id are the same. -/
theorem Covered.same {payments : List Payment} (h : Covered asset.address owner s payments)
    {i j : ℕ} {p q : Payment} (hp : payments[i]? = some p) (hq : payments[j]? = some q)
    (hid : p.onchainId = q.onchainId) : i = j := by
  have hlt : i < (payments.map Payment.onchainId).length := by
    rw [List.length_map]
    exact (List.getElem?_eq_some_iff.mp hp).1
  refine (List.getElem?_inj hlt h.distinct).mp ?_
  rw [List.getElem?_map, List.getElem?_map, hp, hq]
  exact congrArg some hid

/-- A payment that has escrowed nothing has no record in escrow. -/
theorem unrecorded (hprepared : Prepared env sender symbol asset owner s)
    (hreach : (Config.start (S := service env sender symbol) s).Reaches c)
    (hcovered : Covered asset.address owner s (paymentsOf c))
    {l past : List (Entry (allowanceEffects env.contract))} (heq : c.world.history = l ++ past)
    {i : ℕ} {t : (service env sender symbol).Thread} (ht : c.threads[i]? = some t)
    (hnone : ∀ e ∈ trail i past, escrowed e = false) {s₁ : State env.contract}
    (htracked : Tracked env asset.address owner s s₁ past) :
    (s₁.chain.world.storage.payments t.request.onchainId).state = .NONE := by
  by_contra hstate
  rcases htracked.fresh _ hstate with hold | ⟨e, he, hrecorded⟩
  · exact hold (hcovered.fresh _ (List.mem_map_of_mem (List.mem_of_getElem? ht)))
  obtain ⟨since, before, rfl⟩ := List.append_of_mem he
  obtain ⟨t', ht', hallows⟩ := (lawful_escrows hprepared hreach).allows
    (l := l ++ since) (heq.trans (List.append_assoc _ _ _).symm)
  have htrail := mem_own_trail he
  obtain ⟨j, o, r⟩ := e
  cases o with
  | initiatePayment id payer recipient token amount source destination =>
    cases r with
    | ok hash =>
      obtain ⟨hid, -⟩ := hallows
      have hpayment : ∀ (k : ℕ) (t : (service env sender symbol).Thread),
          c.threads[k]? = some t → (paymentsOf c)[k]? = some t.request := by
        intro k t hk
        rw [paymentsOf, List.getElem?_map, hk]
        rfl
      have hsame : j = i := hcovered.same (hpayment j t' ht') (hpayment i t ht)
        (hid.symm.trans (Option.some.inj hrecorded))
      subst hsame
      have hfalse : true = false := hnone _ htrail
      cases hfalse
    | error e => cases hrecorded
  | _ => cases hrecorded

/-! ## No escrow of something fails -/

/-- What is refused is an escrow of nothing. -/
def RefusedAsZero (e : Event (allowanceEffects env.contract)) : Prop :=
  ∃ id payer recipient token source destination,
    e = ⟨.initiatePayment id payer recipient token 0 source destination,
      .error (Model.Treasury.refusal (.reason "zero amount"))⟩

/-- An escrow of nothing of a new payment is refused as such. -/
theorem perform_zero {s₁ : State env.contract} {token : Address} {id : Bytes32}
    (payer recipient : Address) (source destination : String)
    (hop : s₁.chain.world.storage.operators env.operator.val = true)
    (hnone : (s₁.chain.world.storage.payments id).state = .NONE)
    (happroved : s₁.chain.world.storage.approvedAssets token = true) :
    (perform env (.initiatePayment id payer recipient token 0 source destination) s₁).1 =
      .error (Model.Treasury.refusal (.reason "zero amount")) := by
  have hencode : Model.Treasury.encode ((0 : ℕ) : ℤ) = .ok ⟨0, Nat.two_pow_pos 256⟩ :=
    encode_natCast (Nat.two_pow_pos 256)
  have hexec : Contracts.Escrow.exec env.contract s₁.chain.world ⟨env.operator,
      .initiatePayment id payer recipient token ⟨0, Nat.two_pow_pos 256⟩ source destination⟩ =
        .error (.reason "zero amount") := by
    unfold Contracts.Escrow.exec
    dsimp only
    unfold Contracts.Escrow.initiatePayment Contracts.Escrow.onlyOperator
    rw [require_then hop, require_then hnone, require_then happroved,
      require_fails (Nat.lt_irrefl 0)]
  simp only [perform, hencode]
  rw [submit_error hexec]

/-- An escrow of something, of a new payment, that is allowed and covered goes through. -/
theorem perform_initiate {s₁ : State env.contract} {token : Address} {t : MockERC20} {id : Bytes32}
    {amount : ℕ} (recipient : Address) (source destination : String)
    (hop : s₁.chain.world.storage.operators env.operator.val = true)
    (hnone : (s₁.chain.world.storage.payments id).state = .NONE)
    (happroved : s₁.chain.world.storage.approvedAssets token = true) (hpos : 0 < amount)
    (ht : s₁.chain.world.tokens token = some t) (hsound : Sound env.contract t)
    (hallowed : amount ≤ (t.allowance owner.val env.contract).val)
    (hcovered : amount ≤ (t.balanceOf owner.val).val) :
    ∃ hash, (perform env (.initiatePayment id owner.val recipient token amount source destination)
      s₁).1 = .ok hash := by
  have hlt : amount < 2 ^ 256 := Nat.lt_of_le_of_lt hcovered (Fin.isLt _)
  have hgoes : ∃ r, Contracts.Escrow.initiatePayment env.contract s₁.chain.world env.operator.val id
      owner.val recipient token ⟨amount, hlt⟩ source destination = .ok r :=
    initiatePayment_succeeds recipient source destination hop hnone happroved hpos ht hsound
      owner.property hallowed hcovered
  obtain ⟨⟨w, logs⟩, hexec⟩ := hgoes
  have hsubmit := submit_ok (s := s₁) (c := ⟨env.operator, .initiatePayment id owner.val recipient
    token ⟨amount, hlt⟩ source destination⟩) hexec
  refine ⟨s₁.chain.receipts.length, ?_⟩
  simp only [perform, encode_natCast hlt]
  rw [hsubmit]

/-- What moves the allowance is an approval, which is seen, or an escrow. -/
theorem seen_or_escrowed {contract : Address} {e : Event (allowanceEffects contract)}
    (h : moved e = true) : (seen e).isSome = true ∨ escrowed e = true := by
  obtain ⟨o, r⟩ := e
  cases o with
  | approve token owner amount =>
    cases r with
    | ok hash => exact .inl rfl
    | error e => cases h
  | initiatePayment id payer recipient token amount source destination =>
    cases r with
    | ok hash => exact .inr rfl
    | error e => cases h
  | _ => cases h

/-- What comes since the last look of a payment that has escrowed nothing, and is not moved by
others, moves nothing. -/
theorem quiet_since {p : Payment} {token : Address} {i : ℕ}
    {h : List (Entry (allowanceEffects env.contract))}
    (hobeyed : (escrowLaw token owner p).Obeyed (trail i h))
    (hnone : ∀ e ∈ trail i h, escrowed e = false)
    (hothers : ∀ e ∈ sinceLook i h, moved ⟨e.stmt, e.answer⟩ = true → e.tid = i) :
    ∀ e ∈ sinceLook i h, moved ⟨e.stmt, e.answer⟩ = false := by
  induction h with
  | nil => exact fun e he => absurd he List.not_mem_nil
  | cons e h ih =>
    by_cases hlook : e.tid = i ∧ (seen ⟨e.stmt, e.answer⟩).isSome = true
    · have hsince : sinceLook i (e :: h) = [] := if_pos hlook
      rw [hsince]
      exact fun e he => absurd he List.not_mem_nil
    · have hsince : sinceLook i (e :: h) = e :: sinceLook i h := if_neg hlook
      rw [hsince] at hothers ⊢
      have hrest : ∀ e' ∈ sinceLook i h, moved ⟨e'.stmt, e'.answer⟩ = false := by
        refine ih ?_ (fun x hx => hnone x ?_) fun e' he' =>
          hothers e' (List.mem_cons_of_mem e he')
        · by_cases hown : e.tid = i
          · rw [trail_own hown] at hobeyed
            exact hobeyed.2
          · rwa [trail_other hown] at hobeyed
        · by_cases hown : e.tid = i
          · rw [trail_own hown]
            exact List.mem_cons_of_mem _ hx
          · rwa [trail_other hown]
      intro e' he'
      rcases List.mem_cons.mp he' with rfl | he'
      · -- its own statement that moves the allowance is a look or an escrow
        by_contra hmoved
        have hmoves : moved ⟨e'.stmt, e'.answer⟩ = true := Bool.eq_true_of_not_eq_false hmoved
        have hown : e'.tid = i := hothers e' List.mem_cons_self hmoves
        rw [trail_own hown] at hnone
        rcases seen_or_escrowed hmoves with hseen | hescrowed
        · exact hlook ⟨hown, hseen⟩
        · rw [hnone _ List.mem_cons_self] at hescrowed
          cases hescrowed
      · exact hrest e' he'

/-- The state an entry was performed in. -/
theorem performed_in (hprepared : Prepared env sender symbol asset owner s)
    (hreach : (Config.start (S := service env sender symbol) s).Reaches c)
    {l past : List (Entry (allowanceEffects env.contract))}
    {e : Entry (allowanceEffects env.contract)} (heq : c.world.history = l ++ e :: past) :
    ∃ s₁, Tracked env asset.address owner s s₁ past ∧ (perform env e.stmt s₁).1 = e.answer := by
  obtain ⟨c₁, c₂, ch, hreach₁, hpast, -, -, hexec, -⟩ := hreach.at_entry heq
  refine ⟨c₁.world.state, hpast ▸ tracked_of_run hprepared hreach₁, ?_⟩
  exact congrArg Prod.fst (Option.some.inj hexec)

/-- Whoever read the allowance read it as it was. -/
theorem read_of_run (hprepared : Prepared env sender symbol asset owner s)
    (hreach : (Config.start (S := service env sender symbol) s).Reaches c)
    {l past : List (Entry (allowanceEffects env.contract))}
    {e : Entry (allowanceEffects env.contract)} (heq : c.world.history = l ++ e :: past)
    {token : Address} {account : Outside env.contract} {n : ℕ}
    (hread : (⟨e.stmt, e.answer⟩ : Event (allowanceEffects env.contract)) =
      ⟨.allowance token account, .ok n⟩) : n = allowedAfter past := by
  obtain ⟨s₁, htracked, hanswer⟩ := performed_in hprepared hreach heq
  obtain ⟨t, -, hallows⟩ := (lawful_escrows hprepared hreach).allows heq
  obtain ⟨i, o, r⟩ := e
  cases hread
  obtain ⟨rfl, rfl, -⟩ := hallows
  rw [perform_allowance htracked] at hanswer
  exact (Except.ok.inj hanswer).symm

/-- **No escrow of something fails** where nobody else grants or draws between a payment's last
look and its escrow. -/
theorem refused_as_zero (hprepared : Prepared env sender symbol asset owner s)
    (hreach : (Config.start (S := service env sender symbol) s).Reaches c)
    (hcovered : Covered asset.address owner s (paymentsOf c))
    (huninterrupted : Uninterrupted c.world.history)
    {l past : List (Entry (allowanceEffects env.contract))}
    {e : Entry (allowanceEffects env.contract)} (heq : c.world.history = l ++ e :: past)
    (hfailed : failed ⟨e.stmt, e.answer⟩ = true) :
    RefusedAsZero (⟨e.stmt, e.answer⟩ : Event (allowanceEffects env.contract)) := by
  have hlawful := lawful_escrows hprepared hreach
  obtain ⟨s₁, htracked, hanswer⟩ := performed_in hprepared hreach heq
  obtain ⟨t, ht, hallows⟩ := hlawful.allows heq
  have hobeyed := hlawful.obeyed e.tid t ht
  rw [heq] at huninterrupted
  obtain ⟨hothers, -⟩ := huninterrupted.tail
  obtain ⟨i, o, r⟩ := e
  obtain ⟨token, htoken, hallowed⟩ := token_of_allowance htracked.allowed
  have hamount : t.request.amountUnits < 2 ^ 256 :=
    Nat.lt_of_le_of_lt (hcovered.amount_le (List.mem_map_of_mem (List.mem_of_getElem? ht)))
      (balance_lt s asset.address owner.val)
  dsimp only at hanswer
  subst hanswer
  cases o with
  | allowance a account =>
    obtain ⟨rfl, rfl, -⟩ := hallows
    rw [perform_allowance htracked] at hfailed
    cases hfailed
  | approve a account amount =>
    obtain ⟨rfl, rfl, rfl, -⟩ := hallows
    simp only [perform, encode_natCast hamount] at hfailed
    rw [submit_ok (exec_approve account _ htoken)] at hfailed
    cases hfailed
  | audit record => cases hfailed
  | initiatePayment id payer recipient a amount source destination =>
    obtain ⟨rfl, rfl, rfl, rfl, ⟨allowed, hseen, hle⟩, hnone⟩ := hallows
    have hsplit := heq.trans (List.append_cons _ _ _)
    have hnew := unrecorded hprepared hreach hcovered hsplit ht hnone htracked
    rcases Nat.eq_zero_or_pos t.request.amountUnits with hzero | hpos
    · refine ⟨t.request.onchainId, owner.val, recipient, asset.address, source, destination, ?_⟩
      rw [hzero, perform_zero _ _ _ _ htracked.operator hnew htracked.approved]
    · -- what it has seen is still allowed, and what it needs is still there
      rw [hsplit, trail_append] at hobeyed
      have hquiet := quiet_since hobeyed.tail hnone (hothers (decide_eq_true hpos))
      have hstill : allowedAfter past = allowed := by
        refine allowedAfter_of_look hseen (fun l' e' past' hpast a account n hread => ?_) hquiet
        rw [hpast] at hsplit
        exact read_of_run hprepared hreach (hsplit.trans (List.append_assoc _ _ _).symm) hread
      have hbeside := covered_beside hprepared hreach hcovered hsplit ht hnone
      have hfunds := htracked.funds
      rw [balance_of_token htoken] at hfunds
      have hmay : t.request.amountUnits ≤ (token.allowance owner.val env.contract).val := by omega
      have hhas : t.request.amountUnits ≤ (token.balanceOf owner.val).val := by omega
      obtain ⟨hash, hok⟩ := perform_initiate recipient source destination htracked.operator hnew
        htracked.approved hpos htoken (htracked.kept.sound _ _ htoken) hmay hhas
      rw [hok] at hfailed
      cases hfailed

/-! ## Nothing stays allowed -/

/-- An approval of program `j` that nothing has moved since. -/
def Pending (h : List (Entry (allowanceEffects env.contract))) : Prop :=
  ∃ since j token account amount hash past,
    h = since ++ ⟨j, .approve token account amount, .ok hash⟩ :: past ∧
    (∀ e ∈ since, moved ⟨e.stmt, e.answer⟩ = false) ∧ allowedAfter h = amount

/-- Of two members of a list one comes before the other. -/
theorem before_or_behind {α : Type} {l past l' past' : List α} {a x : α}
    (h : l ++ a :: past = l' ++ x :: past') (hne : x ≠ a) :
    (∃ between, l = l' ++ x :: between) ∨ (a ∈ l' ∧ x ∈ past) := by
  rcases List.append_eq_append_iff.mp h with ⟨as, rfl, has⟩ | ⟨bs, rfl, hbs⟩
  · cases as with
    | nil => exact absurd (List.cons.inj has).1.symm hne
    | cons b as =>
      obtain ⟨rfl, rfl⟩ := List.cons.inj has
      exact .inr ⟨List.mem_append_right _ List.mem_cons_self,
        List.mem_append_right _ List.mem_cons_self⟩
  · cases bs with
    | nil => exact absurd (List.cons.inj hbs).1 hne
    | cons b bs =>
      obtain ⟨rfl, -⟩ := List.cons.inj hbs
      exact .inl ⟨bs, rfl⟩

/-- Once a payment that has approved is done, it has escrowed since. -/
theorem escrowed_since (hprepared : Prepared env sender symbol asset owner s)
    (hreach : (Config.start (S := service env sender symbol) s).Reaches c)
    (hcovered : Covered asset.address owner s (paymentsOf c))
    (huninterrupted : Uninterrupted c.world.history) (hended : ∀ t ∈ c.threads, t.ended = true)
    {l past : List (Entry (allowanceEffects env.contract))} {j amount : ℕ} {token : Address}
    {account : Outside env.contract} {hash : Hash}
    (heq : c.world.history = l ++ ⟨j, .approve token account amount, .ok hash⟩ :: past) :
    ∃ l₁ l₂ x, l = l₁ ++ x :: l₂ ∧ x.tid = j ∧ escrowed ⟨x.stmt, x.answer⟩ = true := by
  have hlawful := lawful_escrows hprepared hreach
  obtain ⟨t, ht, -, -, hamount, allowed, hpast, hlt⟩ := hlawful.allows heq
  have hkeeps := hlawful.keeps j t ht
  have hdone := hended t (List.mem_of_getElem? ht)
  obtain ⟨p, rest⟩ := t
  cases rest with
  | perform o k => cases hdone
  | ret hash' =>
    obtain ⟨⟨o, r⟩, rest, htrail, hescrowed⟩ := hkeeps
    obtain ⟨since, past', hlast, -, hsince⟩ := trail_eq_cons htrail
    have hne : (⟨j, o, r⟩ : Entry (allowanceEffects env.contract)) ≠
        ⟨j, .approve token account amount, .ok hash⟩ := by
      intro hsame
      cases hsame
      cases hescrowed
    obtain ⟨between, hl⟩ := (before_or_behind (heq.symm.trans hlast) hne).resolve_right
      fun h => hsince _ h.1 rfl
    exact ⟨since, between, _, hl, rfl, hescrowed⟩
  | throw e =>
    obtain ⟨x, rest, htrail, hfailed⟩ := hkeeps
    obtain ⟨since, past', hlast, -, -⟩ := trail_eq_cons htrail
    obtain ⟨t', ht', hallows⟩ := hlawful.allows hlast
    obtain rfl := Option.some.inj (ht'.symm.trans ht)
    obtain ⟨id, payer, recipient, a, source, destination, hzero⟩ :=
      refused_as_zero hprepared hreach hcovered huninterrupted hlast hfailed
    -- a payment that has approved is for something
    have hnothing : 0 = p.amountUnits := by
      obtain ⟨o, r⟩ := x
      cases hzero
      exact hallows.2.2.2.1
    have hsomething : 0 < p.amountUnits := hamount ▸ Nat.lt_of_le_of_lt (Nat.zero_le _) hlt
    exact absurd hnothing (Nat.ne_of_lt hsomething)

/-- An escrow that goes through is of something. -/
theorem initiate_pos {s₁ : State env.contract} {id : Bytes32} {payer recipient token : Address}
    {amount : ℕ} {source destination : String} {hash : Hash}
    (h : (perform env (.initiatePayment id payer recipient token amount source destination) s₁).1 =
      .ok hash) : 0 < amount := by
  simp only [perform] at h
  cases hencode : Model.Treasury.encode amount with
  | error e =>
    rw [hencode] at h
    cases h
  | ok word =>
    have hword : word.val = amount := Int.ofNat.inj (encode_ok hencode)
    rw [hencode] at h
    dsimp only at h
    cases hexec : Contracts.Escrow.exec env.contract s₁.chain.world ⟨env.operator,
      .initiatePayment id payer recipient token word source destination⟩ with
    | error e =>
      rw [submit_error hexec] at h
      cases h
    | ok r =>
      obtain ⟨w, logs⟩ := r
      exact hword ▸ (initiatePayment_ok hexec).2.1

/-- What is escrowed has moved the allowance. -/
theorem moved_of_escrowed {contract : Address} {e : Event (allowanceEffects contract)}
    (h : escrowed e = true) : moved e = true := by
  obtain ⟨o, r⟩ := e
  cases o <;> cases r <;> first | rfl | cases h

/-- An escrow of something is an attempt. -/
theorem attempts_of_escrowed (hprepared : Prepared env sender symbol asset owner s)
    (hreach : (Config.start (S := service env sender symbol) s).Reaches c)
    {l past : List (Entry (allowanceEffects env.contract))}
    {e : Entry (allowanceEffects env.contract)} (heq : c.world.history = l ++ e :: past)
    (h : escrowed ⟨e.stmt, e.answer⟩ = true) : attempts ⟨e.stmt, e.answer⟩ = true := by
  obtain ⟨s₁, -, hanswer⟩ := performed_in hprepared hreach heq
  obtain ⟨i, o, r⟩ := e
  cases o with
  | initiatePayment id payer recipient token amount source destination =>
    cases r with
    | ok hash => exact decide_eq_true (initiate_pos hanswer)
    | error e => cases h
  | _ => cases h

/-- A payment that has approved does not look again. -/
theorem unseen_after (hprepared : Prepared env sender symbol asset owner s)
    (hreach : (Config.start (S := service env sender symbol) s).Reaches c)
    {l past : List (Entry (allowanceEffects env.contract))}
    {e : Entry (allowanceEffects env.contract)} (heq : c.world.history = l ++ e :: past)
    {amount : ℕ} {token : Address} {account : Outside env.contract} {hash : Hash}
    (hmem : (⟨.approve token account amount, .ok hash⟩ : Event (allowanceEffects env.contract)) ∈
      trail e.tid past) : seen ⟨e.stmt, e.answer⟩ = none := by
  obtain ⟨t, -, hallows⟩ := (lawful_escrows hprepared hreach).allows heq
  obtain ⟨i, o, r⟩ := e
  cases o with
  | allowance a owner' =>
    obtain ⟨-, -, hfirst⟩ := hallows
    rw [hfirst] at hmem
    cases hmem
  | approve a owner' amount' =>
    obtain ⟨-, -, -, allowed, hsecond, -⟩ := hallows
    rw [hsecond] at hmem
    cases List.mem_singleton.mp hmem
  | _ => rfl

/-- What comes since a look comes after the others' statements as well. -/
theorem mem_sinceLook {contract : Address} {i : ℕ}
    {l past : List (Entry (allowanceEffects contract))} {e : Entry (allowanceEffects contract)}
    (hl : ∀ e' ∈ l, e'.tid = i → seen ⟨e'.stmt, e'.answer⟩ = none) (he : e.tid ≠ i) :
    e ∈ sinceLook i (l ++ e :: past) := by
  induction l with
  | nil =>
    have hsince : sinceLook i (e :: past) = e :: sinceLook i past :=
      if_neg fun h => he h.1
    exact hsince ▸ List.mem_cons_self
  | cons x l ih =>
    have hunseen : ¬ (x.tid = i ∧ (seen ⟨x.stmt, x.answer⟩).isSome = true) := by
      rintro ⟨hx, hsome⟩
      rw [hl x List.mem_cons_self hx] at hsome
      cases hsome
    have hsince : sinceLook i (x :: (l ++ e :: past)) = x :: sinceLook i (l ++ e :: past) :=
      if_neg hunseen
    rw [List.cons_append, hsince]
    exact List.mem_cons_of_mem x (ih fun e' he' => hl e' (List.mem_cons_of_mem x he'))

/-- Since its approval a payment has not looked at the allowance. -/
theorem unseen_since_approval (hprepared : Prepared env sender symbol asset owner s)
    (hreach : (Config.start (S := service env sender symbol) s).Reaches c)
    {later between past : List (Entry (allowanceEffects env.contract))} {j amount : ℕ}
    {token : Address} {account : Outside env.contract} {hash : Hash}
    (heq : c.world.history =
      later ++ (between ++ ⟨j, .approve token account amount, .ok hash⟩ :: past))
    {e : Entry (allowanceEffects env.contract)} (he : e ∈ between) (hown : e.tid = j) :
    seen ⟨e.stmt, e.answer⟩ = none := by
  obtain ⟨m, m', rfl⟩ := List.append_of_mem he
  have hthere : c.world.history =
      (later ++ m) ++ e :: (m' ++ ⟨j, .approve token account amount, .ok hash⟩ :: past) := by
    rw [heq]
    simp only [List.append_assoc, List.cons_append]
  have htrail : (⟨.approve token account amount, .ok hash⟩ :
      Event (allowanceEffects env.contract)) ∈
        trail e.tid (m' ++ ⟨j, .approve token account amount, .ok hash⟩ :: past) := by
    rw [hown]
    have hmem : (⟨j, .approve token account amount, .ok hash⟩ :
        Entry (allowanceEffects env.contract)) ∈
          m' ++ ⟨j, .approve token account amount, .ok hash⟩ :: past := by
      simp
    exact mem_own_trail hmem
  exact unseen_after hprepared hreach hthere htrail

/-- An escrow draws what the approval before it, of its own payment, has set; between another
payment's approval and that one's escrow there is none. -/
theorem own_approval (hprepared : Prepared env sender symbol asset owner s)
    (hreach : (Config.start (S := service env sender symbol) s).Reaches c)
    (hcovered : Covered asset.address owner s (paymentsOf c))
    (huninterrupted : Uninterrupted c.world.history) (hended : ∀ t ∈ c.threads, t.ended = true)
    {l since past : List (Entry (allowanceEffects env.contract))}
    {e : Entry (allowanceEffects env.contract)} {j amount : ℕ} {token : Address}
    {account : Outside env.contract} {hash : Hash} (heq : c.world.history =
      l ++ e :: (since ++ ⟨j, .approve token account amount, .ok hash⟩ :: past))
    (hescrowed : escrowed ⟨e.stmt, e.answer⟩ = true)
    (hsince : ∀ x ∈ since, moved ⟨x.stmt, x.answer⟩ = false) : e.tid = j := by
  by_contra hother
  have hsplit : c.world.history =
      (l ++ e :: since) ++ ⟨j, .approve token account amount, .ok hash⟩ :: past := by
    rw [heq, List.append_assoc, List.cons_append]
  obtain ⟨l₁, l₂, x, hx, hxj, hxescrowed⟩ :=
    escrowed_since hprepared hreach hcovered huninterrupted hended hsplit
  -- the escrow of the approved payment comes after this one
  have hxsince : x ∉ since := by
    intro hmem
    have hquiet := hsince x hmem
    rw [moved_of_escrowed hxescrowed] at hquiet
    cases hquiet
  obtain ⟨l₂', rfl⟩ := (before_or_behind hx fun h => hother (h ▸ hxj)).resolve_right
    fun h => hxsince h.2
  have hrun : c.world.history = l₁ ++ x :: (l₂' ++
      e :: (since ++ ⟨j, .approve token account amount, .ok hash⟩ :: past)) := by
    rw [heq, List.append_assoc, List.cons_append]
  have happroved : c.world.history = (l₁ ++ [x]) ++
      ((l₂' ++ e :: since) ++ ⟨j, .approve token account amount, .ok hash⟩ :: past) := by
    rw [hrun]
    simp
  have hunseen : ∀ e' ∈ l₂', e'.tid = x.tid → seen ⟨e'.stmt, e'.answer⟩ = none :=
    fun e' he' hown => unseen_since_approval hprepared hreach happroved
      (List.mem_append_left _ he') (hown.trans hxj)
  rw [hrun] at huninterrupted
  obtain ⟨hothers, -⟩ := huninterrupted.tail
  have hattempts := attempts_of_escrowed hprepared hreach hrun hxescrowed
  have hbetween : e ∈ sinceLook x.tid (l₂' ++
      e :: (since ++ ⟨j, .approve token account amount, .ok hash⟩ :: past)) :=
    mem_sinceLook hunseen fun h => hother (h.trans hxj)
  exact hother ((hothers hattempts e hbetween (moved_of_escrowed hescrowed)).trans hxj)

/-- Once all payments are done, what is allowed on the way is a pending approval. -/
theorem pending_of_allowed (hprepared : Prepared env sender symbol asset owner s)
    (hreach : (Config.start (S := service env sender symbol) s).Reaches c)
    (hcovered : Covered asset.address owner s (paymentsOf c))
    (huninterrupted : Uninterrupted c.world.history) (hended : ∀ t ∈ c.threads, t.ended = true)
    (hfinite : ∀ t ∈ c.threads, t.request.amountUnits ≠ Uint256.max.val)
    {l h : List (Entry (allowanceEffects env.contract))} (heq : c.world.history = l ++ h)
    (hpos : 0 < allowedAfter h) : Pending h := by
  induction h generalizing l with
  | nil => exact absurd hpos (Nat.lt_irrefl 0)
  | cons e h ih =>
    have ih' : 0 < allowedAfter h → Pending h := ih (heq.trans (List.append_cons _ _ _))
    have hlawful := lawful_escrows hprepared hreach
    obtain ⟨t, ht, hallows⟩ := hlawful.allows heq
    by_cases hmoved : moved ⟨e.stmt, e.answer⟩ = true
    · obtain ⟨i, o, r⟩ := e
      cases o with
      | approve token account amount =>
        cases r with
        | ok hash => exact ⟨[], i, token, account, amount, hash, h, rfl, by simp, rfl⟩
        | error e => cases hmoved
      | initiatePayment id payer recipient token amount source destination =>
        cases r with
        | ok hash =>
          exfalso
          have hbefore : 0 < allowedAfter h := by
            by_contra hzero
            have hnothing : allowedAfter h = 0 := by omega
            rw [allowedAfter, hnothing] at hpos
            revert hpos
            show ¬ 0 < (if 0 = Uint256.max.val then 0 else 0 - amount)
            split <;> omega
          obtain ⟨since, j, token', account, granted, hash', past, rfl, hquiet, hgranted⟩ :=
            ih' hbefore
          have hown : i = j :=
            own_approval hprepared hreach hcovered huninterrupted hended heq rfl hquiet
          subst hown
          -- what its own payment was granted is what it has drawn
          have hfirst := heq.trans (List.append_cons _ _ _)
          rw [← List.append_assoc] at hfirst
          obtain ⟨t', ht', -, -, hamount, -⟩ := hlawful.allows hfirst
          obtain rfl := Option.some.inj (ht'.symm.trans ht)
          have hdrawn : amount = t'.request.amountUnits := hallows.2.2.2.1
          have hmax := hfinite t' (List.mem_of_getElem? ht)
          rw [allowedAfter, hgranted] at hpos
          revert hpos
          show ¬ 0 < (if granted = Uint256.max.val then granted else granted - amount)
          rw [if_neg (hamount ▸ hmax), hamount, hdrawn, Nat.sub_self]
          exact Nat.lt_irrefl 0
        | error e => cases hmoved
      | _ => cases hmoved
    · have hstill : moved ⟨e.stmt, e.answer⟩ = false := Bool.eq_false_iff.mpr hmoved
      have hsame : allowedAfter (e :: h) = allowedAfter h := allowedBy_quiet hstill _
      rw [hsame] at hpos
      obtain ⟨since, j, token, account, amount, hash, past, rfl, hquiet, hamount⟩ := ih' hpos
      refine ⟨e :: since, j, token, account, amount, hash, past, rfl, fun x hx => ?_,
        hsame.trans hamount⟩
      rcases List.mem_cons.mp hx with rfl | hx
      · exact hstill
      · exact hquiet x hx

/-- **Nothing stays allowed** once all payments are done. -/
theorem allowedAfter_done (hprepared : Prepared env sender symbol asset owner s)
    (hreach : (Config.start (S := service env sender symbol) s).Reaches c)
    (hcovered : Covered asset.address owner s (paymentsOf c))
    (huninterrupted : Uninterrupted c.world.history) (hended : ∀ t ∈ c.threads, t.ended = true)
    (hfinite : ∀ t ∈ c.threads, t.request.amountUnits ≠ Uint256.max.val) :
    allowedAfter c.world.history = 0 := by
  by_contra hleft
  have hpos : 0 < allowedAfter c.world.history := Nat.pos_of_ne_zero hleft
  obtain ⟨since, j, token, account, amount, hash, past, hsplit, hquiet, -⟩ :=
    pending_of_allowed hprepared hreach hcovered huninterrupted hended hfinite
      (List.nil_append _).symm hpos
  obtain ⟨l₁, l₂, x, rfl, -, hescrowed⟩ :=
    escrowed_since hprepared hreach hcovered huninterrupted hended hsplit
  have hstill := hquiet x (List.mem_append_right _ List.mem_cons_self)
  rw [moved_of_escrowed hescrowed] at hstill
  cases hstill

end SettlementOS.Analysis
