import SettlementOS.Analysis.Escrow
import SettlementOS.Computation.Counting
import SettlementOS.Program.Allowances

/-!
# How an allowance is granted and drawn

An approval sets the allowance to the amount of its payment and an escrow draws its amount from it.
A payment escrows only after a look at the allowance that covers its amount: the reading that
spared it an approval, or the approval. Where nobody else has granted or drawn since, the allowance
still is what the look said, and the escrow goes through.
-/

set_option autoImplicit false

namespace SettlementOS.Analysis

open SettlementOS.Computation Service Model.Allowances Program.Allowances
open SettlementOS.Contracts (Address Bytes32 MockERC20 Outside)
open SettlementOS.Contracts.Escrow (machine)
open Model (AssetSymbol AuditRecord Err Hash)

variable {contract : Address}

/-! ## The allowance a history leaves -/

/-- Whether an approval or an escrow took place. -/
def moved : Event (allowanceEffects contract) → Bool
  | ⟨.approve .., .ok _⟩ => true
  | ⟨.initiatePayment .., .ok _⟩ => true
  | _ => false

/-- What the allowance is after a statement, when it was `allowed` before. -/
def allowedBy (allowed : ℕ) : Event (allowanceEffects contract) → ℕ
  | ⟨.approve _ _ amount, .ok _⟩ => amount
  | ⟨.initiatePayment _ _ _ _ amount _ _, .ok _⟩ =>
    if allowed = Uint256.max.val then allowed else allowed - amount
  | _ => allowed

/-- The allowance after a history that began with none. -/
def allowedAfter : List (Entry (allowanceEffects contract)) → ℕ
  | [] => 0
  | e :: h => allowedBy (allowedAfter h) ⟨e.stmt, e.answer⟩

/-- What a payment sees of the allowance: what it reads, or what it approves. -/
def seen : Event (allowanceEffects contract) → Option ℕ
  | ⟨.allowance .., .ok allowed⟩ => some allowed
  | ⟨.approve _ _ amount, .ok _⟩ => some amount
  | _ => none

/-- An escrow that is tried, of something. -/
def attempts : Event (allowanceEffects contract) → Bool
  | ⟨.initiatePayment _ _ _ _ amount _ _, _⟩ => decide (0 < amount)
  | _ => false

/-- What an escrow that took place has drawn. -/
def drawnBy : Event (allowanceEffects contract) → ℕ
  | ⟨.initiatePayment _ _ _ _ amount _ _, .ok _⟩ => amount
  | _ => 0

/-- What the escrows of a history have drawn. -/
def drawn (h : List (Entry (allowanceEffects contract))) : ℕ :=
  (h.map fun e => drawnBy ⟨e.stmt, e.answer⟩).sum

/-- What has come since program `i` last looked at the allowance. -/
def sinceLook (i : ℕ) : List (Entry (allowanceEffects contract)) →
    List (Entry (allowanceEffects contract))
  | [] => []
  | e :: h =>
    if e.tid = i ∧ (seen ⟨e.stmt, e.answer⟩).isSome = true then [] else e :: sinceLook i h

/-- No escrow is tried after another payment has granted or drawn since its last look. -/
def Uninterrupted : List (Entry (allowanceEffects contract)) → Prop
  | [] => True
  | e :: h => (attempts ⟨e.stmt, e.answer⟩ = true → ∀ e' ∈ sinceLook e.tid h,
      moved ⟨e'.stmt, e'.answer⟩ = true → e'.tid = e.tid) ∧ Uninterrupted h

instance decidableUninterrupted : (h : List (Entry (allowanceEffects contract))) →
    Decidable (Uninterrupted h)
  | [] => .isTrue trivial
  | _ :: h => @instDecidableAnd _ _ inferInstance (decidableUninterrupted h)

/-- An escrow that was refused for lack of allowance. -/
def lacksAllowance : Event (allowanceEffects contract) → Bool
  | ⟨.initiatePayment .., .error e⟩ =>
    decide (e = Model.Treasury.refusal (.reason "ERC20: insufficient allowance"))
  | _ => false

/-- What is drawn adds up entry by entry. -/
theorem drawn_cons (e : Entry (allowanceEffects contract))
    (h : List (Entry (allowanceEffects contract))) :
    drawn (e :: h) = drawnBy ⟨e.stmt, e.answer⟩ + drawn h := List.sum_cons

/-- What was not interrupted was not before. -/
theorem Uninterrupted.tail {l h : List (Entry (allowanceEffects contract))}
    (hu : Uninterrupted (l ++ h)) : Uninterrupted h := by
  induction l with
  | nil => exact hu
  | cons e l ih => exact ih hu.2

/-- An event that moves no allowance leaves it as it was. -/
theorem allowedBy_quiet {e : Event (allowanceEffects contract)} (h : moved e = false)
    (allowed : ℕ) : allowedBy allowed e = allowed := by
  obtain ⟨o, r⟩ := e
  cases o <;> cases r <;> first | rfl | cases h

/-- What a payment has seen last is what the allowance still is, when nobody has granted or drawn
since and whoever read it read it as it was. -/
theorem allowedAfter_of_look {i allowed : ℕ} {h : List (Entry (allowanceEffects contract))}
    (hseen : (trail i h).findSome? seen = some allowed)
    (hreads : ∀ l e past, h = l ++ e :: past → ∀ token owner n,
      (⟨e.stmt, e.answer⟩ : Event (allowanceEffects contract)) = ⟨.allowance token owner, .ok n⟩ →
      n = allowedAfter past)
    (hquiet : ∀ e ∈ sinceLook i h, moved ⟨e.stmt, e.answer⟩ = false) :
    allowedAfter h = allowed := by
  induction h with
  | nil => cases hseen
  | cons e h ih =>
    by_cases hlook : e.tid = i ∧ (seen ⟨e.stmt, e.answer⟩).isSome = true
    · obtain ⟨hown, hsome⟩ := hlook
      rw [trail_own hown] at hseen
      obtain ⟨tid, o, r⟩ := e
      cases o with
      | allowance token owner =>
        cases r with
        | ok n =>
          have hread : n = allowedAfter h := hreads [] _ h rfl token owner n rfl
          have hn : n = allowed := Option.some.inj hseen
          show allowedAfter h = allowed
          rw [← hread, hn]
        | error e => cases hsome
      | approve token owner amount =>
        cases r with
        | ok hash => exact Option.some.inj hseen
        | error e => cases hsome
      | audit record => cases hsome
      | initiatePayment => cases hsome
    · have hsince : sinceLook i (e :: h) = e :: sinceLook i h := if_neg hlook
      rw [hsince] at hquiet
      have hstill : moved ⟨e.stmt, e.answer⟩ = false := hquiet e List.mem_cons_self
      have hrest : (trail i h).findSome? seen = some allowed := by
        by_cases hown : e.tid = i
        · have hnone : seen ⟨e.stmt, e.answer⟩ = none := by
            by_contra hne
            exact hlook ⟨hown, Option.isSome_iff_ne_none.mpr hne⟩
          rw [trail_own hown, List.findSome?_cons, hnone] at hseen
          exact hseen
        · rwa [trail_other hown] at hseen
      rw [allowedAfter, allowedBy_quiet hstill]
      exact ih hrest (fun l e' past heq => hreads (e :: l) e' past (by rw [heq]; rfl))
        fun e' he' => hquiet e' (List.mem_cons_of_mem e he')

/-! ## What a payment does -/

open Law

/-- An escrow that took place. -/
def escrowed : Event (allowanceEffects contract) → Bool
  | ⟨.initiatePayment .., .ok _⟩ => true
  | _ => false

/-- A statement that threw. -/
def failed : Event (allowanceEffects contract) → Bool
  | ⟨_, .error _⟩ => true
  | _ => false

/-- A payment reads the allowance first, approves its amount if that is more, and escrows once it
has seen enough. -/
def escrowLaw (token : Address) (owner : Outside contract) (p : Payment) :
    Law (allowanceEffects contract) where
  Answers _ _ := True
  Allows past e :=
    match e.stmt with
    | .allowance asset account => asset = token ∧ account = owner ∧ past = []
    | .approve asset account amount => asset = token ∧ account = owner ∧ amount = p.amountUnits ∧
        ∃ allowed, past = [⟨.allowance token owner, .ok allowed⟩] ∧ allowed < amount
    | .audit _ => True
    | .initiatePayment id sender _ asset amount _ _ =>
        id = p.onchainId ∧ sender = owner.val ∧ asset = token ∧ amount = p.amountUnits ∧
          (∃ allowed, past.findSome? seen = some allowed ∧ amount ≤ allowed) ∧
          ∀ e ∈ past, escrowed e = false

/-- The trail ends with something of a kind. -/
def EndsWith (k : Event (allowanceEffects contract) → Bool)
    (past : List (Event (allowanceEffects contract))) : Prop :=
  ∃ e rest, past = e :: rest ∧ k e = true

/-- A payment has seen that its amount is allowed, and has escrowed nothing. -/
def Looked (p : Payment) (past : List (Event (allowanceEffects contract))) : Prop :=
  (∃ allowed, past.findSome? seen = some allowed ∧ p.amountUnits ≤ allowed) ∧
    ∀ e ∈ past, escrowed e = false

section

variable {env : Env} {sender : Sender} {symbol : AssetSymbol}
variable {token : Model.Treasury.DeployedToken} {owner : Outside env.contract} {p : Payment}
variable {past : List (Event (allowanceEffects env.contract))}

/-- What nothing is seen by leaves what has been seen. -/
theorem Looked.cons {e : Event (allowanceEffects env.contract)} (h : Looked p past)
    (hseen : seen e = none) (he : escrowed e = false) : Looked p (e :: past) := by
  obtain ⟨⟨allowed, hlast, hle⟩, hnot⟩ := h
  refine ⟨⟨allowed, ?_, hle⟩, fun e' he' => ?_⟩
  · rw [List.findSome?_cons, hseen]
    exact hlast
  · rcases List.mem_cons.mp he' with rfl | he'
    · exact he
    · exact hnot e' he'

/-- Every attempt at the escrow comes after the same look. -/
theorem keeps_retry (isTransient : String → Bool) (retries : ℕ) (h : Looked p past) :
    (escrowLaw token.address owner p).Keeps (fun _ => EndsWith escrowed)
      (fun _ => EndsWith failed)
      (retryOnReplicaLag (call (.initiatePayment p.onchainId owner.val p.recipientWallet
        token.address p.amountUnits p.sourceCurrency p.destinationCurrency)) isTransient retries)
      past := by
  induction retries generalizing past with
  | zero =>
    rintro r -
    refine ⟨⟨rfl, rfl, rfl, rfl, h⟩, ?_⟩
    cases r with
    | ok hash => exact ⟨_, past, rfl, rfl⟩
    | error e => exact ⟨_, past, rfl, rfl⟩
  | succ retries ih =>
    apply keeps_handle
    rintro r -
    refine ⟨⟨rfl, rfl, rfl, rfl, h⟩, ?_⟩
    cases r with
    | ok hash => exact ⟨_, past, rfl, rfl⟩
    | error e =>
      show Law.Keeps _ _ _ (if _ then _ else _) _
      split
      · exact ih (h.cons rfl rfl)
      · exact ⟨_, past, rfl, rfl⟩

/-- Before its escrow a payment has seen that its amount is allowed. -/
theorem keeps_grantAllowance (htoken : env.tokens symbol = some token)
    (howner : env.entityWallets sender.externalId = some owner) :
    (escrowLaw token.address owner p).Keeps (fun _ => Looked p) (fun _ => EndsWith failed)
      (grantAllowance env sender symbol p) [] := by
  have hprepared : tokenOn env symbol = .ok token := by
    unfold tokenOn
    rw [htoken]
  have hwallet : walletOf env sender.externalId = .ok owner := by
    unfold walletOf
    rw [howner]
  apply keeps_bind
  unfold ensureSenderAllowance
  rw [hprepared, hwallet]
  rintro r -
  refine ⟨⟨rfl, rfl, rfl⟩, ?_⟩
  cases r with
  | error e => exact ⟨_, [], rfl, rfl⟩
  | ok allowed =>
    show Law.Keeps _ _ _ (if p.amountUnits ≤ allowed then _ else _) _
    split
    · rename_i hle
      exact ⟨⟨allowed, rfl, hle⟩, fun e he => by rw [List.mem_singleton.mp he]; rfl⟩
    · rename_i hlt
      rintro r -
      refine ⟨⟨rfl, rfl, rfl, allowed, rfl, Nat.lt_of_not_le hlt⟩, ?_⟩
      cases r with
      | error e => exact ⟨_, _, rfl, rfl⟩
      | ok hash =>
        have hlooked : Looked p [⟨.approve token.address owner p.amountUnits, .ok hash⟩,
            ⟨.allowance token.address owner, .ok allowed⟩] := by
          refine ⟨⟨p.amountUnits, rfl, le_refl _⟩, fun e he => ?_⟩
          rcases List.mem_cons.mp he with rfl | he
          · rfl
          · rw [List.mem_singleton.mp he]
            rfl
        rintro r -
        refine ⟨trivial, ?_⟩
        cases r with
        | error e => exact ⟨_, _, rfl, rfl⟩
        | ok _ => exact hlooked.cons rfl rfl

/-- A payment keeps its law; it returns with its escrow, and throws what a statement has thrown. -/
theorem keeps_allowThenEscrow (htoken : env.tokens symbol = some token)
    (howner : env.entityWallets sender.externalId = some owner)
    (hregistered : sender.wallet = owner.val) :
    (escrowLaw token.address owner p).Keeps (fun _ => EndsWith escrowed)
      (fun _ => EndsWith failed) (allowThenEscrow env sender symbol p) [] := by
  refine keeps_bind (keeps_mono (keeps_grantAllowance htoken howner) (fun _ past h => ?_)
    fun _ _ h => h)
  have hprepared : tokenOn env symbol = .ok token := by
    unfold tokenOn
    rw [htoken]
  rw [hprepared]
  show Law.Keeps _ _ _ (initiatePayment env sender token.address p) past
  unfold initiatePayment
  rw [hregistered]
  exact keeps_retry _ _ h

end

end SettlementOS.Analysis
