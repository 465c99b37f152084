import Mathlib.Logic.Function.Iterate
import SettlementOS.Analysis.Fund
import SettlementOS.Analysis.Treasury
import SettlementOS.Computation.Counting

/-!
# How accruals add up

A call reads the index and writes the next day's, so the index after an accrual is the next day of
what the call has read. Where nobody else accrues between the two that is the next day of the
index, and as many days have passed as accruals have taken place; where somebody does, one day
fewer has.
-/

set_option autoImplicit false

namespace SettlementOS.Analysis

open SettlementOS.Computation Service Model.Treasury Program.Treasury
open Model (AuditRecord Err)

variable {env : Env} {rate : ℤ} {start : ℕ}

/-- The index a day later. -/
def nextDay (rate : ℤ) (index : ℕ) : ℕ := index + index * rate.toNat / dayScale

/-- An index that is worked out is the next day's. -/
theorem dailyIndex_ok {index index' : ℕ} (h : dailyIndex index rate = .ok index') :
    index' = nextDay rate index := by
  unfold dailyIndex at h
  split at h
  · cases h
  · exact (Except.ok.inj h).symm

/-! ## Accruals that took place -/

/-- The index an accrual has left, if the event is one that took place. -/
def leaves : Event treasuryEffects → Option ℕ
  | ⟨.accrue index, .ok _⟩ => some index
  | _ => none

/-- Whether the event is an accrual that took place. -/
def landed (e : Event treasuryEffects) : Bool := (leaves e).isSome

/-- How many accruals took place. -/
def accruals (h : List (Entry treasuryEffects)) : ℕ :=
  h.countP fun e => landed ⟨e.stmt, e.answer⟩

/-- The index after a history that began at `start`. -/
def indexAfter (start : ℕ) : List (Entry treasuryEffects) → ℕ
  | [] => start
  | e :: h => (leaves ⟨e.stmt, e.answer⟩).getD (indexAfter start h)

/-- An accrual that took place was answered with its hash. -/
theorem landed_eq {e : Event treasuryEffects} (h : landed e = true) :
    ∃ index hash, e = ⟨.accrue index, .ok hash⟩ := by
  obtain ⟨o, r⟩ := e
  cases o with
  | accrue index =>
    cases r with
    | ok hash => exact ⟨index, hash, rfl⟩
    | error e => cases h
  | _ => cases h

/-- Other kinds of statements are no accruals. -/
theorem landed_of_kind {o : Stmt} {r : Except Err o.Result} (h : treasuryKind o ≠ .accrue) :
    landed ⟨o, r⟩ = false := by
  cases o with
  | accrue index => exact absurd rfl h
  | _ => rfl

/-- What came since without an accrual has left the index alone. -/
theorem indexAfter_append {l h : List (Entry treasuryEffects)}
    (hl : ∀ e ∈ l, landed ⟨e.stmt, e.answer⟩ = false) :
    indexAfter start (l ++ h) = indexAfter start h := by
  induction l with
  | nil => rfl
  | cons e l ih =>
    have he : leaves ⟨e.stmt, e.answer⟩ = none :=
      Option.isNone_iff_eq_none.mp (by simpa [landed] using hl e List.mem_cons_self)
    rw [List.cons_append, indexAfter, he]
    exact ih fun e' he' => hl e' (List.mem_cons_of_mem e he')

/-- The accruals of two stretches add up. -/
theorem accruals_append (l h : List (Entry treasuryEffects)) :
    accruals (l ++ h) = accruals l + accruals h := List.countP_append

/-- Some accrual took place if there are any. -/
theorem accruals_pos {h : List (Entry treasuryEffects)} :
    0 < accruals h ↔ ∃ e ∈ h, landed ⟨e.stmt, e.answer⟩ = true := List.countP_pos_iff

/-- What comes before the first element of a kind is determined. -/
theorem eq_of_first {α : Type} {P : α → Prop} {l l' r r' : List α} {a a' : α}
    (h : l ++ a :: r = l' ++ a' :: r') (ha : P a) (ha' : P a') (hl : ∀ x ∈ l, ¬ P x)
    (hl' : ∀ x ∈ l', ¬ P x) : l = l' := by
  induction l generalizing l' with
  | nil =>
    cases l' with
    | nil => rfl
    | cons x l' =>
      obtain ⟨rfl, -⟩ := List.cons.inj h
      exact absurd ha (hl' _ List.mem_cons_self)
  | cons x l ih =>
    cases l' with
    | nil =>
      obtain ⟨rfl, -⟩ := List.cons.inj h
      exact absurd ha' (hl _ List.mem_cons_self)
    | cons y l' =>
      obtain ⟨rfl, htail⟩ := List.cons.inj h
      rw [ih htail (fun z hz => hl z (List.mem_cons_of_mem _ hz))
        fun z hz => hl' z (List.mem_cons_of_mem _ hz)]

/-! ## Histories of accruals -/

/-- An accrual of `e`'s program to the day after what it has read; `since` is what came between. -/
def DatedBy (rate : ℤ) (start : ℕ) (e : Entry treasuryEffects)
    (since past : List (Entry treasuryEffects)) : Prop :=
  ∃ read : Entry treasuryEffects, ∃ h, past = since ++ read :: h ∧ read.tid = e.tid ∧
    landed ⟨read.stmt, read.answer⟩ = false ∧
    leaves ⟨e.stmt, e.answer⟩ = some (nextDay rate (indexAfter start h))

/-- Every accrual wrote the day after what its call had read. -/
def Dated (rate : ℤ) (start : ℕ) (h : List (Entry treasuryEffects)) : Prop :=
  ∀ l e past, h = l ++ e :: past → landed ⟨e.stmt, e.answer⟩ = true →
    ∃ since, DatedBy rate start e since past ∧ ∀ e' ∈ since, e'.tid ≠ e.tid

/-- Some accrual took place between another one and what its call had read. -/
def Overlapped (h : List (Entry treasuryEffects)) : Prop :=
  ∃ l e since read past, h = l ++ e :: (since ++ read :: past) ∧
    landed ⟨e.stmt, e.answer⟩ = true ∧ read.tid = e.tid ∧ (∀ e' ∈ since, e'.tid ≠ e.tid) ∧
    0 < accruals since

/-- Without its newest entry a history is still dated. -/
theorem Dated.tail {e : Entry treasuryEffects} {h : List (Entry treasuryEffects)}
    (hd : Dated rate start (e :: h)) : Dated rate start h := by
  intro l e' past heq
  exact hd (e :: l) e' past (by rw [heq]; rfl)

/-- Accruals that overlapped still do. -/
theorem Overlapped.cons {e : Entry treasuryEffects} {h : List (Entry treasuryEffects)}
    (ho : Overlapped h) : Overlapped (e :: h) := by
  obtain ⟨l, e', since, read, past, rfl, hrest⟩ := ho
  exact ⟨e :: l, e', since, read, past, rfl, hrest⟩

/-- Nothing but accruals moves the index. -/
theorem indexAfter_cons {e : Entry treasuryEffects} {h : List (Entry treasuryEffects)}
    (he : landed ⟨e.stmt, e.answer⟩ = false) :
    indexAfter start (e :: h) = indexAfter start h :=
  indexAfter_append (l := [e]) fun e' he' => by rw [List.mem_singleton.mp he', he]

/-- Another entry leaves their number as it was. -/
theorem accruals_quiet {e : Entry treasuryEffects} {h : List (Entry treasuryEffects)}
    (he : landed ⟨e.stmt, e.answer⟩ = false) : accruals (e :: h) = accruals h :=
  List.countP_cons_of_neg (by simp [he])

/-- Each accrual counts as one. -/
theorem accruals_cons {e : Entry treasuryEffects} {h : List (Entry treasuryEffects)}
    (he : landed ⟨e.stmt, e.answer⟩ = true) : accruals (e :: h) = accruals h + 1 :=
  List.countP_cons_of_pos he

/-- Where no accrual took place since a read, the index is as it was. -/
theorem indexAfter_since {since past : List (Entry treasuryEffects)} {read : Entry treasuryEffects}
    (hnone : accruals since = 0) (hread : landed ⟨read.stmt, read.answer⟩ = false) :
    indexAfter start (since ++ read :: past) = indexAfter start past := by
  have hquiet : ∀ e ∈ since, landed ⟨e.stmt, e.answer⟩ = false := by
    intro e he
    by_contra hl
    have hpos := accruals_pos.mpr ⟨e, he, Bool.eq_true_of_not_eq_false hl⟩
    omega
  rw [indexAfter_append hquiet, indexAfter_cons hread]

/-- An entry that is no accrual overlaps with none. -/
theorem Overlapped.of_quiet {e : Entry treasuryEffects} {h : List (Entry treasuryEffects)}
    (ho : Overlapped (e :: h)) (he : landed ⟨e.stmt, e.answer⟩ = false) : Overlapped h := by
  obtain ⟨l, e', since, read, past, heq, he', hrest⟩ := ho
  cases l with
  | nil =>
    obtain ⟨rfl, -⟩ := List.cons.inj heq
    rw [he] at he'
    cases he'
  | cons e₁ l =>
    obtain ⟨rfl, rfl⟩ := List.cons.inj heq
    exact ⟨l, e', since, read, past, rfl, he', hrest⟩

/-- The newest accrual overlaps with one since its read, or only others overlap. -/
theorem Overlapped.since_or_tail {e read : Entry treasuryEffects}
    {since past : List (Entry treasuryEffects)} (ho : Overlapped (e :: (since ++ read :: past)))
    (hown : read.tid = e.tid) (hsince : ∀ e' ∈ since, e'.tid ≠ e.tid) :
    0 < accruals since ∨ Overlapped (since ++ read :: past) := by
  obtain ⟨l, e', since', read', past', heq, he', hown', hsince', hpos⟩ := ho
  cases l with
  | nil =>
    obtain ⟨rfl, htail⟩ := List.cons.inj heq
    obtain rfl := eq_of_first htail hown hown' hsince hsince'
    exact .inl hpos
  | cons e₁ l =>
    obtain ⟨rfl, htail⟩ := List.cons.inj heq
    exact .inr ⟨l, e', since', read', past', htail, he', hown', hsince', hpos⟩

/-- Without an overlap, as many days have passed as accruals have taken place. -/
theorem days_of_apart {h : List (Entry treasuryEffects)} (hd : Dated rate start h)
    (ho : ¬ Overlapped h) : indexAfter start h = (nextDay rate)^[accruals h] start := by
  induction h with
  | nil => rfl
  | cons e h ih =>
    have ih := ih hd.tail fun h' => ho h'.cons
    cases he : landed ⟨e.stmt, e.answer⟩ with
    | false => rw [indexAfter_cons he, accruals_quiet he, ih]
    | true =>
      obtain ⟨since, ⟨read, past, rfl, hown, hread, hleaves⟩, hsince⟩ := hd [] e h rfl he
      have hnone : accruals since = 0 := by
        by_contra hpos
        exact ho ⟨[], e, since, read, past, rfl, he, hown, hsince, Nat.pos_of_ne_zero hpos⟩
      rw [accruals_cons he, indexAfter, hleaves, Option.getD_some, Function.iterate_succ_apply',
        ← ih, indexAfter_since hnone hread]

/-- In any case at most as many days have passed as accruals have taken place, and with an overlap
fewer. -/
theorem days_le {h : List (Entry treasuryEffects)} (hd : Dated rate start h) :
    ∃ k, indexAfter start h = (nextDay rate)^[k] start ∧ k ≤ accruals h ∧
      (Overlapped h → k < accruals h) := by
  -- what a call has read may lie far back, so the induction is on the length of the history
  induction hn : h.length using Nat.strong_induction_on generalizing h with
  | _ n ih =>
    cases h with
    | nil =>
      refine ⟨0, rfl, Nat.le_refl _, ?_⟩
      rintro ⟨l, e, since, read, past, heq, -⟩
      exact absurd heq (by simp)
    | cons e h =>
      obtain ⟨k, hk, hle, hlt⟩ := ih h.length (by rw [← hn]; simp) hd.tail rfl
      cases he : landed ⟨e.stmt, e.answer⟩ with
      | false =>
        rw [indexAfter_cons he, accruals_quiet he]
        exact ⟨k, hk, hle, fun ho => hlt (ho.of_quiet he)⟩
      | true =>
        obtain ⟨since, ⟨read, past, rfl, hown, hread, hleaves⟩, hsince⟩ := hd [] e h rfl he
        have hpast : Dated rate start past := fun l e' p heq =>
          hd (e :: since ++ read :: l) e' p (by simp [heq])
        obtain ⟨j, hj, hjle, -⟩ := ih past.length (by rw [← hn]; simp; omega) hpast rfl
        have hcount : accruals (since ++ read :: past) = accruals since + accruals past := by
          rw [accruals_append, accruals_quiet hread]
        have hindex : indexAfter start (e :: (since ++ read :: past)) =
            (nextDay rate)^[j + 1] start := by
          rw [indexAfter, hleaves, Option.getD_some, hj, Function.iterate_succ_apply']
        rw [accruals_cons he]
        by_cases hover : 0 < accruals since
        · exact ⟨j + 1, hindex, by omega, fun _ => by omega⟩
        · -- the call has read what it found, so it went on from where the others had come to
          have hnext : indexAfter start (e :: (since ++ read :: past)) =
              (nextDay rate)^[k + 1] start := by
            rw [indexAfter, hleaves, Option.getD_some, Function.iterate_succ_apply', ← hk,
              indexAfter_since (by omega) hread]
          refine ⟨k + 1, hnext, by omega, fun ho => ?_⟩
          have hfewer := hlt ((ho.since_or_tail hown hsince).resolve_left hover)
          omega

/-! ## Days -/

/-- No day lowers the index. -/
theorem le_nextDay (index : ℕ) : index ≤ nextDay rate index := Nat.le_add_right _ _

/-- Nor do several. -/
theorem le_days (k : ℕ) : start ≤ (nextDay rate)^[k] start := by
  induction k with
  | zero => exact Nat.le_refl _
  | succ k ih =>
    rw [Function.iterate_succ_apply']
    exact Nat.le_trans ih (le_nextDay _)

/-- An index that gains something in a day gains something every day. -/
theorem days_strictMono (h : nextDay rate start ≠ start) :
    StrictMono fun k => (nextDay rate)^[k] start := by
  refine strictMono_nat_of_lt_succ fun k => ?_
  have hgain : start * rate.toNat / dayScale ≠ 0 := by
    intro hnone
    exact h (by rw [nextDay, hnone, Nat.add_zero])
  have hmore : start * rate.toNat / dayScale ≤ (nextDay rate)^[k] start * rate.toNat / dayScale :=
    Nat.div_le_div_right (Nat.mul_le_mul_right _ (le_days k))
  show (nextDay rate)^[k] start < (nextDay rate)^[k + 1] start
  rw [Function.iterate_succ_apply', nextDay]
  exact Nat.lt_add_of_pos_right (Nat.lt_of_lt_of_le (Nat.pos_of_ne_zero hgain) hmore)

/-- Accruals and days agree for an index that gains nothing, and where no two overlap. -/
theorem days_iff {h : List (Entry treasuryEffects)} (hd : Dated rate start h) :
    indexAfter start h = (nextDay rate)^[accruals h] start ↔
      nextDay rate start = start ∨ ¬ Overlapped h := by
  constructor
  · intro hdays
    by_contra hno
    obtain ⟨hgain, hover⟩ := not_or.mp hno
    obtain ⟨k, hk, -, hlt⟩ := days_le hd
    have heq : k = accruals h := (days_strictMono hgain).injective (hk.symm.trans hdays)
    have hless : k < accruals h := hlt (not_not.mp hover)
    omega
  · rintro (hfix | hapart)
    · obtain ⟨k, hk, -⟩ := days_le hd
      rw [hk, Function.iterate_fixed hfix, Function.iterate_fixed hfix]
    · exact days_of_apart hd hapart

/-! ## What the statements do to the index -/

/-- The index of the fund. -/
def indexOf (s : State) : ℕ := s.fund.storage.currentIndex.val

/-- A transaction on the fund that does not accrue. -/
theorem transactWith_index {s : State} {n : ℤ}
    {f : Uint256 → Except Revert (Contracts.Fund.World × List Contracts.Fund.Log)}
    (hf : ∀ amount w logs, f amount = .ok (w, logs) →
      w.storage.currentIndex = s.fund.storage.currentIndex) :
    indexOf (s.transactWith n f).2 = indexOf s := by
  unfold State.transactWith
  split
  · rfl
  · rename_i amount _
    unfold State.transact
    split
    · rfl
    · rename_i w logs hok
      exact congrArg Fin.val (hf amount w logs hok)

/-- An approval does not move the index. -/
theorem approve_index (s : State) (token : Contracts.Address) (amount : Uint256) :
    indexOf (s.approve env token amount).2 = indexOf s := by
  unfold State.approve
  dsimp only
  split <;> rfl

/-- The accrual writes the index it is given. -/
theorem accrue_index (s : State) (index : ℕ) :
    indexOf (perform env (.accrue index) s).2 =
      (leaves ⟨.accrue index, (perform env (.accrue index) s).1⟩).getD (indexOf s) := by
  simp only [perform, State.transactWith]
  cases hencode : encode index with
  | error e => rfl
  | ok word =>
    have hword : word.val = index := Int.ofNat.inj (encode_ok hencode)
    cases haccrue : Contracts.Fund.accrue s.fund env.signers.operator word with
    | error e =>
      simp only [State.transact, haccrue]
      rfl
    | ok r =>
      obtain ⟨w, logs⟩ := r
      simp only [State.transact, haccrue]
      simp only [Contracts.Fund.accrue, bind_eq_ok, require_eq_ok] at haccrue
      obtain ⟨_, _, _, _, heq⟩ := haccrue
      cases heq
      exact hword

/-- Nothing else touches the index, and a call that reads it gets it. -/
theorem perform_index (o : Stmt) (s : State) :
    indexOf (perform env o s).2 = (leaves ⟨o, (perform env o s).1⟩).getD (indexOf s) := by
  cases o with
  | accrue index => exact accrue_index s index
  | approve token amount =>
    simp only [perform]
    split
    · rfl
    · exact approve_index s token _
  | subscribe assetAmount =>
    refine transactWith_index fun amount w logs hok => ?_
    simp only [bind_eq_ok] at hok
    obtain ⟨⟨_, shares, _⟩, hsub, heq⟩ := hok
    cases heq
    obtain ⟨_, _, _, _, _, _, _, _, _, _, _, _, rfl⟩ := subscribe_ok hsub
    rfl
  | redeem shares =>
    refine transactWith_index fun amount w logs hok => ?_
    simp only [bind_eq_ok] at hok
    obtain ⟨⟨_, paid, _⟩, hred, heq⟩ := hok
    cases heq
    obtain ⟨_, _, _, _, _, _, _, _, _, rfl⟩ := redeem_ok hred
    rfl
  | recordRecall id txHash detail =>
    simp only [perform]
    split <;> rfl
  | _ => rfl

/-- A statement that is not left unconfirmed. -/
def Confirmed : (service env).Move → Prop
  | .perform _ (.unconfirmed _) => False
  | _ => True

/-- What an event says of the index it was performed at. -/
def Sees (start : ℕ) (e : Event treasuryEffects) (past : List (Entry treasuryEffects)) : Prop :=
  ∀ index, e = ⟨.currentIndex, .ok index⟩ → index = indexAfter start past

/-- Nothing that others do moves the index. -/
theorem interfere_index {x : Other} {s s' : State} (h : interfere env x s = some s') :
    indexOf s' = indexOf s := by
  cases x with
  | asset msgSender request =>
    simp only [interfere] at h
    split at h
    · cases h
    · split at h
      · cases h
      · cases h
        rfl
  | _ =>
    cases h
    rfl

/-- The history tells the index, and whoever read it read it as it was. -/
theorem index_of_run {s : State} {c : (service env).Config} {moves : List (service env).Move}
    (hconfirmed : ∀ m ∈ moves, Confirmed m)
    (hrun : (Config.start (S := service env) s).run moves = some c) :
    indexOf c.world.state = indexAfter (indexOf s) c.world.history ∧
      ∀ l e past, c.world.history = l ++ e :: past →
        Sees (indexOf s) ⟨e.stmt, e.answer⟩ past := by
  refine Config.run_induct (M := Confirmed) (P := fun c : (service env).Config =>
    indexOf c.world.state = indexAfter (indexOf s) c.world.history ∧
      ∀ l e past, c.world.history = l ++ e :: past →
        Sees (indexOf s) ⟨e.stmt, e.answer⟩ past)
    ⟨rfl, fun l e past heq => absurd heq.symm (by simp [Config.start])⟩ ?_ hconfirmed hrun
  rintro c₁ m c₂ hm ⟨hindex, hsees⟩ hstep
  rcases Config.step_eq_some hstep with ⟨r, -, rfl⟩ | ⟨i, ch, r, o, k, a, w, rfl, hi, he, rfl⟩ |
    ⟨x, s', -, hs', rfl⟩
  · exact ⟨hindex, hsees⟩
  · obtain ⟨s', hexec, rfl⟩ := World.exec_eq_some.mp he
    obtain ⟨rfl, rfl⟩ := Prod.mk.inj (Option.some.inj hexec)
    have hread : Sees (indexOf s) ⟨o, (exec env o ch c₁.world.state).1⟩ c₁.world.history := by
      rintro index heq
      cases ch with
      | done =>
        cases o with
        | currentIndex =>
          injection heq with _ hanswer
          rw [← hindex]
          exact (Except.ok.inj hanswer).symm
        | _ => cases heq
      | failed e =>
        cases heq
      | unconfirmed e => exact absurd hm id
    refine ⟨?_, fun l e past heq => ?_⟩
    · cases ch with
      | done =>
        show indexOf (perform env o c₁.world.state).2 = _
        rw [perform_index, hindex]
        rfl
      | failed e =>
        show indexOf c₁.world.state = (leaves ⟨o, .error e⟩).getD _
        rw [hindex]
        cases o <;> rfl
      | unconfirmed e => exact absurd hm id
    · cases l with
      | nil =>
        obtain ⟨rfl, rfl⟩ := List.cons.inj heq
        exact hread
      | cons e₁ l => exact hsees l e past (List.cons.inj heq).2
  · refine ⟨?_, hsees⟩
    exact (interfere_index hs').trans hindex

/-! ## What the operations do to the index -/

open Law

/-- The rate a call accrues at, if it does. -/
def rateOf : Request → Option ℤ
  | .accrueDaily rate => some rate
  | _ => none

/-- An accrual is to the day after the index read just before. -/
def dayLaw (rate : Option ℤ) : Law treasuryEffects where
  Answers _ _ := True
  Allows past e := landed e = true → ∃ r index rest, rate = some r ∧
    past = ⟨.currentIndex, .ok index⟩ :: rest ∧ leaves e = some (nextDay r index)

variable {α : Type} {past : List (Event treasuryEffects)} {law : Option ℤ}

/-- A statement that is no accrual is allowed. -/
theorem allows_other {o : Stmt} {r : Except Err o.Result} (h : treasuryKind o ≠ .accrue) :
    (dayLaw law).Allows past ⟨o, r⟩ := by
  intro hlanded
  rw [landed_of_kind h] at hlanded
  cases hlanded

/-- It counts for nothing. -/
theorem countP_other {o : Stmt} {r : Except Err o.Result} (h : treasuryKind o ≠ .accrue) :
    (⟨o, r⟩ :: past : List (Event treasuryEffects)).countP landed = past.countP landed :=
  List.countP_cons_of_neg (by simp [landed_of_kind h])

/-- A program that never accrues. -/
theorem keeps_unaccrued {ks : List TreasuryKind} {p : Operation α} (hks : .accrue ∉ ks)
    (h : p.Uses (OfKind ks)) {n : ℕ} (hn : past.countP landed = n) :
    (dayLaw law).Keeps (fun _ past => past.countP landed = n) (fun _ _ => True) p past := by
  refine keeps_mono (keeps_of_uses (U := OfKind ks) (P := fun past => past.countP landed = n)
    (fun past o r ho hp _ => ?_) h hn) (fun _ _ hq => hq) fun _ _ _ => trivial
  have hkind : treasuryKind o ≠ .accrue := fun heq => hks (heq ▸ ho)
  exact ⟨allows_other hkind, (countP_other hkind).trans hp⟩

/-- A call accrues once, after it has read the index. -/
theorem keeps_accrueDaily (hn : past.countP landed = 0) :
    (dayLaw (some rate)).Keeps (fun _ past => past.countP landed = 1) (fun _ _ => True)
      (accrueDaily env rate) past := by
  refine keeps_bind (keeps_ofExcept (fun fund _ => ?_) fun _ _ => trivial)
  refine keeps_bind (keeps_bind (keeps_ofExcept (fun _ _ => ?_) fun _ _ => trivial))
  rintro r -
  refine ⟨allows_other (by decide), ?_⟩
  cases r with
  | error e => trivial
  | ok oldIndex =>
    refine keeps_bind (keeps_ofExcept (fun newIndex hnew => ?_) fun _ _ => trivial)
    obtain rfl := dailyIndex_ok hnew
    apply keeps_bind
    unfold mmfOperatorWrite
    split
    · trivial
    · rintro r -
      refine ⟨fun hlanded => ⟨rate, oldIndex, past, rfl, rfl, ?_⟩, ?_⟩
      · obtain ⟨index, hash, heq⟩ := landed_eq hlanded
        injection heq with hindex hanswer
        subst hanswer
        rfl
      · cases r with
        | error e => trivial
        | ok hash =>
          have hone : (⟨.accrue (nextDay rate oldIndex), .ok hash⟩ ::
              ⟨.currentIndex, .ok oldIndex⟩ :: past : List (Event treasuryEffects)).countP landed =
              1 := by
            rw [List.countP_cons_of_pos rfl, countP_other (by decide), hn]
          have haudit : ∀ record : AuditRecord,
              (call (.audit record)).Uses (OfKind [TreasuryKind.audit]) :=
            fun record => performs_call (List.mem_singleton_self _)
          exact keeps_bind (keeps_mono (keeps_unaccrued (by decide) (haudit _) hone)
            (fun _ _ hq => hq) fun _ _ _ => trivial)

/-- Whether a call has accrued and returned. -/
def accruedBy : Response → ℕ
  | .accrued _ => 1
  | _ => 0

/-- Every operation keeps the law of its rate, and one that returns has accrued as often as its
response says. -/
theorem keeps_serve (request : Request) :
    (dayLaw (rateOf request)).Keeps (fun response past => past.countP landed = accruedBy response)
      (fun _ _ => True) (serve env request) [] := by
  cases request with
  | park args =>
    have huses : (park env args).Uses (OfKind [.read, .approve, .subscribe, .recordPark]) :=
      of_park args (by decide) (by decide) (by decide) (by decide)
    exact keeps_bind (keeps_unaccrued (by decide) huses rfl)
  | recallPosition positionId =>
    have huses : (recallPosition env positionId).Uses (OfKind [.read, .redeem, .recordRecall]) :=
      of_recallPosition positionId (by decide) (by decide) (by decide)
    exact keeps_bind (keeps_unaccrued (by decide) huses rfl)
  | recallForPayment args =>
    have huses : (recallForPayment env args).Uses
        (OfKind [.read, .redeem, .recordRecall, .audit]) :=
      of_recallForPayment args (by decide) (by decide) (by decide) (by decide)
    exact keeps_bind (keeps_unaccrued (by decide) huses rfl)
  | accrueDaily annualRateBps => exact keeps_bind (keeps_accrueDaily rfl)

/-- What the laws say of a run. -/
theorem lawful_days {s : State} {c : (service env).Config}
    (h : (Config.start (S := service env) s).Reaches c) :
    Lawful (fun _ request => dayLaw (rateOf request))
      (fun _ _ response past => past.countP landed = accruedBy response) (fun _ _ _ _ => True) c :=
  h.keeps (fun _ _ _ _ _ _ _ _ => trivial) fun _ request => keeps_serve request

/-- Where all calls accrue at one rate, each accrual is to the day after what its call had read. -/
theorem dated_of_run {s : State} {c : (service env).Config} {moves : List (service env).Move}
    (hconfirmed : ∀ m ∈ moves, Confirmed m)
    (hrun : (Config.start (S := service env) s).run moves = some c)
    (hrate : ∀ t ∈ c.threads, ∀ r, t.request = .accrueDaily r → r = rate) :
    Dated rate (indexOf s) c.world.history := by
  have hlawful := lawful_days ⟨moves, hrun⟩
  obtain ⟨-, hsees⟩ := index_of_run hconfirmed hrun
  intro l e h heq hlanded
  obtain ⟨t, ht, hallows⟩ := hlawful.allows heq
  obtain ⟨r, index, rest, hr, htrail, hleaves⟩ := hallows hlanded
  obtain ⟨since, past, rfl, -, hsince⟩ := trail_eq_cons htrail
  have hindex : index = indexAfter (indexOf s) past :=
    hsees (l ++ e :: since) ⟨e.tid, .currentIndex, .ok index⟩ past (by simp [heq]) index rfl
  have hsame : r = rate := by
    refine hrate t (List.mem_of_getElem? ht) r ?_
    cases hrequest : t.request with
    | accrueDaily r' =>
      rw [hrequest] at hr
      rw [Option.some.inj hr]
    | _ =>
      rw [hrequest] at hr
      cases hr
  refine ⟨since, ⟨_, past, rfl, rfl, rfl, ?_⟩, hsince⟩
  rw [hleaves, hsame, hindex]

end SettlementOS.Analysis
