import SettlementOS.Analysis.RateLimit

/-!
# Whom the rate limiter lets in

For calls that come in the order of their times the limiter is the sliding window, and a caller who
waits as long as it is told is let in.
-/

set_option autoImplicit false

namespace SettlementOS.Results

open SettlementOS.Computation Hit Model.RateLimit Analysis

variable {κ : Type} [DecidableEq κ] {options : RateLimitOptions} {calls : List (Hit κ)}

/-- A fresh limiter decides as the sliding window does. -/
theorem decided_served (options : RateLimitOptions)
    (htimes : calls.Pairwise fun c c' => c.time ≤ c'.time) :
    decided (consumeRateLimit options) Limiter.fresh calls =
      served (decision options) RateLimitDecision.allowed options.windowMs [] calls :=
  decided_fresh harmless_sweep options htimes

/-- Each decision is that of the window that ends with its call. -/
theorem decided_admits (htimes : calls.Pairwise fun c c' => c.time ≤ c'.time)
    {past rest : List (Hit κ × RateLimitDecision)} {call : Hit κ} {d : RateLimitDecision}
    (h : decided (consumeRateLimit options) Limiter.fresh calls = past ++ (call, d) :: rest) :
    d = decision options (inWindow options.windowMs
      (grantedIn RateLimitDecision.allowed past) call) call.time := by
  rw [decided_served options htimes] at h
  exact served_at h

/-- No window has more than the limit of granted calls. -/
theorem admitted_sparse (options : RateLimitOptions)
    (htimes : calls.Pairwise fun c c' => c.time ≤ c'.time) :
    Sparse options.limit options.windowMs (grantedIn RateLimitDecision.allowed
      (decided (consumeRateLimit options) Limiter.fresh calls)) := by
  rw [decided_served options htimes]
  have hlimit : ∀ ts t, (decision options ts t).allowed = true → ts.length < options.limit :=
    fun ts t h => decision_allowed_iff.mp h
  exact grantedIn_sparse hlimit sparse_nil (fun p hp => absurd hp List.not_mem_nil) htimes

/-- The decisions are those of the sliding window. -/
theorem rateLimit_decisions (options : RateLimitOptions)
    (htimes : calls.Pairwise fun c c' => c.time ≤ c'.time) :
    (decided (consumeRateLimit options) Limiter.fresh calls).map (fun e => (e.1, e.2.allowed)) =
      slidingWindow options.limit options.windowMs calls := by
  have hanswers : (fun ts t => (decision options ts t).allowed) =
      fun (ts : List ℤ) (_ : ℤ) => decide (ts.length < options.limit) := by
    funext ts t
    rw [Bool.eq_iff_iff, decision_allowed_iff, decide_eq_true_eq]
  rw [decided_served options htimes, map_granted_served, hanswers]
  rfl

/-- A call that comes again after the advertised seconds is admitted, if no other on its key came in
between. -/
theorem admitted_after_wait (htimes : calls.Pairwise fun c c' => c.time ≤ c'.time)
    {past between rest : List (Hit κ × RateLimitDecision)} {call retry : Hit κ}
    {d d' : RateLimitDecision}
    (hlog : decided (consumeRateLimit options) Limiter.fresh calls =
      past ++ (call, d) :: (between ++ (retry, d') :: rest))
    (hrefused : d.allowed = false) (hkey : retry.key = call.key)
    (hbetween : ∀ e ∈ between, e.1.key ≠ call.key)
    (hwait : call.time + 1000 * d.retryAfterSeconds ≤ retry.time) : d'.allowed = true := by
  have hcall := decided_admits htimes hlog
  have hagain : decided (consumeRateLimit options) Limiter.fresh calls =
      (past ++ (call, d) :: between) ++ (retry, d') :: rest := by
    rw [hlog, List.append_assoc, List.cons_append]
  have hretry := decided_admits htimes hagain
  have hsparse := admitted_sparse options htimes
  rw [hlog, grantedIn_append] at hsparse
  have hbefore : ∀ p ∈ grantedIn RateLimitDecision.allowed past, p.time ≤ call.time := by
    intro p hp
    obtain ⟨e, he, rfl⟩ := mem_grantedIn hp
    rw [← map_fst_decided (consumeRateLimit options) Limiter.fresh calls, hlog, List.map_append]
      at htimes
    exact (List.pairwise_append.mp htimes).2.2 e.1 (List.mem_map_of_mem he) call List.mem_cons_self
  have hsame : inWindow options.windowMs
      (grantedIn RateLimitDecision.allowed (past ++ (call, d) :: between)) retry =
        inWindow options.windowMs (grantedIn RateLimitDecision.allowed past) retry := by
    have hnone : timesOf call.key (grantedIn RateLimitDecision.allowed between) = [] := by
      refine timesOf_of_ne fun hit hhit => ?_
      obtain ⟨e, he, rfl⟩ := mem_grantedIn hhit
      exact hbetween e he
    rw [inWindow, grantedIn_append, grantedIn_cons, hrefused, if_neg Bool.false_ne_true,
      List.nil_append, timesOf_append, hkey, hnone, List.append_nil, inWindow, hkey]
  have hfull : options.limit ≤
      (inWindow options.windowMs (grantedIn RateLimitDecision.allowed past) call).length := by
    by_contra hroom
    have hallowed : d.allowed = true := by
      rw [hcall]
      exact decision_allowed_iff.mpr (Nat.lt_of_not_le hroom)
    rw [hrefused] at hallowed
    cases hallowed
  rw [hretry, hsame]
  rw [hcall] at hwait
  exact decision_allowed_iff.mpr (room_after_wait hsparse.of_append hbefore hkey hfull hwait)

/-- For every sequence of calls with non-decreasing times, any keys, a limit and a window: the
limiter is the sliding window, a call being admitted exactly when fewer than the limit of the
admitted calls of its key are in the window that ends with it; no stretch of one window's length
has more than the limit of admitted calls of a key; the calls on a key are decided as if there were
no others; the sweep changes no decision; and a call that is refused and comes again after the
advertised seconds, with no other on its key in between, is admitted. -/
theorem rateLimit_slidingWindow (options : RateLimitOptions) (calls : List (Hit κ))
    (htimes : calls.Pairwise fun c c' => c.time ≤ c'.time) :
    let log := decided (consumeRateLimit options) Limiter.fresh calls
    log.map (fun e => (e.1, e.2.allowed)) = slidingWindow options.limit options.windowMs calls ∧
      (∀ past call d rest, log = past ++ (call, d) :: rest →
        (d.allowed = true ↔
          (inWindow options.windowMs (grantedIn RateLimitDecision.allowed past) call).length <
            options.limit)) ∧
      (∀ key a,
        (timesOf key (grantedIn RateLimitDecision.allowed log)).countP
          (fun t => a < t ∧ t ≤ a + options.windowMs) ≤ options.limit ∧
        (timesOf key (grantedIn RateLimitDecision.allowed log)).countP
          (fun t => a ≤ t ∧ t < a + options.windowMs) ≤ options.limit) ∧
      (∀ key, log.filter (fun e => e.1.key = key) = decided (consumeRateLimit options) Limiter.fresh
        (calls.filter fun c => c.key = key)) ∧
      log = decided (consumeUnswept options) Limiter.fresh calls ∧
      ∀ past call d between retry d' rest,
        log = past ++ (call, d) :: (between ++ (retry, d') :: rest) → d.allowed = false →
        retry.key = call.key → (∀ e ∈ between, e.1.key ≠ call.key) →
        call.time + 1000 * d.retryAfterSeconds ≤ retry.time → d'.allowed = true := by
  intro log
  refine ⟨?_, ?_, ?_, ?_, ?_, ?_⟩
  · exact rateLimit_decisions options htimes
  · intro past call d rest hlog
    rw [decided_admits htimes hlog, decision_allowed_iff]
  · intro key a
    have hsparse := admitted_sparse options htimes
    constructor
    · refine hsparse key _ fun t t' ht ht' => ?_
      have hlow := (of_decide_eq_true ht).1
      have hhigh := (of_decide_eq_true ht').2
      omega
    · refine hsparse key _ fun t t' ht ht' => ?_
      have hlow := (of_decide_eq_true ht).1
      have hhigh := (of_decide_eq_true ht').2
      omega
  · intro key
    rw [show log = _ from decided_served options htimes, served_filter, List.filter_nil,
      decided_served options (htimes.filter _)]
  · rw [show log = _ from decided_served options htimes]
    exact (decided_fresh harmless_unswept options htimes).symm
  · intro past call d between retry d' rest hlog hrefused hkey hbetween hwait
    exact admitted_after_wait htimes hlog hrefused hkey hbetween hwait

/-- Requests that write, in the order of their times, are let through exactly where the sliding
window of a minute has room for their keys. -/
theorem limited_slidingWindow (raw : Option String) (reqs : List WriteRequest)
    (htimes : reqs.Pairwise fun r r' => r.now ≤ r'.now) :
    (limited raw Limiter.fresh reqs).map Option.isNone =
      (slidingWindow (writeLimit raw) rateLimitWindowMs
        (reqs.map fun req => ⟨rateLimitKey req, req.now⟩)).map Prod.snd := by
  have hcalls : (reqs.map fun req => (⟨rateLimitKey req, req.now⟩ : Hit String)).Pairwise
      fun c c' => c.time ≤ c'.time := List.pairwise_map.mpr htimes
  have hwindow := (rateLimit_decisions (writeOptions raw) hcalls)
  rw [limited_eq, List.map_map, ← show _ = slidingWindow (writeLimit raw) rateLimitWindowMs _
    from hwindow, List.map_map]
  refine List.map_congr_left fun e _ => ?_
  by_cases hallowed : e.2.allowed = true
  · simp [hallowed]
  · simp [hallowed]

/-! ## A minute of calls -/

/-- Two calls in ten seconds. -/
def twice : RateLimitOptions := ⟨2, 10000, by decide⟩

/-- Two keys: the first is full from 1000 to 2000 and again from 11000 on. -/
def burst : List (Hit (Fin 2)) :=
  [⟨0, 1000⟩, ⟨0, 1500⟩, ⟨0, 2000⟩, ⟨1, 2000⟩, ⟨0, 11000⟩, ⟨0, 11400⟩]

/-- The third call is told to come back in nine seconds and is admitted then. -/
theorem burst_admitted :
    (decided (consumeRateLimit twice) Limiter.fresh burst).map (fun e => (e.1, e.2.allowed)) =
        slidingWindow 2 10000 burst ∧
      slidingWindow 2 10000 burst = [(⟨0, 1000⟩, true), (⟨0, 1500⟩, true), (⟨0, 2000⟩, false),
        (⟨1, 2000⟩, true), (⟨0, 11000⟩, true), (⟨0, 11400⟩, false)] :=
  ⟨(rateLimit_slidingWindow twice burst (by decide)).1, by decide⟩

end SettlementOS.Results
