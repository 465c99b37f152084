import SettlementOS.Analysis.Limits
import SettlementOS.Results.RateLimit

/-!
# Whose budget a write takes from

A caller with a key is counted by the key, and everybody else by the address that the outermost of
the deploy's proxies has seen. What a client puts into the headers changes nothing.
-/

set_option autoImplicit false

namespace SettlementOS.Results

open SettlementOS.Computation Hit Model.RateLimit Program.Limits Analysis.Limits

/-- **Nobody forges an address.** Where the environment says how many proxies there are, writes that
come through them in the order of their times are let through exactly where the sliding window of a
minute has room for the caller's key or for the address that the outermost proxy has seen. -/
theorem forged_limited (raw hops : Option String) (arrivals : List Arrival)
    (htimes : arrivals.Pairwise fun a a' => a.now ≤ a'.now)
    (hhops : ∀ a ∈ arrivals, a.inner.length + 1 = trustedProxyHops hops) :
    (limited raw Limiter.fresh (arrivals.map (Arrival.request hops))).map Option.isNone =
      (slidingWindow (writeLimit raw) rateLimitWindowMs
        (arrivals.map fun a => ⟨a.subject, a.now⟩)).map Prod.snd := by
  have hrequests : (arrivals.map (Arrival.request hops)).Pairwise fun r r' => r.now ≤ r'.now :=
    List.pairwise_map.mpr htimes
  have hkeys : (arrivals.map (Arrival.request hops)).map
      (fun req => (⟨rateLimitKey req, req.now⟩ : Hit String)) =
        (arrivals.map fun a => (⟨a.subject, a.now⟩ : Hit Subject)).map (rename Subject.text) := by
    rw [List.map_map, List.map_map]
    refine List.map_congr_left fun a ha => ?_
    exact congrArg (fun key => (⟨key, a.now⟩ : Hit String)) (rateLimitKey_request (hhops a ha))
  have hwindow : slidingWindow (writeLimit raw) rateLimitWindowMs
      ((arrivals.map fun a => (⟨a.subject, a.now⟩ : Hit Subject)).map (rename Subject.text)) =
        (slidingWindow (writeLimit raw) rateLimitWindowMs
          (arrivals.map fun a => (⟨a.subject, a.now⟩ : Hit Subject))).map
            fun e => (rename Subject.text e.1, e.2) :=
    served_rename subject_text_injective [] _
  rw [limited_slidingWindow raw _ hrequests, hkeys, hwindow, List.map_map]
  rfl

/-- The address of the balancer. -/
def balancer : SeenAddress := ⟨"10.0.0.1", by decide, by decide +kernel⟩

/-- One client. -/
def prober : SeenAddress := ⟨"203.0.113.9", by decide, by decide +kernel⟩

/-- And another. -/
def bystander : SeenAddress := ⟨"198.51.100.4", by decide, by decide +kernel⟩

/-- The first client comes three times, each time by another name, and the other comes once. -/
def knocks : List Arrival :=
  [⟨some "198.51.100.4", none, prober, [balancer], none, 0⟩,
    ⟨some "1.1.1.1, 2.2.2.2", some "3.3.3.3", prober, [balancer], none, 10⟩,
    ⟨none, none, bystander, [balancer], none, 20⟩,
    ⟨some ",,", none, prober, [balancer], none, 70000⟩]

/-- One write a minute: the second is refused. -/
theorem forged_limited_refused :
    (limited (some "1") Limiter.fresh (knocks.map (Arrival.request (some "2")))).map Option.isNone =
      [true, false, true, true] :=
  (forged_limited (some "1") (some "2") knocks (by decide) (by decide +kernel)).trans
    (by decide +kernel)

end SettlementOS.Results
