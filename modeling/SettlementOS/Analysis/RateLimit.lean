import Mathlib.Algebra.Order.Ring.Int
import Mathlib.Data.List.Pairwise
import SettlementOS.Model.RateLimit

/-!
# What the rate limiter keeps

Of every key the limiter keeps the times that can still be in a window; what it prunes and what the
sweep drops is too old to be in one. So it decides as the sliding window over the calls it admitted
does, swept or not.
-/

set_option autoImplicit false

namespace SettlementOS.Analysis

open SettlementOS.Computation Hit Model.RateLimit

variable {κ : Type} [DecidableEq κ]

/-! ## Decisions -/

/-- A call is allowed if there is room among the recent ones. -/
theorem decision_allowed_iff {options : RateLimitOptions} {recent : List ℤ} {now : ℤ} :
    (decision options recent now).allowed = true ↔ recent.length < options.limit := by
  unfold decision
  split_ifs with h
  · simpa using h
  · simpa using h

/-- A call that is refused is told to wait until the oldest one is out. -/
theorem decision_refused {options : RateLimitOptions} {recent : List ℤ} {now : ℤ}
    (h : options.limit ≤ recent.length) (hne : recent ≠ []) :
    (decision options recent now).retryAfterSeconds =
      max 1 (secondsUp (recent.head hne + options.windowMs - now)) := by
  unfold decision
  rw [dif_pos h]

/-- Seconds that are rounded up are enough. -/
theorem le_secondsUp (ms : ℤ) : ms ≤ 1000 * secondsUp ms := by
  unfold secondsUp
  omega

/-! ## Old times -/

/-- In order, none is later than the last. -/
theorem le_of_stale {cutoff : ℤ} {times : List ℤ} (h : stale cutoff times = true)
    (horder : times.Pairwise (· ≤ ·)) : ∀ t ∈ times, t ≤ cutoff := by
  intro t ht
  unfold stale at h
  cases hlast : times.getLast? with
  | none =>
    rw [List.getLast?_eq_none_iff.mp hlast] at ht
    cases ht
  | some last =>
    rw [hlast] at h
    have hcut : last ≤ cutoff := of_decide_eq_true h
    obtain ⟨init, rfl⟩ := List.getLast?_eq_some_iff.mp hlast
    rcases List.mem_append.mp ht with ht | ht
    · have hle := (List.pairwise_append.mp horder).2.2 t ht last List.mem_cons_self
      exact hle.trans hcut
    · rw [List.mem_singleton.mp ht]
      exact hcut

/-- Times behind one cutoff are behind every later one. -/
theorem filter_eq_nil_of_le {cutoff c : ℤ} {times : List ℤ} (h : ∀ t ∈ times, t ≤ cutoff)
    (hc : cutoff ≤ c) : times.filter (fun t => c < t) = [] := by
  refine List.filter_eq_nil_iff.mpr fun t ht => ?_
  have hle := h t ht
  simp only [decide_eq_true_eq]
  omega

/-- What comes before a cutoff does not come before a later one. -/
theorem filter_filter_of_le {cutoff c : ℤ} (times : List ℤ) (h : cutoff ≤ c) :
    (times.filter fun t => cutoff < t).filter (fun t => c < t) = times.filter fun t => c < t := by
  rw [List.filter_filter]
  refine List.filter_congr fun t _ => ?_
  by_cases ht : c < t
  · have hcut : cutoff < t := by omega
    simp [ht, hcut]
  · simp [ht]

/-! ## The store -/

/-- The times of a key are those that were put in. -/
theorem timesAt_insert_self (s : Limiter κ) (key : κ) (times : List ℤ) :
    ({ s with hits := s.hits.insert key times } : Limiter κ).timesAt key = times := by
  simp [Limiter.timesAt]

/-- The times of the other keys are as they were. -/
theorem timesAt_insert_of_ne (s : Limiter κ) {key k : κ} (times : List ℤ) (h : k ≠ key) :
    ({ s with hits := s.hits.insert key times } : Limiter κ).timesAt k = s.timesAt k := by
  simp [Limiter.timesAt, AList.lookup_insert_ne h]

/-- What is done to the store forgets nothing but keys all of whose times are too old. -/
def Harmless (tidy : ℤ → ℤ → Limiter κ → Limiter κ) : Prop :=
  ∀ now windowMs s k, (tidy now windowMs s).timesAt k = s.timesAt k ∨
    ((tidy now windowMs s).timesAt k = [] ∧ stale (now - windowMs) (s.timesAt k) = true)

/-- The sweep is harmless. -/
theorem harmless_sweep : Harmless (sweep (κ := κ)) := by
  intro now windowMs s k
  unfold sweep
  split_ifs with hsoon
  · exact .inl rfl
  · -- an entry that is dropped is one of the store's
    have hfold : ∀ (es : List (Sigma fun _ : κ => List ℤ)) (m : AList fun _ : κ => List ℤ),
        (∀ e ∈ es, e ∈ s.hits.entries) →
        (m.lookup k = s.hits.lookup k ∨
          (m.lookup k = none ∧ stale (now - windowMs) (s.timesAt k) = true)) →
        let swept := es.foldl
          (fun hits e => if stale (now - windowMs) e.2 then hits.erase e.1 else hits) m
        swept.lookup k = s.hits.lookup k ∨
          (swept.lookup k = none ∧ stale (now - windowMs) (s.timesAt k) = true) := by
      intro es
      induction es with
      | nil => exact fun m _ hm => hm
      | cons e es ih =>
        intro m hes hm
        have hrest : ∀ e' ∈ es, e' ∈ s.hits.entries := fun e' he' =>
          hes e' (List.mem_cons_of_mem e he')
        rw [List.foldl_cons]
        refine ih _ hrest ?_
        split_ifs with hstale
        · by_cases hkey : k = e.1
          · subst hkey
            have hlookup : s.hits.lookup e.1 = some e.2 :=
              AList.mem_lookup_iff.mpr (hes e List.mem_cons_self)
            refine .inr ⟨AList.lookup_erase e.1 m, ?_⟩
            rw [Limiter.timesAt, hlookup]
            exact hstale
          · rw [AList.lookup_erase_ne hkey]
            exact hm
        · exact hm
    rcases hfold s.hits.entries s.hits (fun _ he => he) (.inl rfl) with hsame | ⟨hnone, hstale⟩
    · exact .inl (congrArg (·.getD []) hsame)
    · exact .inr ⟨congrArg (·.getD []) hnone, hstale⟩

/-- So is no sweep at all. -/
theorem harmless_unswept : Harmless fun (_ _ : ℤ) (s : Limiter κ) => s := fun _ _ _ _ => .inl rfl

/-! ## One call -/

/-- The store after some calls were admitted, up to a time: of each key, what can be in a window
from then on. -/
structure Tracks (windowMs : ℤ) (past : List (Hit κ)) (now : ℤ) (s : Limiter κ) : Prop where
  kept : ∀ k c, now - windowMs ≤ c →
    (s.timesAt k).filter (fun t => c < t) = (timesOf k past).filter fun t => c < t
  inOrder : ∀ k, (s.timesAt k).Pairwise (· ≤ ·)
  stamped : ∀ k, ∀ t ∈ s.timesAt k, t ≤ now
  before : ∀ p ∈ past, p.time ≤ now

variable {windowMs now : ℤ} {past : List (Hit κ)} {s : Limiter κ}

/-- A fresh limiter tracks an empty past. -/
theorem tracks_fresh (now : ℤ) : Tracks windowMs ([] : List (Hit κ)) now Limiter.fresh where
  kept k c _ := by simp [Limiter.timesAt, Limiter.fresh]
  inOrder k := by simp [Limiter.timesAt, Limiter.fresh]
  stamped k := by simp [Limiter.timesAt, Limiter.fresh]
  before := by simp

/-- What is tracked is tracked later on. -/
theorem Tracks.later {now' : ℤ} (h : Tracks windowMs past now s) (hle : now ≤ now') :
    Tracks windowMs past now' s where
  kept k c hc := h.kept k c (by omega)
  inOrder := h.inOrder
  stamped k t ht := (h.stamped k t ht).trans hle
  before p hp := (h.before p hp).trans hle

/-- What a call finds of its key is what is in its window. -/
theorem Tracks.recent {call : Hit κ} (h : Tracks windowMs past call.time s) :
    (s.timesAt call.key).filter (fun t => call.time - windowMs < t) =
      inWindow windowMs past call := by
  rw [h.kept call.key (call.time - windowMs) (le_refl _), inWindow]
  refine List.filter_congr fun t ht => ?_
  obtain ⟨p, hp, rfl⟩ := mem_timesOf ht
  have hle := h.before p hp
  simp [hle]

/-- The key that is read is pruned, with the call behind it or not. -/
theorem Tracks.insert {call : Hit κ} (h : Tracks windowMs past call.time s) (more : List (Hit κ))
    (hmore : more = [] ∨ more = [call]) :
    Tracks windowMs (past ++ more) call.time
      { s with
        hits := s.hits.insert call.key (inWindow windowMs past call ++ timesOf call.key more) }
    where
  kept k c hc := by
    rw [timesOf_append, List.filter_append]
    by_cases hkey : k = call.key
    · subst hkey
      rw [timesAt_insert_self, List.filter_append, ← h.recent, filter_filter_of_le _ hc,
        h.kept call.key c hc]
    · rw [timesAt_insert_of_ne s _ hkey, h.kept k c hc]
      have hnone : timesOf k more = [] := by
        rcases hmore with rfl | rfl
        · rfl
        · rw [timesOf_singleton, if_neg fun heq => hkey heq.symm]
      rw [hnone, List.filter_nil, List.append_nil]
  inOrder k := by
    by_cases hkey : k = call.key
    · subst hkey
      rw [timesAt_insert_self, ← h.recent]
      refine List.pairwise_append.mpr ⟨(h.inOrder call.key).filter _, ?_, ?_⟩
      · rcases hmore with rfl | rfl <;> simp [timesOf]
      · intro t ht t' ht'
        have hle := h.stamped call.key t (List.mem_filter.mp ht).1
        obtain ⟨p, hp, rfl⟩ := mem_timesOf ht'
        rcases hmore with rfl | rfl
        · cases hp
        · rw [List.mem_singleton.mp hp]
          exact hle
    · rw [timesAt_insert_of_ne s _ hkey]
      exact h.inOrder k
  stamped k t ht := by
    by_cases hkey : k = call.key
    · subst hkey
      rw [timesAt_insert_self, ← h.recent] at ht
      rcases List.mem_append.mp ht with ht | ht
      · exact h.stamped call.key t (List.mem_filter.mp ht).1
      · obtain ⟨p, hp, rfl⟩ := mem_timesOf ht
        rcases hmore with rfl | rfl
        · cases hp
        · rw [List.mem_singleton.mp hp]
    · rw [timesAt_insert_of_ne s _ hkey] at ht
      exact h.stamped k t ht
  before p hp := by
    rcases List.mem_append.mp hp with hp | hp
    · exact h.before p hp
    · rcases hmore with rfl | rfl
      · cases hp
      · rw [List.mem_singleton.mp hp]

/-- Tidying up forgets nothing that can be in a window. -/
theorem Tracks.tidied {tidy : ℤ → ℤ → Limiter κ → Limiter κ} (hharmless : Harmless tidy)
    (h : Tracks windowMs past now s) : Tracks windowMs past now (tidy now windowMs s) where
  kept k c hc := by
    rcases hharmless now windowMs s k with hsame | ⟨hnone, hstale⟩
    · rw [hsame, h.kept k c hc]
    · have hold := filter_eq_nil_of_le (le_of_stale hstale (h.inOrder k)) hc
      rw [hnone, List.filter_nil, ← h.kept k c hc, hold]
  inOrder k := by
    rcases hharmless now windowMs s k with hsame | ⟨hnone, -⟩
    · rw [hsame]
      exact h.inOrder k
    · rw [hnone]
      exact .nil
  stamped k t ht := by
    rcases hharmless now windowMs s k with hsame | ⟨hnone, -⟩
    · rw [hsame] at ht
      exact h.stamped k t ht
    · rw [hnone] at ht
      cases ht
  before := h.before

/-- **One call** is decided by the sliding window, and what is kept stays what can be in one. -/
theorem consumeWith_tracks {tidy : ℤ → ℤ → Limiter κ → Limiter κ} (hharmless : Harmless tidy)
    (options : RateLimitOptions) {call : Hit κ} (h : Tracks options.windowMs past call.time s) :
    let r := consumeWith tidy options call.key call.time s
    r.1 = decision options (inWindow options.windowMs past call) call.time ∧
      Tracks options.windowMs (if r.1.allowed then past ++ [call] else past) call.time r.2 := by
  have hrecent := h.recent
  unfold consumeWith
  simp only [hrecent]
  split_ifs with hfull hallowed hallowed
  · rw [decision_allowed_iff] at hallowed
    omega
  · refine ⟨rfl, ?_⟩
    have hkept := h.insert [] (.inl rfl)
    rwa [List.append_nil, timesOf_nil, List.append_nil] at hkept
  · refine ⟨rfl, ?_⟩
    have hkept := h.insert [call] (.inr rfl)
    rw [timesOf_singleton, if_pos rfl] at hkept
    exact hkept.tidied hharmless
  · rw [decision_allowed_iff] at hallowed
    omega

/-! ## Calls one after the other -/

omit [DecidableEq κ] in
/-- Every call is decided, in order. -/
theorem map_fst_decided (consume : κ → ℤ → Limiter κ → RateLimitDecision × Limiter κ)
    (s : Limiter κ) (calls : List (Hit κ)) : (decided consume s calls).map Prod.fst = calls := by
  induction calls generalizing s with
  | nil => rfl
  | cons call calls ih => exact congrArg (call :: ·) (ih _)

/-- **The limiter is the sliding window**, over calls that are in order. -/
theorem decided_eq_served {tidy : ℤ → ℤ → Limiter κ → Limiter κ} (hharmless : Harmless tidy)
    (options : RateLimitOptions) {calls : List (Hit κ)} (h : Tracks options.windowMs past now s)
    (hlater : ∀ call ∈ calls, now ≤ call.time)
    (htimes : calls.Pairwise fun c c' => c.time ≤ c'.time) :
    decided (consumeWith tidy options) s calls =
      served (decision options) RateLimitDecision.allowed options.windowMs past calls := by
  induction calls generalizing past now s with
  | nil => rfl
  | cons call calls ih =>
    obtain ⟨hfirst, hrest⟩ := List.pairwise_cons.mp htimes
    have hnow := h.later (hlater call List.mem_cons_self)
    obtain ⟨hdecision, htracks⟩ := consumeWith_tracks hharmless options hnow
    rw [decided, served]
    simp only [hdecision] at htracks ⊢
    rw [ih htracks hfirst hrest]

/-- A fresh limiter decides as the sliding window does, however it tidies up. -/
theorem decided_fresh {tidy : ℤ → ℤ → Limiter κ → Limiter κ} (hharmless : Harmless tidy)
    (options : RateLimitOptions) {calls : List (Hit κ)}
    (htimes : calls.Pairwise fun c c' => c.time ≤ c'.time) :
    decided (consumeWith tidy options) Limiter.fresh calls =
      served (decision options) RateLimitDecision.allowed options.windowMs [] calls := by
  cases calls with
  | nil => rfl
  | cons call calls =>
    refine decided_eq_served hharmless options (tracks_fresh call.time) ?_ htimes
    intro c hc
    rcases List.mem_cons.mp hc with rfl | hc
    · exact le_refl _
    · exact (List.pairwise_cons.mp htimes).1 c hc

/-- The requests are refused as the limiter refuses their keys. -/
theorem limited_eq (raw : Option String) (s : Limiter String) (reqs : List WriteRequest) :
    limited raw s reqs =
      (decided (consumeRateLimit (writeOptions raw)) s
        (reqs.map fun req => ⟨rateLimitKey req, req.now⟩)).map fun e =>
          if e.2.allowed then none else some (tooManyRequests e.2.retryAfterSeconds) := by
  induction reqs generalizing s with
  | nil => rfl
  | cons req reqs ih => exact congrArg _ (ih _)

/-! ## Coming back -/

/-- At most the limit is in a window. -/
theorem length_inWindow_le {limit : ℕ} {hits : List (Hit κ)} (h : Sparse limit windowMs hits)
    (call : Hit κ) : (inWindow windowMs hits call).length ≤ limit := by
  rw [inWindow, ← List.countP_eq_length_filter]
  refine h call.key _ fun t t' ht ht' => ?_
  have hlow : call.time - windowMs < t := (of_decide_eq_true ht).1
  have hhigh : t' ≤ call.time := (of_decide_eq_true ht').2
  omega

/-- Once the oldest time of a full window is out of it, there is room. -/
theorem room_after_wait {options : RateLimitOptions} {hits : List (Hit κ)} {call retry : Hit κ}
    (hsparse : Sparse options.limit options.windowMs hits)
    (hbefore : ∀ p ∈ hits, p.time ≤ call.time)
    (hkey : retry.key = call.key)
    (hfull : options.limit ≤ (inWindow options.windowMs hits call).length)
    (hwait : call.time + 1000 *
      (decision options (inWindow options.windowMs hits call) call.time).retryAfterSeconds ≤
        retry.time) :
    (inWindow options.windowMs hits retry).length < options.limit := by
  have hmost := length_inWindow_le hsparse call
  have hne : inWindow options.windowMs hits call ≠ [] :=
    List.ne_nil_of_length_pos (options.limit_pos.trans_le hfull)
  rw [decision_refused hfull hne] at hwait
  obtain ⟨oldest, rest, hwindow⟩ := List.exists_cons_of_ne_nil hne
  simp only [hwindow, List.head_cons] at hwait
  have hup := le_secondsUp (oldest + options.windowMs - call.time)
  have hone := le_max_right 1 (secondsUp (oldest + options.windowMs - call.time))
  have hpos := le_max_left 1 (secondsUp (oldest + options.windowMs - call.time))
  have hout : oldest ≤ retry.time - options.windowMs := by omega
  have hlater : call.time ≤ retry.time := by omega
  have hshrinks : inWindow options.windowMs hits retry =
      (inWindow options.windowMs hits call).filter fun t => retry.time - options.windowMs < t := by
    rw [inWindow, inWindow, hkey, List.filter_filter]
    refine List.filter_congr fun t ht => ?_
    obtain ⟨p, hp, rfl⟩ := mem_timesOf ht
    have hle := hbefore p hp
    rw [← Bool.decide_and, decide_eq_decide]
    omega
  have hgone : (decide (retry.time - options.windowMs < oldest)) = false :=
    decide_eq_false (by omega)
  have hfewer : (rest.filter fun t => retry.time - options.windowMs < t).length ≤ rest.length :=
    List.length_filter_le _ _
  rw [hwindow, List.length_cons] at hmost
  rw [hshrinks, hwindow, List.filter_cons_of_neg (by simpa using hout)]
  omega

end SettlementOS.Analysis
