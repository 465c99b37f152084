import Mathlib.Data.List.Count
import Mathlib.Data.Int.Notation
import Mathlib.Tactic.Common

/-!
# Sliding windows

Hits on keys at times, each answered by what is in the window that ends with it: the times of the
hits on its key that were granted before it and are less than a window old. A hit that is not
granted leaves no trace. The hits on a key are then answered as if there were no others, and where
nothing is granted once a limit of hits is in the window, no stretch of time shorter than a window
has more granted hits of a key than that.
-/

set_option autoImplicit false

namespace SettlementOS.Computation

/-- A hit on a key. -/
structure Hit (κ : Type) where
  key : κ
  time : ℤ
  deriving DecidableEq, Repr

namespace Hit

variable {κ δ : Type} {answer : List ℤ → ℤ → δ} {granted : δ → Bool} {window : ℤ}

/-! ## What is granted -/

/-- The hits that were granted. -/
def grantedIn (granted : δ → Bool) (log : List (Hit κ × δ)) : List (Hit κ) :=
  (log.filter fun e => granted e.2).map Prod.fst

/-- The first hit is there if it was granted. -/
theorem grantedIn_cons (e : Hit κ × δ) (log : List (Hit κ × δ)) : grantedIn granted (e :: log) =
    (if granted e.2 then [e.1] else []) ++ grantedIn granted log := by
  by_cases h : granted e.2 = true
  · simp [grantedIn, h]
  · simp [grantedIn, h]

/-- What was granted of two stretches is what was granted of each. -/
theorem grantedIn_append (l l' : List (Hit κ × δ)) :
    grantedIn granted (l ++ l') = grantedIn granted l ++ grantedIn granted l' := by
  rw [grantedIn, List.filter_append, List.map_append]
  rfl

/-- What was granted is in the log. -/
theorem mem_grantedIn {log : List (Hit κ × δ)} {h : Hit κ} (hmem : h ∈ grantedIn granted log) :
    ∃ e ∈ log, e.1 = h := by
  obtain ⟨e, he, rfl⟩ := List.mem_map.mp hmem
  exact ⟨e, (List.mem_filter.mp he).1, rfl⟩

/-- What was granted comes after the past, hit by hit. -/
theorem after_cons (past : List (Hit κ)) (e : Hit κ × δ) (log : List (Hit κ × δ)) :
    (if granted e.2 then past ++ [e.1] else past) ++ grantedIn granted log =
      past ++ grantedIn granted (e :: log) := by
  rw [grantedIn_cons]
  by_cases h : granted e.2 = true
  · rw [if_pos h, if_pos h, List.append_assoc]
  · rw [if_neg h, if_neg h, List.nil_append]

variable [DecidableEq κ]

/-! ## The times of a key -/

/-- The times at which a key was hit. -/
def timesOf (k : κ) (hits : List (Hit κ)) : List ℤ :=
  (hits.filter fun h => h.key = k).map Hit.time

/-- No hit, no time. -/
@[simp] theorem timesOf_nil (k : κ) : timesOf k ([] : List (Hit κ)) = [] := rfl

/-- The times of two stretches are those of each. -/
theorem timesOf_append (k : κ) (xs ys : List (Hit κ)) :
    timesOf k (xs ++ ys) = timesOf k xs ++ timesOf k ys := by
  rw [timesOf, List.filter_append, List.map_append]
  rfl

/-- A hit has its time on its own key. -/
theorem timesOf_singleton (k : κ) (h : Hit κ) :
    timesOf k [h] = if h.key = k then [h.time] else [] := by
  by_cases hkey : h.key = k
  · simp [timesOf, hkey]
  · simp [timesOf, hkey]

/-- Hits on other keys have no times on this one. -/
theorem timesOf_of_ne {k : κ} {hits : List (Hit κ)} (h : ∀ hit ∈ hits, hit.key ≠ k) :
    timesOf k hits = [] := by
  have hnone : hits.filter (fun hit => hit.key = k) = [] := by
    refine List.filter_eq_nil_iff.mpr fun hit hhit => ?_
    simpa using h hit hhit
  rw [timesOf, hnone, List.map_nil]

/-- The times on a key are those of the hits on it. -/
theorem timesOf_filter (k : κ) (hits : List (Hit κ)) :
    timesOf k (hits.filter fun h => h.key = k) = timesOf k hits := by
  rw [timesOf, List.filter_filter]
  simp only [Bool.and_self]
  rfl

/-- A time is that of some hit. -/
theorem mem_timesOf {k : κ} {hits : List (Hit κ)} {t : ℤ} (h : t ∈ timesOf k hits) :
    ∃ hit ∈ hits, hit.time = t := by
  obtain ⟨hit, hhit, rfl⟩ := List.mem_map.mp h
  exact ⟨hit, (List.mem_filter.mp hhit).1, rfl⟩

/-! ## Windows -/

/-- The times in the window that ends with a hit. -/
def inWindow (window : ℤ) (past : List (Hit κ)) (h : Hit κ) : List ℤ :=
  (timesOf h.key past).filter fun t => h.time - window < t ∧ t ≤ h.time

/-- The hits with their answers, after those that were granted before. -/
def served (answer : List ℤ → ℤ → δ) (granted : δ → Bool) (window : ℤ) (past : List (Hit κ)) :
    List (Hit κ) → List (Hit κ × δ)
  | [] => []
  | h :: hits =>
    let d := answer (inWindow window past h) h.time
    (h, d) :: served answer granted window (if granted d then past ++ [h] else past) hits

/-- **One hit.** It is answered by the window that ends with it. -/
theorem served_at {past hits : List (Hit κ)} {before after : List (Hit κ × δ)} {h : Hit κ} {d : δ}
    (hlog : served answer granted window past hits = before ++ (h, d) :: after) :
    d = answer (inWindow window (past ++ grantedIn granted before) h) h.time := by
  induction before generalizing past hits with
  | nil =>
    cases hits with
    | nil => cases hlog
    | cons h' hits =>
      obtain ⟨hhead, -⟩ := List.cons.inj hlog
      cases hhead
      rw [show grantedIn granted ([] : List (Hit κ × δ)) = [] from rfl, List.append_nil]
  | cons e before ih =>
    cases hits with
    | nil => cases hlog
    | cons h' hits =>
      obtain ⟨rfl, htail⟩ := List.cons.inj hlog
      rw [← after_cons]
      exact ih htail

/-- Which hits are granted is told by windows alone, when answers are. -/
theorem map_granted_served (past hits : List (Hit κ)) :
    (served answer granted window past hits).map (fun e => (e.1, granted e.2)) =
      served (fun ts t => granted (answer ts t)) id window past hits := by
  induction hits generalizing past with
  | nil => rfl
  | cons h hits ih => exact congrArg _ (ih _)

/-- **Keys are apart.** The hits on a key are answered as if there were no others. -/
theorem served_filter (k : κ) (past hits : List (Hit κ)) :
    (served answer granted window past hits).filter (fun e => e.1.key = k) =
      served answer granted window (past.filter fun h => h.key = k)
        (hits.filter fun h => h.key = k) := by
  induction hits generalizing past with
  | nil => rfl
  | cons h hits ih =>
    by_cases hkey : h.key = k
    · have hwindow :
          inWindow window (past.filter fun h => h.key = k) h = inWindow window past h := by
        rw [inWindow, hkey, timesOf_filter, inWindow, hkey]
      rw [List.filter_cons_of_pos (by simpa using hkey), served, served, hwindow,
        List.filter_cons_of_pos (by simpa using hkey), ih]
      by_cases hgranted : granted (answer (inWindow window past h) h.time) = true
      · rw [if_pos hgranted, if_pos hgranted, List.filter_append,
          List.filter_cons_of_pos (by simpa using hkey), List.filter_nil]
      · rw [if_neg hgranted, if_neg hgranted]
    · rw [List.filter_cons_of_neg (by simpa using hkey), served,
        List.filter_cons_of_neg (by simpa using hkey), ih]
      by_cases hgranted : granted (answer (inWindow window past h) h.time) = true
      · rw [if_pos hgranted, List.filter_append, List.filter_cons_of_neg (by simpa using hkey),
          List.filter_nil, List.append_nil]
      · rw [if_neg hgranted]

/-! ## Keys by other names -/

/-- A hit with its key by another name. -/
def rename {ι : Type} (f : κ → ι) (h : Hit κ) : Hit ι := ⟨f h.key, h.time⟩

/-- A key by another name has the same times. -/
theorem timesOf_rename {ι : Type} [DecidableEq ι] {f : κ → ι} (hf : Function.Injective f) (k : κ)
    (hits : List (Hit κ)) : timesOf (f k) (hits.map (rename f)) = timesOf k hits := by
  have hkeys :
      (fun h : Hit κ => decide ((rename f h).key = f k)) = fun h => decide (h.key = k) := by
    funext h
    exact decide_eq_decide.mpr hf.eq_iff
  rw [timesOf, List.filter_map, List.map_map, timesOf]
  exact congrArg (fun p => (hits.filter p).map Hit.time) hkeys

/-- **Names do not matter.** Keys that keep apart are answered alike by any names. -/
theorem served_rename {ι : Type} [DecidableEq ι] {f : κ → ι} (hf : Function.Injective f)
    (past hits : List (Hit κ)) :
    served answer granted window (past.map (rename f)) (hits.map (rename f)) =
      (served answer granted window past hits).map fun e => (rename f e.1, e.2) := by
  induction hits generalizing past with
  | nil => rfl
  | cons h hits ih =>
    have hwindow : inWindow window (past.map (rename f)) (rename f h) = inWindow window past h :=
      congrArg (List.filter _) (timesOf_rename hf h.key past)
    have htime : (rename f h).time = h.time := rfl
    rw [List.map_cons, served, served, List.map_cons, hwindow, htime, ← ih]
    by_cases hgranted : granted (answer (inWindow window past h) h.time) = true
    · rw [if_pos hgranted, if_pos hgranted, List.map_append]
      rfl
    · rw [if_neg hgranted, if_neg hgranted]

/-! ## How many are granted -/

/-- The sliding window of a limit: whether each hit finds fewer granted hits of its key than that in
the window that ends with it. -/
def slidingWindow (limit : ℕ) (window : ℤ) : List (Hit κ) → List (Hit κ × Bool) :=
  served (fun ts _ => decide (ts.length < limit)) id window []

/-- No stretch of time shorter than a window has more than a limit of hits of one key. -/
def Sparse (limit : ℕ) (window : ℤ) (hits : List (Hit κ)) : Prop :=
  ∀ (k : κ) (stretch : ℤ → Bool), (∀ s t, stretch s → stretch t → t - s < window) →
    (timesOf k hits).countP stretch ≤ limit

/-- Hits that are sparse were so before. -/
theorem Sparse.of_append {limit : ℕ} {xs ys : List (Hit κ)} (h : Sparse limit window (xs ++ ys)) :
    Sparse limit window xs := by
  intro k stretch hstretch
  have hall := h k stretch hstretch
  rw [timesOf_append, List.countP_append] at hall
  omega

/-- A hit that finds fewer than the limit in its window keeps the hits sparse. -/
theorem sparse_snoc {limit : ℕ} {past : List (Hit κ)} {h : Hit κ} (hpast : Sparse limit window past)
    (hlast : ∀ p ∈ past, p.time ≤ h.time) (hroom : (inWindow window past h).length < limit) :
    Sparse limit window (past ++ [h]) := by
  intro k stretch hstretch
  rw [timesOf_append, List.countP_append, timesOf_singleton]
  by_cases hkey : h.key = k
  · subst hkey
    rw [if_pos rfl]
    by_cases hin : stretch h.time = true
    · have hsub : (timesOf h.key past).countP stretch ≤ (inWindow window past h).length := by
        rw [inWindow, ← List.countP_eq_length_filter]
        refine List.countP_mono_left fun t ht hstretched => ?_
        obtain ⟨p, hp, rfl⟩ := mem_timesOf ht
        have hnear := hstretch p.time h.time hstretched hin
        have hbefore := hlast p hp
        exact decide_eq_true ⟨by omega, hbefore⟩
      have hone : List.countP stretch [h.time] = 1 := by simp [hin]
      omega
    · have hnone : List.countP stretch [h.time] = 0 := by simp [hin]
      have hold := hpast h.key stretch hstretch
      omega
  · rw [if_neg hkey]
    exact hpast k stretch hstretch

/-- **At most a limit.** What is granted stays sparse, when nothing is granted with the limit in the
window. -/
theorem grantedIn_sparse {limit : ℕ} {past hits : List (Hit κ)}
    (hlimit : ∀ ts t, granted (answer ts t) = true → ts.length < limit)
    (hpast : Sparse limit window past) (hlast : ∀ p ∈ past, ∀ h ∈ hits, p.time ≤ h.time)
    (htimes : hits.Pairwise fun h h' => h.time ≤ h'.time) :
    Sparse limit window (past ++ grantedIn granted (served answer granted window past hits)) := by
  induction hits generalizing past with
  | nil =>
    rw [served, show grantedIn granted ([] : List (Hit κ × δ)) = [] from rfl, List.append_nil]
    exact hpast
  | cons h hits ih =>
    obtain ⟨hfirst, hrest⟩ := List.pairwise_cons.mp htimes
    have hold : ∀ p ∈ past, ∀ h' ∈ hits, p.time ≤ h'.time := fun p hp h' hh' =>
      hlast p hp h' (List.mem_cons_of_mem h hh')
    rw [served, ← after_cons]
    by_cases hgranted : granted (answer (inWindow window past h) h.time) = true
    · rw [if_pos hgranted]
      have hnow : ∀ p ∈ past, p.time ≤ h.time := fun p hp => hlast p hp h List.mem_cons_self
      refine ih (sparse_snoc hpast hnow (hlimit _ _ hgranted)) ?_ hrest
      intro p hp h' hh'
      rcases List.mem_append.mp hp with hp | hp
      · exact hold p hp h' hh'
      · rw [List.mem_singleton.mp hp]
        exact hfirst h' hh'
    · rw [if_neg hgranted]
      exact ih hpast hold hrest

/-- No hits are sparse. -/
theorem sparse_nil {limit : ℕ} : Sparse limit window ([] : List (Hit κ)) := by
  intro k stretch hstretch
  exact Nat.zero_le limit

end Hit

end SettlementOS.Computation
