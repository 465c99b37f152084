import Mathlib.Data.List.Pairwise
import Mathlib.Tactic.Common

/-!
# Walks by cursor

A table is read page by page while it grows. A page has the first positions beyond the cursor, in
order, and says whether there are more; the next cursor is its last position. Each page skips
nothing, so a walk that follows the cursors until no more is said to remain ends, once the table
stops growing, and has been at every position that was there all along, at none of them twice.
-/

set_option autoImplicit false

namespace SettlementOS.Computation

variable {π κ ρ ε : Type}

/-! ## Pages -/

/-- Whether a position is beyond a cursor. -/
def Beyond (before : π → π → Prop) (cursor : Option π) (v : π) : Prop := ∀ c ∈ cursor, before c v

/-- A page of the positions of a table beyond a cursor, and whether there are more. -/
structure PageAt (before : π → π → Prop) (V : π → Prop) (cursor : Option π) (page : List π)
    (more : Bool) : Prop where
  inOrder : page.Pairwise before
  found : ∀ v ∈ page, V v ∧ Beyond before cursor v
  initial : ∀ v, V v → Beyond before cursor v → v ∈ page ∨ ∀ u ∈ page, before u v
  more_iff : more = true ↔ ∃ v, V v ∧ Beyond before cursor v ∧ v ∉ page
  nonempty : more = true → page ≠ []

/-- The first of the positions beyond a cursor, with one more looked at, are a page. -/
theorem pageAt_take {before : π → π → Prop} [Std.Irrefl before] {V : π → Prop} {cursor : Option π}
    {beyond : List π} (horder : beyond.Pairwise before)
    (hmem : ∀ v, v ∈ beyond ↔ V v ∧ Beyond before cursor v) {limit : ℕ} (hlimit : 0 < limit) :
    PageAt before V cursor (beyond.take limit) (decide (limit < beyond.length)) where
  inOrder := horder.sublist (List.take_sublist limit beyond)
  found v hv := (hmem v).mp (List.mem_of_mem_take hv)
  initial v hv hbeyond := by
    have hin : v ∈ beyond.take limit ++ beyond.drop limit := by
      rw [List.take_append_drop]
      exact (hmem v).mpr ⟨hv, hbeyond⟩
    rcases List.mem_append.mp hin with hin | hin
    · exact .inl hin
    · rw [← List.take_append_drop limit beyond] at horder
      exact .inr fun u hu => (List.pairwise_append.mp horder).2.2 u hu v hin
  more_iff := by
    rw [decide_eq_true_eq]
    constructor
    · intro hlt
      obtain ⟨v, rest, hdrop⟩ : ∃ v rest, beyond.drop limit = v :: rest :=
        List.exists_cons_of_length_pos (by rw [List.length_drop]; omega)
      have hin : v ∈ beyond.drop limit := hdrop ▸ List.mem_cons_self
      obtain ⟨hv, hbeyond⟩ := (hmem v).mp (List.mem_of_mem_drop hin)
      refine ⟨v, hv, hbeyond, fun htake => ?_⟩
      rw [← List.take_append_drop limit beyond] at horder
      exact Std.Irrefl.irrefl v ((List.pairwise_append.mp horder).2.2 v htake v hin)
    · rintro ⟨v, hv, hbeyond, hout⟩
      by_contra hle
      rw [List.take_of_length_le (Nat.le_of_not_lt hle)] at hout
      exact hout ((hmem v).mpr ⟨hv, hbeyond⟩)
  nonempty hmore := by
    have hlt := of_decide_eq_true hmore
    refine List.ne_nil_of_length_pos ?_
    rw [List.length_take]
    omega

/-! ## Walks -/

/-- A walk: pages are fetched, each with the cursor of the one before, until one says there are no
more. -/
inductive Walked (fetch : ℕ → Option κ → Except ε ρ) (more : ρ → Bool) (next : ρ → Option κ) :
    ℕ → Option κ → List ρ → Prop
  | last {n : ℕ} {cursor : Option κ} {r : ρ} (hfetch : fetch n cursor = .ok r)
      (hmore : more r = false) : Walked fetch more next n cursor [r]
  | follow {n : ℕ} {cursor : Option κ} {r : ρ} {rs : List ρ} (hfetch : fetch n cursor = .ok r)
      (hmore : more r = true) (hrest : Walked fetch more next (n + 1) (next r) rs) :
      Walked fetch more next n cursor (r :: rs)

/-- What is fetched are pages of a table whose positions are told by cursors. -/
structure ServesPages (before : π → π → Prop) (V : ℕ → π → Prop)
    (fetch : ℕ → Option κ → Except ε ρ) (more : ρ → Bool) (next : ρ → Option κ)
    (rowsOf : ρ → List π) (cursorOf : π → κ) : Prop where
  page : ∀ n (cursor : Option π), (∀ c ∈ cursor, V n c) →
    ∃ r, fetch n (cursor.map cursorOf) = .ok r ∧
      PageAt before (V n) cursor (rowsOf r) (more r) ∧
      (more r = true → next r = (rowsOf r).getLast?.map cursorOf)

/-- The pages of a walk, from the number of the first. -/
def PagesAt (before : π → π → Prop) (V : ℕ → π → Prop) (more : ρ → Bool) (rowsOf : ρ → List π)
    (n : ℕ) (cursor : Option π) : List ρ → Prop
  | [] => False
  | r :: rs => PageAt before (V n) cursor (rowsOf r) (more r) ∧
    if more r = true then PagesAt before V more rowsOf (n + 1) (rowsOf r).getLast? rs else rs = []

variable {before : π → π → Prop} {V : ℕ → π → Prop} {fetch : ℕ → Option κ → Except ε ρ}
  {more : ρ → Bool} {next : ρ → Option κ} {rowsOf : ρ → List π} {cursorOf : π → κ}

/-! ## What a walk visits -/

/-- The positions of some pages. -/
def visitedOf (rowsOf : ρ → List π) (rs : List ρ) : List π := rs.flatMap rowsOf

/-- Every position beyond the cursor that stays is visited. -/
theorem visited_complete (hgrow : ∀ n v, V n v → V (n + 1) v) {rs : List ρ} {n : ℕ}
    {cursor : Option π} (hpages : PagesAt before V more rowsOf n cursor rs) {v : π} (hv : V n v)
    (hbeyond : Beyond before cursor v) : v ∈ visitedOf rowsOf rs := by
  induction rs generalizing n cursor with
  | nil => exact hpages.elim
  | cons r rs ih =>
    obtain ⟨hpage, hrest⟩ := hpages
    rw [visitedOf, List.flatMap_cons]
    by_cases hin : v ∈ rowsOf r
    · exact List.mem_append_left _ hin
    · have hmore : more r = true := hpage.more_iff.mpr ⟨v, hv, hbeyond, hin⟩
      rw [if_pos hmore] at hrest
      refine List.mem_append_right _ (ih hrest (hgrow n v hv) ?_)
      intro c hc
      rcases hpage.initial v hv hbeyond with hin' | hafter
      · exact absurd hin' hin
      · exact hafter c (List.mem_of_getLast? hc)

/-- What is visited on a page is in the table then. -/
theorem visited_found {rs : List ρ} {n : ℕ} {cursor : Option π}
    (hpages : PagesAt before V more rowsOf n cursor rs) {v : π} (hv : v ∈ visitedOf rowsOf rs) :
    ∃ m, V m v := by
  induction rs generalizing n cursor with
  | nil => exact hpages.elim
  | cons r rs ih =>
    obtain ⟨hpage, hrest⟩ := hpages
    rw [visitedOf, List.flatMap_cons] at hv
    rcases List.mem_append.mp hv with hv | hv
    · exact ⟨n, (hpage.found v hv).1⟩
    · by_cases hmore : more r = true
      · rw [if_pos hmore] at hrest
        exact ih hrest hv
      · rw [if_neg hmore] at hrest
        rw [hrest] at hv
        cases hv

/-! ## What a cursor stands for -/

/-- A cursor that stands for all that was visited. -/
def Covers (before : π → π → Prop) (cursor : Option π) (visited : List π) : Prop :=
  ∀ v, Beyond before cursor v ↔ ∀ u ∈ visited, before u v

/-- No cursor stands for nothing visited. -/
theorem covers_none : Covers before none [] := by
  intro v
  constructor
  · exact fun _ u hu => absurd hu List.not_mem_nil
  · exact fun _ c hc => absurd hc (by simp)

variable [IsTrans π before]

/-- The last position of a page stands for all that was visited with it. -/
theorem covers_page {cursor : Option π} {visited page : List π} {m : Bool} {W : π → Prop}
    (hcovers : Covers before cursor visited) (hpage : PageAt before W cursor page m)
    (hne : page ≠ []) : Covers before page.getLast? (visited ++ page) := by
  intro v
  obtain ⟨init, c, rfl⟩ : ∃ init c, page = init ++ [c] :=
    ⟨page.dropLast, page.getLast hne, (List.dropLast_concat_getLast hne).symm⟩
  have hlast : (init ++ [c]).getLast? = some c := List.getLast?_concat
  have hc : c ∈ init ++ [c] := List.mem_append_right _ List.mem_cons_self
  rw [hlast]
  constructor
  · intro hbeyond u hu
    have hcv : before c v := hbeyond c rfl
    rcases List.mem_append.mp hu with hu | hu
    · have huc : before u c := (hcovers c).mp (hpage.found c hc).2 u hu
      exact IsTrans.trans _ _ _ huc hcv
    · rcases List.mem_append.mp hu with hu | hu
      · have huc := (List.pairwise_append.mp hpage.inOrder).2.2 u hu c List.mem_cons_self
        exact IsTrans.trans _ _ _ huc hcv
      · rw [List.mem_singleton.mp hu]
        exact hcv
  · intro hall c' hc'
    cases hc'
    exact hall c (List.mem_append_right _ hc)

/-- Each position of the pages comes after all that were visited before. -/
theorem visited_inOrder {rs : List ρ} {n : ℕ} {cursor : Option π} {visited : List π}
    (hpages : PagesAt before V more rowsOf n cursor rs) (hcovers : Covers before cursor visited)
    (horder : visited.Pairwise before) : (visited ++ visitedOf rowsOf rs).Pairwise before := by
  induction rs generalizing n cursor visited with
  | nil => exact hpages.elim
  | cons r rs ih =>
    obtain ⟨hpage, hrest⟩ := hpages
    have hnow : (visited ++ rowsOf r).Pairwise before :=
      List.pairwise_append.mpr ⟨horder, hpage.inOrder, fun u hu v hv =>
        (hcovers v).mp (hpage.found v hv).2 u hu⟩
    rw [visitedOf, List.flatMap_cons, ← List.append_assoc]
    by_cases hmore : more r = true
    · rw [if_pos hmore] at hrest
      exact ih hrest (covers_page hcovers hpage (hpage.nonempty hmore)) hnow
    · rw [if_neg hmore] at hrest
      rw [hrest, List.flatMap_nil, List.append_nil]
      exact hnow

variable [Std.Irrefl before]

/-- A page says there are no more exactly when no position is left after all that were visited. -/
theorem more_eq_false_iff {rs earlier later : List ρ} {r : ρ} {n : ℕ} {cursor : Option π}
    {visited : List π} (hpages : PagesAt before V more rowsOf n cursor rs)
    (hcovers : Covers before cursor visited) (hsplit : rs = earlier ++ r :: later) :
    more r = false ↔ ¬ ∃ v, V (n + earlier.length) v ∧
      ∀ u ∈ visited ++ visitedOf rowsOf (earlier ++ [r]), before u v := by
  induction earlier generalizing rs n cursor visited with
  | nil =>
    subst hsplit
    obtain ⟨hpage, -⟩ := hpages
    rw [← Bool.not_eq_true, not_iff_not, hpage.more_iff]
    have hrows : visitedOf rowsOf ([] ++ [r]) = rowsOf r := by
      rw [List.nil_append, visitedOf, List.flatMap_cons, List.flatMap_nil, List.append_nil]
    rw [hrows]
    constructor
    · rintro ⟨v, hv, hbeyond, hout⟩
      refine ⟨v, hv, fun u hu => ?_⟩
      rcases List.mem_append.mp hu with hu | hu
      · exact (hcovers v).mp hbeyond u hu
      · rcases hpage.initial v hv hbeyond with hin | hafter
        · exact absurd hin hout
        · exact hafter u hu
    · rintro ⟨v, hv, hafter⟩
      refine ⟨v, hv, (hcovers v).mpr fun u hu => hafter u (List.mem_append_left _ hu), ?_⟩
      intro hin
      exact Std.Irrefl.irrefl v (hafter v (List.mem_append_right _ hin))
  | cons e earlier ih =>
    subst hsplit
    obtain ⟨hpage, hrest⟩ := hpages
    by_cases hmore : more e = true
    · rw [if_pos hmore] at hrest
      have hstep := ih hrest (covers_page hcovers hpage (hpage.nonempty hmore)) rfl
      rw [hstep, List.length_cons, List.append_assoc, Nat.add_right_comm n 1]
      rfl
    · rw [if_neg hmore] at hrest
      exact absurd hrest (by simp)

/-! ## A walk ends -/

/-- A table that stays finite has been walked in as many pages as it has positions. -/
theorem exists_walk (hreads : ServesPages before V fetch more next rowsOf cursorOf)
    (hgrow : ∀ n v, V n v → V (n + 1) v) {bound : ℕ}
    (hbound : ∀ n (vs : List π), vs.Nodup → (∀ v ∈ vs, V n v) → vs.length ≤ bound) (fuel : ℕ) :
    ∀ n (cursor : Option π) (visited : List π), (∀ c ∈ cursor, V n c) →
      Covers before cursor visited → visited.Pairwise before → (∀ v ∈ visited, V n v) →
      bound < visited.length + fuel →
      ∃ rs, Walked fetch more next n (cursor.map cursorOf) rs ∧
        PagesAt before V more rowsOf n cursor rs := by
  induction fuel with
  | zero =>
    intro n cursor visited _ _ horder hin hfuel
    have hnodup : visited.Nodup := horder.imp fun huv => by
      rintro rfl
      exact Std.Irrefl.irrefl _ huv
    have hle := hbound n visited hnodup hin
    omega
  | succ fuel ih =>
    intro n cursor visited hcursor hcovers horder hin hfuel
    obtain ⟨r, hfetch, hpage, hnext⟩ := hreads.page n cursor hcursor
    by_cases hmore : more r = true
    · have hne := hpage.nonempty hmore
      have hin' : ∀ v ∈ visited ++ rowsOf r, V (n + 1) v := by
        intro v hv
        rcases List.mem_append.mp hv with hv | hv
        · exact hgrow n v (hin v hv)
        · exact hgrow n v (hpage.found v hv).1
      have horder' : (visited ++ rowsOf r).Pairwise before :=
        List.pairwise_append.mpr ⟨horder, hpage.inOrder, fun u hu v hv =>
          (hcovers v).mp (hpage.found v hv).2 u hu⟩
      have hlonger : 0 < (rowsOf r).length := List.length_pos_iff.mpr hne
      obtain ⟨rs, hwalk, hpages⟩ := ih (n + 1) (rowsOf r).getLast? (visited ++ rowsOf r)
        (fun c hc => hgrow n c (hpage.found c (List.mem_of_getLast? hc)).1)
        (covers_page hcovers hpage hne) horder' hin'
        (by rw [List.length_append]; omega)
      refine ⟨r :: rs, .follow hfetch hmore ?_, hpage, ?_⟩
      · rw [hnext hmore]
        exact hwalk
      · rw [if_pos hmore]
        exact hpages
    · have hlast : more r = false := Bool.eq_false_iff.mpr hmore
      refine ⟨[r], .last hfetch hlast, hpage, ?_⟩
      rw [if_neg hmore]

/-- **Walks.** From the first page on, over a table that grows finitely, there is a walk; it visits
everything that was there at its start, nothing twice and only what was there, and each page says
there are no more exactly when nothing is left after all that was visited. -/
theorem walk_complete (hreads : ServesPages before V fetch more next rowsOf cursorOf)
    (hgrow : ∀ n v, V n v → V (n + 1) v) {bound : ℕ}
    (hbound : ∀ n (vs : List π), vs.Nodup → (∀ v ∈ vs, V n v) → vs.length ≤ bound) :
    ∃ rs, Walked fetch more next 0 none rs ∧ (visitedOf rowsOf rs).Nodup ∧
      (∀ v, V 0 v → v ∈ visitedOf rowsOf rs) ∧ (∀ v ∈ visitedOf rowsOf rs, ∃ n, V n v) ∧
      ∀ earlier r later, rs = earlier ++ r :: later →
        (more r = false ↔ ¬ ∃ v, V earlier.length v ∧
          ∀ u ∈ visitedOf rowsOf (earlier ++ [r]), before u v) := by
  obtain ⟨rs, hwalk, hpages⟩ := exists_walk hreads hgrow hbound (bound + 1) 0 none []
    (fun c hc => absurd hc (by simp)) covers_none .nil (fun v hv => absurd hv List.not_mem_nil)
    (by rw [List.length_nil]; omega)
  refine ⟨rs, hwalk, ?_, ?_, fun v hv => visited_found hpages hv, ?_⟩
  · have horder := visited_inOrder hpages covers_none .nil
    rw [List.nil_append] at horder
    refine horder.imp fun huv => ?_
    rintro rfl
    exact Std.Irrefl.irrefl _ huv
  · exact fun v hv => visited_complete hgrow hpages hv fun c hc => absurd hc (by simp)
  · intro earlier r later hsplit
    have hmore := more_eq_false_iff hpages covers_none hsplit
    rwa [Nat.zero_add, List.nil_append] at hmore

end SettlementOS.Computation
