import Mathlib.Order.Defs.Unbundled
import SettlementOS.Computation.Table
import SettlementOS.Computation.Walk

/-!
# Pages of a table

A row's position tells its key, and the table is ordered by position. The rows that are found
behind a cursor whose row passes the filter are then the rows that pass it and come after, in
order, and a page cut off one more row than is asked for is a page of those.
-/

set_option autoImplicit false

namespace SettlementOS.Computation

variable {π : Type}

/-- The strict order of an order. -/
def Before (le : π → π → Bool) (u v : π) : Prop := le u v = true ∧ u ≠ v

section

variable {le : π → π → Bool}

instance : Std.Irrefl (Before le) := ⟨fun _ h => h.2 rfl⟩

variable [IsLinearOrder π fun u v => le u v = true]

/-- The order is antisymmetric. -/
theorem le_antisymm_of {u v : π} (h : le u v = true) (h' : le v u = true) : u = v :=
  antisymm_of (fun u v => le u v = true) h h'

instance : IsTrans π (Before le) where
  trans u v w huv hvw := by
    refine ⟨trans_of (fun u v => le u v = true) huv.1 hvw.1, ?_⟩
    rintro rfl
    exact huv.2 (le_antisymm_of huv.1 hvw.1)

/-- No two positions are before each other. -/
theorem not_before_of_before {u v : π} (h : Before le u v) : ¬ Before le v u :=
  fun h' => h.2 (le_antisymm_of h.1 h'.1)

end

namespace Table

variable {α κ : Type} {key : α → κ} {pos : α → π} {cursorOf : π → κ} {le : π → π → Bool}

/-- The order of the rows by their positions. -/
def byPosition (pos : α → π) (le : π → π → Bool) (a b : α) : Bool := le (pos a) (pos b)

/-- The rows in order. -/
def ordered (t : Table key) (pos : α → π) (le : π → π → Bool) : List α :=
  t.rows.insertionSort fun a b => byPosition pos le a b = true

/-- The rows in order are the rows. -/
theorem mem_ordered {t : Table key} {row : α} : row ∈ t.ordered pos le ↔ row ∈ t.rows :=
  List.mem_insertionSort _

variable [DecidableEq π]

instance (u v : π) : Decidable (Before le u v) := inferInstanceAs (Decidable (_ ∧ _))

/-- Whether a row passes a filter and comes after a cursor. -/
def goesOn (pos : α → π) (le : π → π → Bool) (p : α → Bool) (cursor : Option π) (row : α) : Bool :=
  p row && decide (∀ c ∈ cursor, Before le c (pos row))

/-- A page goes on with what is wanted and beyond its cursor. -/
theorem goesOn_iff {p : α → Bool} {cursor : Option π} {row : α} :
    goesOn pos le p cursor row = true ↔ p row = true ∧ Beyond (Before le) cursor (pos row) := by
  rw [goesOn, Bool.and_eq_true, decide_eq_true_eq]
  rfl

/-- The rows that pass a filter and come after a cursor, in order. -/
def beyond (t : Table key) (pos : α → π) (le : π → π → Bool) (p : α → Bool) (cursor : Option π) :
    List α :=
  (t.ordered pos le).filter (goesOn pos le p cursor)

/-- A position of a row of the table that passes a filter. -/
def Shown (t : Table key) (pos : α → π) (p : α → Bool) (v : π) : Prop :=
  ∃ row ∈ t.rows, p row = true ∧ pos row = v

/-- Without a cursor a page is the first of what is wanted. -/
theorem findMany_none [DecidableEq κ] (t : Table key) (p : α → Bool) (take : ℕ) :
    t.findMany (byPosition pos le) p none 0 take = (t.beyond pos le p none).take take := by
  have hall : goesOn pos le p none = p := by
    funext row
    simp [goesOn]
  rw [beyond, hall]
  rfl

variable [IsLinearOrder π fun u v => le u v = true] (hkey : ∀ row, key row = cursorOf (pos row))

include hkey

omit [DecidableEq π] in
/-- The rows are in strict order, each with a key of its own. -/
theorem ordered_pairwise (t : Table key) : (t.ordered pos le).Pairwise fun a b =>
    Before le (pos a) (pos b) ∧ key a ≠ key b := by
  have htotal : Std.Total fun a b : α => byPosition pos le a b = true :=
    ⟨fun a b => total_of (fun u v => le u v = true) (pos a) (pos b)⟩
  have htrans : IsTrans α fun a b : α => byPosition pos le a b = true :=
    ⟨fun _ _ _ hab hbc => trans_of (fun u v => le u v = true) hab hbc⟩
  have hsorted : (t.ordered pos le).Pairwise fun a b => byPosition pos le a b = true :=
    List.pairwise_insertionSort _ t.rows
  have hperm : ((t.ordered pos le).map key).Nodup :=
    ((List.perm_insertionSort _ t.rows).map key).nodup_iff.mpr t.unique
  have hdistinct : (t.ordered pos le).Pairwise fun a b => key a ≠ key b :=
    List.pairwise_map.mp hperm
  refine (hsorted.and hdistinct).imp fun {a b} hab => ⟨⟨hab.1, fun heq => hab.2 ?_⟩, hab.2⟩
  rw [hkey, hkey, heq]

/-- The positions beyond a cursor, in order. -/
theorem beyond_positions (t : Table key) (p : α → Bool) (cursor : Option π) :
    ((t.beyond pos le p cursor).map pos).Pairwise (Before le) ∧
      ∀ v, v ∈ (t.beyond pos le p cursor).map pos ↔
        t.Shown pos p v ∧ Beyond (Before le) cursor v := by
  constructor
  · exact List.pairwise_map.mpr (((t.ordered_pairwise hkey).filter _).imp fun h => h.1)
  · intro v
    constructor
    · intro hv
      obtain ⟨row, hrow, rfl⟩ := List.mem_map.mp hv
      obtain ⟨hmem, hpass⟩ := List.mem_filter.mp hrow
      obtain ⟨hp, hbeyond⟩ := goesOn_iff.mp hpass
      exact ⟨⟨row, mem_ordered.mp hmem, hp, rfl⟩, hbeyond⟩
    · rintro ⟨⟨row, hrow, hp, rfl⟩, hbeyond⟩
      exact List.mem_map_of_mem
        (List.mem_filter.mpr ⟨mem_ordered.mpr hrow, goesOn_iff.mpr ⟨hp, hbeyond⟩⟩)

variable [DecidableEq κ]

/-- Behind a cursor whose row passes the filter are the rows that pass it and come after. -/
theorem findMany_cursor (t : Table key) {p : α → Bool} {c : α} (hc : c ∈ t.rows) (hp : p c = true)
    (take : ℕ) : t.findMany (byPosition pos le) p (some (key c)) 1 take =
      (t.beyond pos le p (some (pos c))).take take := by
  have hpairwise := @ordered_pairwise π α κ key pos cursorOf le _ hkey t
  obtain ⟨xs, ys, hsplit⟩ := List.append_of_mem (mem_ordered.mpr hc : c ∈ t.ordered pos le)
  rw [hsplit] at hpairwise
  obtain ⟨-, hcys, hcross⟩ := List.pairwise_append.mp hpairwise
  have hbefore : ∀ x ∈ xs, Before le (pos x) (pos c) ∧ key x ≠ key c := fun x hx =>
    hcross x hx c List.mem_cons_self
  have honwards : t.onwards (byPosition pos le) (some (key c)) = c :: ys := by
    show (t.ordered pos le).dropWhile (fun row => key row ≠ key c) = c :: ys
    rw [hsplit, List.dropWhile_append_of_pos fun x hx => decide_eq_true (hbefore x hx).2,
      List.dropWhile_cons_of_neg (by simp)]
  have hxs : xs.filter (goesOn pos le p (some (pos c))) = [] := by
    refine List.filter_eq_nil_iff.mpr fun x hx hpass => ?_
    exact not_before_of_before (hbefore x hx).1 ((goesOn_iff.mp hpass).2 (pos c) rfl)
  have hself : ¬ goesOn pos le p (some (pos c)) c = true := fun hpass =>
    ((goesOn_iff.mp hpass).2 (pos c) rfl).2 rfl
  have hys : ys.filter (goesOn pos le p (some (pos c))) = ys.filter p := by
    refine List.filter_congr fun y hy => ?_
    have hafter := ((List.pairwise_cons.mp hcys).1 y hy).1
    rw [Bool.eq_iff_iff, goesOn_iff]
    refine ⟨fun h => h.1, fun h => ⟨h, fun c' hc' => ?_⟩⟩
    cases hc'
    exact hafter
  rw [findMany, honwards, List.filter_cons_of_pos hp, List.drop_one, List.tail_cons, beyond, hsplit,
    List.filter_append, hxs, List.filter_cons_of_neg hself, hys, List.nil_append]

end Table

end SettlementOS.Computation
