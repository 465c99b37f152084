import Mathlib.Data.List.Nodup
import Mathlib.Data.List.Sort
import Mathlib.Data.List.TakeWhile

/-!
# Tables with a unique key, read page by page

A table is a list of rows no two of which have the same key. A page of it is asked for with a
filter, an order, and a cursor: the cursor is resolved by its key, whatever the filter says, and
the page has the rows at or after it that pass the filter. A cursor nobody has leads to an empty
page.
-/

set_option autoImplicit false

namespace SettlementOS.Computation

variable {α κ : Type}

/-- Rows with a unique key. -/
structure Table (key : α → κ) where
  /-- the rows -/
  rows : List α
  /-- the key is unique -/
  unique : (rows.map key).Nodup

namespace Table

variable {key : α → κ} {k : κ} {p : α → Bool}

/-- Of rows that all have one key there is at most one. -/
theorem length_filter_le_one {l : List α} (hl : (l.map key).Nodup)
    (hp : ∀ row, p row = true → key row = k) : (l.filter p).length ≤ 1 := by
  have hnodup : ((l.filter p).map key).Nodup := hl.sublist (List.filter_sublist.map key)
  have hsame : ∀ k' ∈ (l.filter p).map key, k' = k := by
    intro k' hk'
    obtain ⟨row, hrow, rfl⟩ := List.mem_map.mp hk'
    exact hp row (List.mem_filter.mp hrow).2
  rw [List.eq_replicate_of_mem hsame] at hnodup
  have hle := List.nodup_replicate.mp hnodup
  rwa [List.length_map] at hle

variable [DecidableEq κ]

/-- The row with a key. -/
def find (t : Table key) (k : κ) : Option α := t.rows.find? fun row => key row = k

/-- The first row with a key that passes a filter. -/
def findFirst (t : Table key) (k : κ) (p : α → Bool) : Option α :=
  t.rows.find? fun row => key row = k && p row

/-- The rows at or after the cursor, in order. -/
def onwards (t : Table key) (le : α → α → Bool) (cursor : Option κ) : List α :=
  let ordered := t.rows.insertionSort fun a b => le a b = true
  match cursor with
  | none => ordered
  | some k => ordered.dropWhile fun row => key row ≠ k

/-- A page: of the rows at or after the cursor that pass the filter, `take` after the first
`skip`. -/
def findMany (t : Table key) (le : α → α → Bool) (p : α → Bool) (cursor : Option κ)
    (skip take : ℕ) : List α :=
  (((t.onwards le cursor).filter p).drop skip).take take

variable {t : Table key} {row : α} {le : α → α → Bool}

/-- The row that is found has the key. -/
theorem find_eq_some (h : t.find k = some row) : row ∈ t.rows ∧ key row = k :=
  ⟨List.mem_of_find?_eq_some h, by simpa using List.find?_some h⟩

/-- Nothing is found when no row with the key passes the filter. -/
theorem findFirst_eq_none (h : ∀ row ∈ t.rows, key row = k → p row = false) :
    t.findFirst k p = none := by
  refine List.find?_eq_none.mpr fun row hrow hfound => ?_
  rw [Bool.and_eq_true, decide_eq_true_eq] at hfound
  rw [h row hrow hfound.1] at hfound
  exact Bool.noConfusion hfound.2

/-- Onwards from a cursor there are rows of the table only. -/
theorem onwards_sublist (t : Table key) (le : α → α → Bool) (cursor : Option κ) :
    (t.onwards le cursor).Sublist (t.rows.insertionSort fun a b => le a b = true) := by
  cases cursor with
  | none => exact List.Sublist.refl _
  | some k => exact (List.dropWhile_suffix _).sublist

/-- No row comes twice on the way onwards. -/
theorem onwards_nodup (t : Table key) (le : α → α → Bool) (cursor : Option κ) :
    ((t.onwards le cursor).map key).Nodup := by
  have hperm := (List.perm_insertionSort (fun a b => le a b = true) t.rows).map key
  exact (hperm.nodup_iff.mpr t.unique).sublist ((t.onwards_sublist le cursor).map key)

/-- A filter that pins the key down leaves nothing behind a cursor. -/
theorem findMany_of_pinned (hp : ∀ row, p row = true → key row = k) (cursor : Option κ)
    {skip : ℕ} (hskip : 1 ≤ skip) (take : ℕ) : t.findMany le p cursor skip take = [] := by
  have hle := length_filter_le_one (t.onwards_nodup le cursor) hp
  rw [findMany, List.drop_eq_nil_of_le (Nat.le_trans hle hskip), List.take_nil]

end Table

end SettlementOS.Computation
