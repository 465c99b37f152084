import SettlementOS.Model.Money

/-!
# Pages (`lib/pagination.ts`, `lib/mcp/page.ts`)

What a caller may ask of a page, by query string or as a tool's arguments, and how the rows that
were fetched, one more than asked for, become one.
-/

set_option autoImplicit false

namespace SettlementOS.Model

/-- `DEFAULT_PAGE_LIMIT`. -/
def defaultPageLimit : ℕ := 50

/-- `MAX_PAGE_LIMIT`. -/
def maxPageLimit : ℕ := 200

/-- `PageRequest`. -/
structure PageRequest where
  limit : ℕ
  cursor : Option String
  deriving DecidableEq, Repr

/-- The length of a string in UTF-16 units. -/
def utf16Length (s : String) : ℕ := (s.toList.map fun c => if c.toNat < 0x10000 then 1 else 2).sum

/-- The `limit` of a page request. -/
def parseLimit (raw : Option String) : Except String ℕ :=
  match raw with
  | none => .ok defaultPageLimit
  | some raw =>
    if raw = "" then .ok defaultPageLimit
    else if !raw.toList.all Char.isDigit then .error "limit must be a positive integer"
    else
      let limit := digitsValue raw.toList
      if limit < 1 then .error "limit must be at least 1"
      else if maxPageLimit < limit then .error s!"limit must be at most {maxPageLimit}"
      else .ok limit

/-- The `cursor` of a page request. An empty one is none. -/
def parseCursor (raw : Option String) : Except String (Option String) :=
  let cursor := raw.filter (· ≠ "")
  if cursor.any fun c => 200 < utf16Length c then .error "cursor is not valid" else .ok cursor

/-- `parsePageRequest`. -/
def parsePageRequest (limit cursor : Option String) : Except String PageRequest := do
  let limit ← parseLimit limit
  let cursor ← parseCursor cursor
  return ⟨limit, cursor⟩

/-- `pageFromArgs`. -/
def pageFromArgs (limit : Option ℤ) (cursor : Option String) : Except String PageRequest :=
  parsePageRequest (limit.map toString) (cursor.filter (· ≠ ""))

/-- `Page`. -/
structure Page (α : Type) where
  rows : List α
  nextCursor : Option String
  hasMore : Bool
  deriving DecidableEq, Repr

/-- `toPage`. -/
def toPage {α : Type} (rows : List α) (limit : ℕ) (idOf : α → String) : Page α :=
  let hasMore := decide (limit < rows.length)
  let page := if hasMore then rows.take limit else rows
  { rows := page
    hasMore := hasMore
    nextCursor := if hasMore then page.getLast?.map idOf else none }

/-- The request a cursor of proper length makes. -/
theorem parsePageRequest_cursor {limit : Option String} {cursor : String} {page : PageRequest}
    (h : parsePageRequest limit (some cursor) = .ok page) (hne : cursor ≠ "") :
    page.cursor = some cursor := by
  unfold parsePageRequest at h
  cases hl : parseLimit limit with
  | error m =>
    rw [hl] at h
    cases h
  | ok n =>
    cases hc : parseCursor (some cursor) with
    | error m =>
      rw [hl, hc] at h
      cases h
    | ok c =>
      rw [hl, hc] at h
      cases h
      have hfilter : (some cursor).filter (· ≠ "") = some cursor := by simp [hne]
      simp only [parseCursor, hfilter] at hc
      split at hc <;> cases hc
      rfl

end SettlementOS.Model
