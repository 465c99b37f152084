import SettlementOS.Analysis.Tenancy
import SettlementOS.Program.Listings

/-!
# The pages of the two lists

Each answer to a client that follows cursors is a page of the rows beyond its cursor.
-/

set_option autoImplicit false

namespace SettlementOS.Analysis

open SettlementOS.Computation Table Model Program

/-! ## Pages -/

/-- One more row than is asked for tells whether there are more. -/
theorem toPage_take {α : Type} (rows : List α) (limit : ℕ) (idOf : α → String) :
    toPage (rows.take (limit + 1)) limit idOf =
      { rows := rows.take limit
        nextCursor := if limit < rows.length then (rows.take limit).getLast?.map idOf else none
        hasMore := decide (limit < rows.length) } := by
  unfold toPage
  by_cases hmore : limit < rows.length
  · simp [hmore, List.take_take]
  · have hle : rows.length ≤ limit := by omega
    simp [hmore, List.take_of_length_le, hle, Nat.le_succ_of_le hle]

/-- What is cut off the rows beyond a cursor is a page of them. -/
theorem toPage_beyond {α κ π : Type} [DecidableEq π] {key : α → κ} {pos : α → π} {le : π → π → Bool}
    [IsLinearOrder π fun u v => le u v = true] {cursorOf : π → κ}
    (hkey : ∀ row, key row = cursorOf (pos row)) (t : Table key) (p : α → Bool) (cursor : Option π)
    {limit : ℕ} (hlimit : 0 < limit) {idOf : α → String} {nameOf : π → String}
    (hname : ∀ row, idOf row = nameOf (pos row)) :
    let found := toPage ((t.beyond pos le p cursor).take (limit + 1)) limit idOf
    PageAt (Before le) (t.Shown pos p) cursor (found.rows.map pos) found.hasMore ∧
      (found.hasMore = true → found.nextCursor = (found.rows.map pos).getLast?.map nameOf) := by
  intro found
  obtain ⟨horder, hmem⟩ := @beyond_positions π α κ key pos cursorOf le _ _ hkey t p cursor
  have hpage := pageAt_take horder hmem hlimit
  rw [List.length_map, ← List.map_take] at hpage
  have hfound : found = _ := toPage_take (t.beyond pos le p cursor) limit idOf
  rw [hfound]
  refine ⟨hpage, fun hmore => ?_⟩
  have hlt := of_decide_eq_true hmore
  show (if limit < (t.beyond pos le p cursor).length then _ else none) = _
  rw [if_pos hlt, List.getLast?_map, Option.map_map]
  have hid : idOf = nameOf ∘ pos := funext hname
  rw [hid]

/-- A limit that is read is positive. -/
theorem parseLimit_pos {raw : Option String} {limit : ℕ} (h : parseLimit raw = .ok limit) :
    0 < limit := by
  unfold parseLimit at h
  cases raw with
  | none =>
    cases h
    decide
  | some raw =>
    dsimp only at h
    by_cases hempty : raw = ""
    · rw [if_pos hempty] at h
      cases h
      decide
    · rw [if_neg hempty] at h
      split at h
      · cases h
      · split at h
        · cases h
        · rename_i hlow
          split at h
          · cases h
          · cases h
            omega

/-- Without a cursor a page request is its limit. -/
theorem parsePageRequest_none {limit : Option String} {l : ℕ} (h : parseLimit limit = .ok l) :
    parsePageRequest limit none = .ok ⟨l, none⟩ := by
  unfold parsePageRequest
  rw [h]
  rfl

/-- With a proper cursor a page request is its limit and its cursor. -/
theorem parsePageRequest_some {limit : Option String} {l : ℕ} {id : String}
    (h : parseLimit limit = .ok l) (hid : ProperId id) :
    parsePageRequest limit (some id) = .ok ⟨l, some id⟩ := by
  rw [parsePageRequest_proper hid, h]
  rfl

/-- A character is at most two units. -/
theorem utf16Length_le (s : String) : utf16Length s ≤ 2 * s.toList.length := by
  unfold utf16Length
  induction s.toList with
  | nil => exact Nat.le_refl _
  | cons c cs ih =>
    rw [List.map_cons, List.sum_cons, List.length_cons]
    split_ifs <;> omega

/-- The ids payments are created with are cursors. -/
theorem properId_newPaymentId {bytes : List (Fin 256)} (h : bytes.length = 6) :
    ProperId (newPaymentId bytes) := by
  have hchars : (newPaymentId bytes).toList = ['p', 'a', 'y', '_'] ++ bytes.flatMap fun b =>
      [Nat.digitChar (b.val / 16), Nat.digitChar (b.val % 16)] := by
    simp [newPaymentId]
  have hlength : (newPaymentId bytes).toList.length = 16 := by
    rw [hchars]
    simp [List.length_flatMap, h]
  constructor
  · intro hempty
    rw [hempty] at hlength
    cases hlength
  · have hle := utf16Length_le (newPaymentId bytes)
    omega

/-! ## Payments -/

section

variable {sys : Backend} {db : Tables} {principal : Principal}

/-- The order of the lists is linear when that of the database is. -/
theorem newestLe_linear (hcollate : IsLinearOrder String fun a b => sys.collate a b = true) :
    IsLinearOrder (ℕ × String) fun u v => newestLe sys u v = true := by
  have hiff : ∀ u v : ℕ × String, newestLe sys u v = true ↔
      v.1 < u.1 ∨ (u.1 = v.1 ∧ sys.collate v.2 u.2 = true) := by
    intro u v
    simp [newestLe]
  refine { refl := ?_, trans := ?_, antisymm := ?_, total := ?_ }
  · intro u
    exact (hiff u u).mpr (.inr ⟨rfl, refl_of (fun a b => sys.collate a b = true) u.2⟩)
  · intro u v w huv hvw
    rcases (hiff u v).mp huv with hlt | ⟨heq, hle⟩ <;>
      rcases (hiff v w).mp hvw with hlt' | ⟨heq', hle'⟩
    · exact (hiff u w).mpr (.inl (by omega))
    · exact (hiff u w).mpr (.inl (by omega))
    · exact (hiff u w).mpr (.inl (by omega))
    · exact (hiff u w).mpr (.inr ⟨by omega,
        trans_of (fun a b => sys.collate a b = true) hle' hle⟩)
  · intro u v huv hvu
    rcases (hiff u v).mp huv with hlt | ⟨heq, hle⟩ <;>
      rcases (hiff v u).mp hvu with hlt' | ⟨heq', hle'⟩
    · omega
    · omega
    · omega
    · exact Prod.ext heq (antisymm_of (fun a b => sys.collate a b = true) hle' hle)
  · intro u v
    rcases Nat.lt_trichotomy u.1 v.1 with hlt | heq | hgt
    · exact .inr ((hiff v u).mpr (.inl hlt))
    · rcases total_of (fun a b => sys.collate a b = true) u.2 v.2 with hle | hle
      · exact .inr ((hiff v u).mpr (.inr ⟨heq.symm, hle⟩))
      · exact .inl ((hiff u v).mpr (.inr ⟨heq, hle⟩))
    · exact .inl ((hiff u v).mpr (.inl hgt))

/-- Hiding the failure's reason keeps the id. -/
theorem scrubFailureReason_id (principal : Principal) (payment : Payment) :
    (scrubFailureReason principal payment).id = payment.id := by
  unfold scrubFailureReason
  split <;> rfl

/-- A payment is found by the id in its position. -/
theorem id_position (row : PaymentRecord) : row.payment.id = (positionOf row).2 := rfl

/-- What a page is, when what is found are the rows beyond a cursor. -/
theorem paymentsPage_beyond {page : PageRequest} {cursor : Option (ℕ × String)}
    (hcollate : IsLinearOrder String fun a b => sys.collate a b = true) (hlimit : 0 < page.limit)
    (hfind : db.payments.findMany (newestFirst sys) (visiblePaymentsWhere principal) page.cursor
      (skipOf page.cursor) (page.limit + 1) =
        (db.payments.beyond positionOf (newestLe sys) (visiblePaymentsWhere principal) cursor).take
          (page.limit + 1)) :
    let body := paymentsPage sys db principal page
    PageAt (Before (newestLe sys)) (db.payments.Shown positionOf (visiblePaymentsWhere principal))
        cursor body.positions body.hasMore ∧
      (body.hasMore = true → body.nextCursor = body.positions.getLast?.map Prod.snd) := by
  intro body
  have hlinear := newestLe_linear hcollate
  have hpage := @toPage_beyond PaymentRecord String (ℕ × String) _ _ positionOf (newestLe sys) _
    Prod.snd id_position db.payments (visiblePaymentsWhere principal) cursor page.limit hlimit
    (fun row => row.payment.id) Prod.snd id_position
  rw [← hfind] at hpage
  have hpositions : body.positions = ((toPage (db.payments.findMany (newestFirst sys)
      (visiblePaymentsWhere principal) page.cursor (skipOf page.cursor) (page.limit + 1)) page.limit
        fun row => row.payment.id).rows.map positionOf) := by
    show (List.map (summaryOf db principal) _).map _ = _
    rw [List.map_map]
    refine List.map_congr_left fun row _ => ?_
    exact Prod.ext rfl (scrubFailureReason_id principal row.payment)
  rw [hpositions]
  exact hpage

/-- The cursor of a visible payment is taken. -/
theorem assertTenantCursor_shown {cursor : Option (ℕ × String)}
    (hcursor : ∀ c ∈ cursor, db.payments.Shown positionOf (visiblePaymentsWhere principal) c) :
    assertTenantCursor principal (cursor.map Prod.snd) (paymentInScope db principal) = .ok () := by
  cases cursor with
  | none => rfl
  | some c =>
    obtain ⟨row, hrow, hvisible, rfl⟩ := hcursor c rfl
    have hscope : paymentInScope db principal row.payment.id = true := by
      unfold paymentInScope Table.findFirst
      rw [List.find?_isSome]
      exact ⟨row, hrow, by simp [hvisible]⟩
    exact if_pos (.inr hscope)

/-- **Payments.** The answers of the list are pages of the visible payments. -/
theorem payments_reads {tables : ℕ → Tables} {limits : ℕ → Option String}
    (hcollate : IsLinearOrder String fun a b => sys.collate a b = true)
    (hids : ∀ n, ∀ row ∈ (tables n).payments.rows, ProperId row.payment.id)
    (hlimits : ∀ n, ∃ l, parseLimit (limits n) = .ok l) :
    ServesPages (Before (newestLe sys))
      (fun n => (tables n).payments.Shown positionOf (visiblePaymentsWhere principal))
      (fun n cursor => listPaymentsRoute sys (tables n) principal (limits n) cursor)
      Body.hasMore Body.nextCursor Body.positions Prod.snd where
  page n cursor hcursor := by
    obtain ⟨l, hl⟩ := hlimits n
    have hlinear := newestLe_linear hcollate
    have hparse : parsePageRequest (limits n) (cursor.map Prod.snd) =
        .ok ⟨l, cursor.map Prod.snd⟩ := by
      cases cursor with
      | none => exact parsePageRequest_none hl
      | some c =>
        obtain ⟨row, hrow, -, rfl⟩ := hcursor c rfl
        exact parsePageRequest_some hl (hids n row hrow)
    have hfetch : listPaymentsRoute sys (tables n) principal (limits n) (cursor.map Prod.snd) =
        .ok (paymentsPage sys (tables n) principal ⟨l, cursor.map Prod.snd⟩) := by
      unfold listPaymentsRoute
      rw [hparse]
      show (do
        assertTenantCursor principal (cursor.map Prod.snd) (paymentInScope (tables n) principal)
        return paymentsPage sys (tables n) principal ⟨l, cursor.map Prod.snd⟩ : Answer) = _
      rw [assertTenantCursor_shown hcursor]
      rfl
    refine ⟨_, hfetch, paymentsPage_beyond hcollate (parseLimit_pos hl) ?_⟩
    cases cursor with
    | none =>
      exact @findMany_none (ℕ × String) PaymentRecord String _ positionOf (newestLe sys) _ _
        (tables n).payments (visiblePaymentsWhere principal) _
    | some c =>
      obtain ⟨row, hrow, hvisible, rfl⟩ := hcursor c rfl
      exact @findMany_cursor (ℕ × String) PaymentRecord String _ positionOf Prod.snd
        (newestLe sys) _
        hlinear id_position _ (tables n).payments (visiblePaymentsWhere principal) row hrow
        hvisible _

end

/-! ## The audit log -/

/-- The decimal text of a number is its digits. -/
theorem toList_toString_nat (n : ℕ) : (toString n).toList = Nat.toDigits 10 n := by
  show (Nat.repr n).toList = _
  rw [Nat.repr, String.toList_ofList]

/-- The digits of a number read back as the number. -/
theorem digitsValue_toDigits (n : ℕ) : digitsValue (Nat.toDigits 10 n) = n := by
  show Nat.ofDigitChars 10 (Nat.toDigits 10 n) 0 = n
  exact Nat.ofDigitChars_ten_toDigits

/-- The id of an event is a cursor. -/
theorem auditCursor_toString {id : ℕ} (h : id ≤ int4Max) :
    auditCursor (some (toString id)) = .ok (some id) := by
  have hdigits : (toString id).toList.all Char.isDigit = true := by
    rw [toList_toString_nat, List.all_eq_true]
    exact fun c hc => Nat.isDigit_of_mem_toDigits (by decide) (by decide) hc
  have hvalue : digitsValue (toString id).toList = id := by
    rw [toList_toString_nat, digitsValue_toDigits]
  have hin : decide (int4Max < id) = false := decide_eq_false (Nat.not_lt.mpr h)
  simp only [auditCursor, hdigits, hvalue, hin]
  rfl

/-- The text of an id is proper. -/
theorem properId_toString {id : ℕ} (h : id ≤ int4Max) : ProperId (toString id) := by
  have hlength : (toString id).toList.length ≤ 10 := by
    rw [toList_toString_nat, Nat.length_toDigits_le_iff (by decide) (by decide)]
    have hmax : int4Max < 10 ^ 10 := by decide
    omega
  constructor
  · intro hempty
    have hnil : Nat.toDigits 10 id = [] := by
      rw [← toList_toString_nat, hempty]
      rfl
    exact Nat.toDigits_ne_nil hnil
  · have hle := utf16Length_le (toString id)
    omega

instance latestLe_linear : IsLinearOrder ℕ fun u v => latestLe u v = true where
  refl u := by simp [latestLe]
  trans u v w huv hvw := by
    simp only [latestLe, decide_eq_true_eq] at *
    omega
  antisymm u v huv hvu := by
    simp only [latestLe, decide_eq_true_eq] at *
    omega
  total u v := by
    simp only [latestLe, decide_eq_true_eq]
    omega

/-- An event is found by its id. -/
theorem id_event (e : AuditEvent) : e.id = id e.id := rfl

/-- **The audit log.** The answers of the list are pages of the events. -/
theorem audit_reads {tables : ℕ → AuditEvents} {principal : Principal}
    {limits : ℕ → Option String} (hplatform : isPlatformRole principal = true)
    (hids : ∀ n, ∀ e ∈ (tables n).rows, e.id ≤ int4Max)
    (hlimits : ∀ n, ∃ l, parseLimit (limits n) = .ok l) :
    ServesPages (Before latestLe) (fun n => (tables n).Shown AuditEvent.id fun _ => true)
      (fun n cursor => listAuditRoute (tables n) principal (limits n) cursor)
      Page.hasMore Page.nextCursor (fun page => page.rows.map AuditEvent.id) toString where
  page n cursor hcursor := by
    obtain ⟨l, hl⟩ := hlimits n
    have hrole : requireRole principal [.operator, .reviewer] = .ok () := by
      refine if_pos ?_
      simpa [isPlatformRole] using hplatform
    have hparse : parsePageRequest (limits n) (cursor.map toString) =
        .ok ⟨l, cursor.map toString⟩ := by
      cases cursor with
      | none => exact parsePageRequest_none hl
      | some c =>
        obtain ⟨e, he, -, rfl⟩ := hcursor c rfl
        exact parsePageRequest_some hl (properId_toString (hids n e he))
    have hid : auditCursor (cursor.map toString) = .ok cursor := by
      cases cursor with
      | none => rfl
      | some c =>
        obtain ⟨e, he, -, rfl⟩ := hcursor c rfl
        exact auditCursor_toString (hids n e he)
    have hfind : (tables n).findMany (fun a b => latestLe a.id b.id) (fun _ => true) cursor
        (if cursor.isSome then 1 else 0) (l + 1) =
          ((tables n).beyond AuditEvent.id latestLe (fun _ => true) cursor).take (l + 1) := by
      cases cursor with
      | none =>
        exact @findMany_none ℕ AuditEvent ℕ _ AuditEvent.id latestLe _ _ (tables n)
          (fun _ => true) _
      | some c =>
        obtain ⟨e, he, -, rfl⟩ := hcursor c rfl
        exact @findMany_cursor ℕ AuditEvent ℕ _ AuditEvent.id id latestLe _ _ id_event _
          (tables n) (fun _ => true) e he rfl _
    have hfetch : listAuditRoute (tables n) principal (limits n) (cursor.map toString) =
        .ok (toPage (((tables n).beyond AuditEvent.id latestLe (fun _ => true) cursor).take (l + 1))
          l fun e => toString e.id) := by
      unfold listAuditRoute
      rw [hrole, hparse]
      show (do
        let cursorId ← auditCursor (cursor.map toString)
        return toPage ((tables n).findMany (fun a b => latestLe a.id b.id) (fun _ => true) cursorId
          (if cursorId.isSome then 1 else 0) (l + 1)) l fun e => toString e.id) = _
      rw [hid, ← hfind]
      rfl
    exact ⟨_, hfetch, @toPage_beyond AuditEvent ℕ ℕ _ _ AuditEvent.id latestLe _ id id_event
      (tables n) (fun _ => true) cursor l (parseLimit_pos hl) (fun e => toString e.id) toString
      fun _ => rfl⟩

end SettlementOS.Analysis
