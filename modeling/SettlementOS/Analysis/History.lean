import SettlementOS.Program.Requests

/-!
# What a history says

The history of a run lists the statements performed, newest first, each with the attempt
that performed it and its answer. From it one reads off who is inside its leased section,
which attempts have sent a `settlePayment`, whether a database statement has failed, and
the three events the results below are conditional on.
-/

set_option autoImplicit false

namespace SettlementOS.Analysis

open SettlementOS.Computation Model Program

/-- The history of a run on one payment. -/
abbrev History := List (Entry sagaEffects)

/-- The shared state of one payment with its history. -/
abbrev World (env : Env) := (sagaService env).World

/-! ## Entries -/

/-- The lease was claimed. -/
def claims : Entry sagaEffects → Bool
  | ⟨_, .claimLease _ _, .ok true⟩ => true
  | _ => false

/-- The lease was given back, or the database did not answer. -/
def gaveBack : Entry sagaEffects → Bool
  | ⟨_, .releaseLease _, _⟩ => true
  | _ => false

/-- A transaction was sent: its network, its call and its hash. -/
def sends : Entry sagaEffects → Option (Network × Call × Hash)
  | ⟨_, .writeContract network c, .ok hash⟩ => some (network, c, hash)
  | _ => none

/-- A transaction of this kind was sent. -/
def sendsKind (k : CallKind) (e : Entry sagaEffects) : Bool :=
  (sends e).any fun t => t.2.1.kind == k

/-- The status was changed: to what. -/
def movesTo : Entry sagaEffects → Option PaymentStatus
  | ⟨_, .transition _ next _, .ok (some _)⟩ => some next
  | _ => none

/-- The reservation was written: with what status. -/
def reservesAs : Entry sagaEffects → Option ReservationStatus
  | ⟨_, .reserve .., .ok true⟩ => some .reserved
  | ⟨_, .updateReservation status, .ok _⟩ => some status
  | _ => none

/-- The escrow was read, or was tried to be: what came of it. -/
def escrowRead : Entry sagaEffects → Option (Option OnchainPaymentState)
  | ⟨_, .getPayment _, .ok state⟩ => some (some state)
  | ⟨_, .getPayment _, .error _⟩ => some none
  | _ => none

/-- A database statement that failed. -/
def dbFails : Entry sagaEffects → Bool
  | ⟨_, _, .error (.database _)⟩ => true
  | _ => false

/-- An entry that none of the readings below depends on. -/
def plain (e : Entry sagaEffects) : Bool :=
  !claims e && !gaveBack e && (sends e).isNone && (movesTo e).isNone &&
    (reservesAs e).isNone && (escrowRead e).isNone

/-! ## Readings -/

/-- Attempt `i` is inside its leased section: it has claimed the lease and not come to giving
it back. -/
def inside (i : ℕ) : History → Bool
  | [] => false
  | e :: h =>
    if e.tid = i ∧ claims e then true
    else if e.tid = i ∧ gaveBack e then false
    else inside i h

/-- Attempt `i` has sent a `settlePayment`. -/
def sentSettle (i : ℕ) (h : History) : Bool := h.any fun e => e.tid = i && sendsKind .settle e

/-- Attempt `i` has moved the payment to `FX_OR_SWAP_COMPLETED`. -/
def recordedSettle (i : ℕ) (h : History) : Bool :=
  h.any fun e => e.tid = i && movesTo e == some .fxOrSwapCompleted

/-- No database statement has failed. -/
def DbOk (h : History) : Prop := ∀ e ∈ h, dbFails e = false

/-- The last write to the reservation made it `RESERVED`. -/
def reservedIn : History → Bool
  | [] => false
  | e :: h =>
    match reservesAs e with
    | some status => status == .reserved
    | none => reservedIn h

/-- No cancel was committed while the reservation was `RESERVED`. -/
def CancelSpares : History → Prop
  | [] => True
  | e :: h => CancelSpares h ∧ (movesTo e = some .cancelled → reservedIn h = false)

/-- An attempt that had sent `settlePayment` without recording it read the escrow, and was
not told that it is `SETTLED`: the read failed, the transaction was not mined yet, or it had
reverted and released nothing. -/
def BadRead : History → Prop
  | [] => False
  | e :: h => BadRead h ∨
      ∃ r, escrowRead e = some r ∧ r ≠ some .settled ∧ sentSettle e.tid h = true ∧
        recordedSettle e.tid h = false

/-! ## One entry more -/

/-- A plain entry is none of these. -/
theorem plain_iff {e : Entry sagaEffects} : plain e = true ↔
    claims e = false ∧ gaveBack e = false ∧ sends e = none ∧ movesTo e = none ∧
      reservesAs e = none ∧ escrowRead e = none := by
  simp [plain, and_assoc]

/-- Whether `i` is inside depends only on the claims and releases of `i`. -/
theorem inside_cons {i : ℕ} {e : Entry sagaEffects} {h : History}
    (he : e.tid = i → claims e = false ∧ gaveBack e = false) :
    inside i (e :: h) = inside i h := by
  by_cases hi : e.tid = i
  · simp [inside, hi, (he hi).1, (he hi).2]
  · simp [inside, hi]

/-- Another attempt's entry changes nothing of who is inside. -/
theorem inside_cons_ne {i : ℕ} {e : Entry sagaEffects} {h : History} (he : e.tid ≠ i) :
    inside i (e :: h) = inside i h :=
  inside_cons fun hi => absurd hi he

/-- A claim takes its attempt inside. -/
theorem inside_claim {e : Entry sagaEffects} {h : History} (he : claims e = true) :
    inside e.tid (e :: h) = true := by
  simp [inside, he]

/-- Giving the lease back takes the attempt outside. -/
theorem inside_gaveBack {e : Entry sagaEffects} {h : History} (he : gaveBack e = true) :
    inside e.tid (e :: h) = false := by
  obtain ⟨i, o, r⟩ := e
  cases o <;> simp [gaveBack] at he
  simp [inside, claims, gaveBack]

/-- Only the attempt's own sending of a settlement counts. -/
theorem sentSettle_cons {i : ℕ} {e : Entry sagaEffects} {h : History}
    (he : e.tid = i → sendsKind .settle e = false) :
    sentSettle i (e :: h) = sentSettle i h := by
  by_cases hi : e.tid = i
  · simp [sentSettle, hi, he hi]
  · simp [sentSettle, hi]

/-- Only the attempt's own move counts. -/
theorem recordedSettle_cons {i : ℕ} {e : Entry sagaEffects} {h : History}
    (he : e.tid = i → movesTo e ≠ some .fxOrSwapCompleted) :
    recordedSettle i (e :: h) = recordedSettle i h := by
  by_cases hi : e.tid = i
  · simp [recordedSettle, hi, he hi]
  · simp [recordedSettle, hi]

/-- If no statement has failed by now, none had before. -/
theorem DbOk.tail {e : Entry sagaEffects} {h : History} (hok : DbOk (e :: h)) : DbOk h :=
  fun e' he' => hok e' (List.mem_cons_of_mem _ he')

/-- A failed database statement shows. -/
theorem not_dbOk {e : Entry sagaEffects} {h : History} (he : dbFails e = true) :
    ¬ DbOk (e :: h) := fun hok => by simp [hok e List.mem_cons_self] at he

/-- If none has failed in a run, none has in its beginning. -/
theorem DbOk.of_suffix {h h' : History} (hs : h <:+ h') (hok : DbOk h') : DbOk h :=
  fun e he => hok e (hs.subset he)

/-- If the cancels have spared the payment in a run, they have in its beginning. -/
theorem CancelSpares.of_suffix {h h' : History} (hs : h <:+ h') (hc : CancelSpares h') :
    CancelSpares h := by
  obtain ⟨l, rfl⟩ := hs
  induction l with
  | nil => exact hc
  | cons e l ih => exact ih hc.1

/-- A bad read stays in the history. -/
theorem BadRead.of_suffix {h h' : History} (hs : h <:+ h') (hb : BadRead h) : BadRead h' := by
  obtain ⟨l, rfl⟩ := hs
  induction l with
  | nil => exact hb
  | cons e l ih => exact .inl ih

/-- An entry that is no escrow read makes no bad read. -/
theorem badRead_cons {e : Entry sagaEffects} {h : History} (he : escrowRead e = none) :
    BadRead (e :: h) ↔ BadRead h := by
  simp [BadRead, he]

/-- Only a reservation changes who has reserved. -/
theorem reservedIn_cons {e : Entry sagaEffects} {h : History} (he : reservesAs e = none) :
    reservedIn (e :: h) = reservedIn h := by
  simp [reservedIn, he]

/-- Only a cancel can fail to spare the payment. -/
theorem cancelSpares_cons {e : Entry sagaEffects} {h : History}
    (he : movesTo e ≠ some .cancelled) : CancelSpares (e :: h) ↔ CancelSpares h := by
  simp [CancelSpares, he]

end SettlementOS.Analysis
