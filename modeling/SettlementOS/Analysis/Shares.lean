import SettlementOS.Analysis.Phases
import SettlementOS.Analysis.Recalls
import SettlementOS.Computation.Counting

/-!
# Whose shares are whose

As long as operations keep out of each other's phases, the active rows and the treasury's shares in
the fund differ by what is being written, and by nothing once everything is. What is counted of a
position is how often its shares were redeemed.
-/

set_option autoImplicit false

namespace SettlementOS.Analysis

open SettlementOS.Computation Service Model.Treasury Program.Treasury
open Model (Detail Err Hash)

variable {env : Env}

/-! ## What statements do to the shares -/

/-- The treasury's shares in the fund. -/
def sharesHeld (env : Env) (s : State) : ℕ := (s.fund.storage.sharesOf env.signers.treasury).val

/-- The shares of the active positions. -/
def sharesActive (positions : List Position) : ℤ :=
  ((positions.filter fun p => p.status = .active).map fun p => p.shares).sum

/-- The rows and the treasury's shares are as before. -/
structure Untouched (env : Env) (s s' : State) : Prop where
  positions : s'.positions = s.positions
  held : sharesHeld env s' = sharesHeld env s

/-- An answer is that of a statement that was carried out. -/
theorem perform_of_exec {o : Stmt} {ch : Choice} {s s' : State} {a : o.Result}
    (h : exec env o ch s = (.ok a, s')) : perform env o s = (.ok a, s') := by
  cases ch with
  | done => exact h
  | failed e => cases h
  | unconfirmed e => cases h

/-- A transaction that goes through has moved the fund. -/
theorem transactWith_ok {s s' : State} {n : ℤ} {hash : Hash}
    {f : Uint256 → Except Revert (Contracts.Fund.World × List Contracts.Fund.Log)}
    (h : s.transactWith n f = (.ok hash, s')) :
    ∃ word fund logs, encode n = .ok word ∧ f word = .ok (fund, logs) ∧
      s'.positions = s.positions ∧ s'.fund = fund := by
  unfold State.transactWith at h
  split at h
  · cases h
  · rename_i word hword
    unfold State.transact at h
    split at h
    · cases h
    · rename_i fund logs hf
      cases h
      exact ⟨word, fund, logs, hword, hf, rfl, rfl⟩

/-- An approval moves no shares. -/
theorem untouched_approve {s s' : State} {token : Contracts.Address} {amount : ℕ} {hash : Hash}
    (h : perform env (.approve token amount) s = (.ok hash, s')) : Untouched env s s' := by
  simp only [perform] at h
  split at h
  · cases h
  · unfold State.approve at h
    dsimp only at h
    split at h
    · cases h
      exact ⟨rfl, rfl⟩
    · cases h
      exact ⟨rfl, rfl⟩

/-- An accrual moves no shares. -/
theorem untouched_accrue {s s' : State} {newIndex : ℕ} {hash : Hash}
    (h : perform env (.accrue newIndex) s = (.ok hash, s')) : Untouched env s s' := by
  obtain ⟨word, fund, logs, -, haccrue, hpositions, hfund⟩ := transactWith_ok h
  refine ⟨hpositions, ?_⟩
  unfold Contracts.Fund.accrue Contracts.Fund.onlyOperator at haccrue
  simp only [bind_eq_ok, require_eq_ok] at haccrue
  obtain ⟨_, _, _, _, heq⟩ := haccrue
  cases heq
  rw [sharesHeld, hfund]
  rfl

/-- A subscription leaves the rows alone. -/
theorem subscribe_positions {s s' : State} {amount : ℕ} {hash : Hash}
    (h : perform env (.subscribe amount) s = (.ok hash, s')) : s'.positions = s.positions := by
  obtain ⟨_, _, _, -, -, hpositions, -⟩ := transactWith_ok h
  exact hpositions

/-- A redemption takes the shares from the treasury. -/
theorem redeem_held {s s' : State} {shares : ℤ} {hash : Hash}
    (h : perform env (.redeem shares) s = (.ok hash, s')) :
    s'.positions = s.positions ∧ (sharesHeld env s' : ℤ) = sharesHeld env s - shares := by
  obtain ⟨word, fund, logs, hword, hredeem, hpositions, hfund⟩ := transactWith_ok h
  refine ⟨hpositions, ?_⟩
  simp only [bind_eq_ok] at hredeem
  obtain ⟨⟨w, paid, logs'⟩, hpaid, heq⟩ := hredeem
  cases heq
  obtain ⟨owned, total, asset, -, howned, -, -, -, -, rfl⟩ := redeem_ok hpaid
  have hheld : sharesHeld env s' = owned.val := by
    rw [sharesHeld, hfund]
    exact congrArg Fin.val (Function.update_self ..)
  have hshares := encode_ok hword
  have hbefore : sharesHeld env s = owned.val + word.val := howned.symm
  omega

/-- Statements other than the four that write. -/
theorem untouched_of_neutral {o : Stmt} {s s' : State} {a : o.Result} (ho : Neutral o)
    (h : perform env o s = (.ok a, s')) : Untouched env s s' := by
  cases o with
  | approve token amount => exact untouched_approve h
  | accrue newIndex => exact untouched_accrue h
  | sharesOf => cases ho
  | subscribe amount => cases ho
  | recordPark row detail => cases ho
  | findPosition id => cases ho
  | redeem shares => cases ho
  | recordRecall id hash detail => cases ho
  | _ =>
    cases h
    exact ⟨rfl, rfl⟩

/-! ## Rows that are written -/

section

variable {positions : List Position} {position : Position}

/-- A new row adds its shares. -/
theorem sharesActive_concat (h : position.status = .active) :
    sharesActive (positions ++ [position]) = sharesActive positions + position.shares := by
  have hfilter : [position].filter (fun p => p.status = .active) = [position] :=
    List.filter_cons_of_pos (by rw [h]; rfl)
  rw [sharesActive, List.filter_append, hfilter, List.map_append, List.sum_append,
    ← sharesActive, List.map_singleton, List.sum_singleton]

/-- A recall of another position changes none of these. -/
theorem afterRecall_of_notMem {id : ℕ} {hash : Hash} (h : id ∉ positions.map Position.id) :
    afterRecall id hash positions = positions := by
  refine (List.map_congr_left fun p hp => ?_).trans (List.map_id positions)
  exact if_neg fun hid => h (List.mem_map.mpr ⟨p, hp, hid⟩)

/-- A row that is marked no longer counts. -/
theorem sharesActive_afterRecall (hash : Hash) (hnodup : (positions.map Position.id).Nodup)
    (hmem : position ∈ positions) (hactive : position.status = .active) :
    sharesActive (afterRecall position.id hash positions) =
      sharesActive positions - position.shares := by
  induction positions with
  | nil => cases hmem
  | cons p positions ih =>
    obtain ⟨hnot, hnodup⟩ := List.nodup_cons.mp hnodup
    have hcons : ∀ (q : Position) (l : List Position), sharesActive (q :: l) =
        (if q.status = .active then q.shares else 0) + sharesActive l := by
      intro q l
      by_cases hq : q.status = .active <;> simp [sharesActive, hq]
    rcases List.mem_cons.mp hmem with rfl | hmem
    · have hrest : afterRecall position.id hash positions = positions :=
        afterRecall_of_notMem hnot
      have hmark : afterRecall position.id hash (position :: positions) =
          { position with status := .recalled, txHashRecall := some hash } ::
            afterRecall position.id hash positions := by
        simp [afterRecall]
      rw [hmark, hrest, hcons, hcons, if_pos hactive, if_neg (by simp)]
      omega
    · have hne : p.id ≠ position.id := fun hid =>
        hnot (List.mem_map.mpr ⟨position, hmem, hid.symm⟩)
      have hkeep : afterRecall position.id hash (p :: positions) =
          p :: afterRecall position.id hash positions := by
        simp [afterRecall, hne]
      rw [hkeep, hcons, hcons, ih hnodup hmem]
      omega

/-- The rows are numbered from the first. -/
def Numbered (positions : List Position) : Prop :=
  ∀ (k : ℕ) (p : Position), positions[k]? = some p → p.id = k

/-- No two positions have a number in common. -/
theorem Numbered.nodup (h : Numbered positions) : (positions.map Position.id).Nodup := by
  have hrange : positions.map Position.id = List.range positions.length := by
    refine List.ext_getElem (by simp) fun k hk hk' => ?_
    rw [List.getElem_map, List.getElem_range]
    exact h k _ (List.getElem?_eq_getElem _)
  rw [hrange]
  exact List.nodup_range

/-- A position's number is below how many there are. -/
theorem Numbered.id_lt (h : Numbered positions) (hmem : position ∈ positions) :
    position.id < positions.length := by
  obtain ⟨k, hk⟩ := List.mem_iff_getElem?.mp hmem
  rw [h k position hk]
  exact (List.getElem?_eq_some_iff.mp hk).1

/-- Positions are told apart by their ids. -/
theorem Numbered.eq_of_id (h : Numbered positions) {p q : Position} (hp : p ∈ positions)
    (hq : q ∈ positions) (hid : p.id = q.id) : p = q := by
  obtain ⟨k, hk⟩ := List.mem_iff_getElem?.mp hp
  obtain ⟨l, hl⟩ := List.mem_iff_getElem?.mp hq
  have hkl : k = l := by rw [← h k p hk, hid, h l q hl]
  rw [hkl, hl] at hk
  exact (Option.some.inj hk).symm

/-- Positions stay numbered when the next one is added. -/
theorem Numbered.concat (h : Numbered positions) (hid : position.id = positions.length) :
    Numbered (positions ++ [position]) := by
  intro k p hk
  by_cases hlt : k < positions.length
  · rw [List.getElem?_append_left hlt] at hk
    exact h k p hk
  · obtain ⟨rfl, rfl⟩ := getElem?_concat_last hlt hk
    exact hid

/-- Positions stay numbered when one is recalled. -/
theorem Numbered.afterRecall (h : Numbered positions) (id : ℕ) (hash : Hash) :
    Numbered (afterRecall id hash positions) := by
  intro k p hk
  rw [Analysis.afterRecall, List.getElem?_map, Option.map_eq_some_iff] at hk
  obtain ⟨q, hq, rfl⟩ := hk
  rw [← h k q hq]
  split <;> rfl

/-- A row with another id is there as before. -/
theorem mem_afterRecall {id : ℕ} {hash : Hash} (hne : position.id ≠ id)
    (hmem : position ∈ positions) : position ∈ afterRecall id hash positions :=
  List.mem_map.mpr ⟨position, hmem, if_neg hne⟩

end

/-! ## The rows account for the shares -/

section

variable {s s' : State} {n i : ℕ} {phases : ℕ → Phase} {redeemed : ℕ → ℕ}

/-- What the operations in their phases have moved and not written. -/
def allUnwritten (held : ℤ) (n : ℕ) (phases : ℕ → Phase) : ℤ :=
  ∑ i ∈ Finset.range n, (phases i).unwritten held

/-- One operation moves on, and the others' part stays. -/
theorem allUnwritten_update {held held' : ℤ} (hi : i < n) (phase : Phase)
    (hsame : ∀ j, j ≠ i → (phases j).unwritten held' = (phases j).unwritten held) :
    allUnwritten held' n (Function.update phases i phase) =
      allUnwritten held n phases + (phase.unwritten held' - (phases i).unwritten held) := by
  have hmem : i ∈ Finset.range n := Finset.mem_range.mpr hi
  have hothers : ∑ j ∈ (Finset.range n).erase i,
      (Function.update phases i phase j).unwritten held' =
        ∑ j ∈ (Finset.range n).erase i, (phases j).unwritten held := by
    refine Finset.sum_congr rfl fun j hj => ?_
    have hji := Finset.ne_of_mem_erase hj
    rw [Function.update_of_ne hji]
    exact hsame j hji
  rw [allUnwritten, ← Finset.add_sum_erase _ _ hmem, hothers, allUnwritten,
    ← Finset.add_sum_erase _ (fun j => (phases j).unwritten held) hmem, Function.update_self]
  omega

/-- The rows account for the shares: they differ by what is being written, a parking that measures
has read what is there, and a position taken is active and taken once. -/
structure Accounted (env : Env) (s : State) (n : ℕ) (phases : ℕ → Phase) : Prop where
  total : (sharesHeld env s : ℤ) =
    sharesActive s.positions + allUnwritten (sharesHeld env s) n phases
  known : ∀ i, n ≤ i → phases i = .idle
  ids : Numbered s.positions
  read : ∀ i before, phases i = .measuring before → before = sharesHeld env s
  stored : ∀ i (p : Position), (phases i).taken = some p → p ∈ s.positions ∧ p.status = .active
  alone : ∀ i j (p q : Position), (phases i).taken = some p → (phases j).taken = some q →
    p.id = q.id → i = j

namespace Accounted

/-- An operation in a phase has arrived. -/
theorem lt (h : Accounted env s n phases) (hi : phases i ≠ .idle) : i < n := by
  by_contra hle
  exact hi (h.known i (not_lt.mp hle))

/-- Another operation arrives. -/
theorem arrive (h : Accounted env s n phases) : Accounted env s (n + 1) phases where
  total := by
    have hnone : (phases n).unwritten (sharesHeld env s) = 0 :=
      (Phase.rests_of_idle (h.known n le_rfl)).unwritten _
    rw [allUnwritten, Finset.sum_range_succ, hnone, add_zero]
    exact h.total
  known i hi := h.known i (by omega)
  ids := h.ids
  read := h.read
  stored := h.stored
  alone := h.alone

/-- Neither the rows nor the shares change. -/
theorem untouched (h : Accounted env s n phases) (hs : Untouched env s s') :
    Accounted env s' n phases where
  total := by
    rw [hs.held, hs.positions]
    exact h.total
  known := h.known
  ids := hs.positions ▸ h.ids
  read := hs.held ▸ h.read
  stored := hs.positions ▸ h.stored
  alone := h.alone

/-- An operation moves on without writing a row: what it has moved is what the treasury has more,
nobody else measures if that is anything, and what it takes is active and nobody else's. -/
theorem advance (h : Accounted env s n phases) (hi : i < n) {phase : Phase}
    (hpositions : s'.positions = s.positions)
    (hothers : sharesHeld env s' = sharesHeld env s ∨ ∀ j, j ≠ i → (phases j).measures = false)
    (hmoved : phase.unwritten (sharesHeld env s') - (phases i).unwritten (sharesHeld env s) =
      sharesHeld env s' - sharesHeld env s)
    (hread : ∀ before, phase = .measuring before → before = sharesHeld env s')
    (htaken : ∀ p, phase.taken = some p → (phases i).taken = some p ∨
      p ∈ s.positions ∧ p.status = .active ∧
        ∀ j q, j ≠ i → (phases j).taken = some q → q.id ≠ p.id) :
    Accounted env s' n (Function.update phases i phase) where
  total := by
    have hsame : ∀ j, j ≠ i → (phases j).unwritten (sharesHeld env s') =
        (phases j).unwritten (sharesHeld env s) := by
      intro j hj
      rcases hothers with heq | hnot
      · rw [heq]
      · exact Phase.unwritten_of_not_measures (hnot j hj) _ _
    have htotal := h.total
    rw [allUnwritten_update hi phase hsame, hpositions]
    omega
  known j hj := by
    rw [Function.update_of_ne (by omega)]
    exact h.known j hj
  ids := hpositions ▸ h.ids
  read j before hj := by
    by_cases hji : j = i
    · subst hji
      rw [Function.update_self] at hj
      exact hread before hj
    · rw [Function.update_of_ne hji] at hj
      rcases hothers with heq | hnot
      · rw [heq]
        exact h.read j before hj
      · have hmeasures := hnot j hji
        rw [hj] at hmeasures
        cases hmeasures
  stored j p hj := by
    rw [hpositions]
    by_cases hji : j = i
    · subst hji
      rw [Function.update_self] at hj
      rcases htaken p hj with hold | ⟨hmem, hactive, -⟩
      · exact h.stored j p hold
      · exact ⟨hmem, hactive⟩
    · rw [Function.update_of_ne hji] at hj
      exact h.stored j p hj
  alone j k p q hj hk hid := by
    by_cases hji : j = i
    · by_cases hki : k = i
      · rw [hji, hki]
      · subst hji
        rw [Function.update_self] at hj
        rw [Function.update_of_ne hki] at hk
        rcases htaken p hj with hold | ⟨-, -, hfree⟩
        · exact h.alone j k p q hold hk hid
        · exact absurd hid.symm (hfree k q hki hk)
    · rw [Function.update_of_ne hji] at hj
      by_cases hki : k = i
      · subst hki
        rw [Function.update_self] at hk
        rcases htaken q hk with hold | ⟨-, -, hfree⟩
        · exact h.alone j k p q hj hold hid
        · exact absurd hid (hfree j p hji hj)
      · rw [Function.update_of_ne hki] at hk
        exact h.alone j k p q hj hk hid

/-- An operation lets go of what it had in hand. -/
theorem drop (h : Accounted env s n phases) (hheld : sharesHeld env s' = sharesHeld env s)
    (htotal : (sharesHeld env s' : ℤ) = sharesActive s'.positions +
      allUnwritten (sharesHeld env s') n (Function.update phases i .idle))
    (hids : Numbered s'.positions)
    (hstored : ∀ j (p : Position), j ≠ i → (phases j).taken = some p → p ∈ s.positions →
      p ∈ s'.positions) : Accounted env s' n (Function.update phases i .idle) where
  total := htotal
  known j hj := by
    by_cases hji : j = i
    · rw [hji, Function.update_self]
    · rw [Function.update_of_ne hji]
      exact h.known j hj
  ids := hids
  read j before hj := by
    by_cases hji : j = i
    · rw [hji, Function.update_self] at hj
      cases hj
    · rw [Function.update_of_ne hji] at hj
      rw [hheld]
      exact h.read j before hj
  stored j p hj := by
    by_cases hji : j = i
    · rw [hji, Function.update_self] at hj
      cases hj
    · rw [Function.update_of_ne hji] at hj
      obtain ⟨hmem, hactive⟩ := h.stored j p hj
      exact ⟨hstored j p hji hj hmem, hactive⟩
  alone j k p q hj hk hid := by
    by_cases hji : j = i
    · rw [hji, Function.update_self] at hj
      cases hj
    · by_cases hki : k = i
      · rw [hki, Function.update_self] at hk
        cases hk
      · rw [Function.update_of_ne hji] at hj
        rw [Function.update_of_ne hki] at hk
        exact h.alone j k p q hj hk hid

/-- A parking writes its row. -/
theorem parked (h : Accounted env s n phases) (position : Position)
    (hbought : phases i = .bought position.shares) (hactive : position.status = .active)
    (hid : position.id = s.positions.length) (hpositions : s'.positions = s.positions ++ [position])
    (hheld : sharesHeld env s' = sharesHeld env s) :
    Accounted env s' n (Function.update phases i .idle) := by
  have hi : i < n := h.lt (by rw [hbought]; exact Phase.noConfusion)
  have htotal := h.total
  have hmoved : (Phase.bought position.shares).unwritten (sharesHeld env s) = position.shares := rfl
  have hidle : Phase.idle.unwritten (sharesHeld env s) = 0 := rfl
  refine h.drop hheld ?_ (hpositions ▸ h.ids.concat hid) fun j p _ _ hmem =>
    hpositions ▸ List.mem_append_left _ hmem
  rw [hpositions, sharesActive_concat hactive, hheld, allUnwritten_update hi _ fun _ _ => rfl,
    hbought]
  omega

/-- A recall marks the row of what it has redeemed. -/
theorem recalled (h : Accounted env s n phases) {position : Position} {hash : Hash}
    (hredeemed : phases i = .redeemed position)
    (hpositions : s'.positions = afterRecall position.id hash s.positions)
    (hheld : sharesHeld env s' = sharesHeld env s) :
    Accounted env s' n (Function.update phases i .idle) := by
  have hi : i < n := h.lt (by rw [hredeemed]; exact Phase.noConfusion)
  have htaken : (phases i).taken = some position := by
    rw [hredeemed]
    rfl
  have htotal := h.total
  have hmoved : (Phase.redeemed position).unwritten (sharesHeld env s) = -position.shares := rfl
  have hidle : Phase.idle.unwritten (sharesHeld env s) = 0 := rfl
  obtain ⟨hmem, hactive⟩ := h.stored i position htaken
  refine h.drop hheld ?_ (hpositions ▸ h.ids.afterRecall _ _) fun j p hji hj hmem' =>
    hpositions ▸ mem_afterRecall (fun hid => hji (h.alone j i p position hj htaken hid)) hmem'
  rw [hpositions, sharesActive_afterRecall hash h.ids.nodup hmem hactive, hheld,
    allUnwritten_update hi _ fun _ _ => rfl, hredeemed]
  omega

end Accounted

/-- What is counted of each position: it has been redeemed at most once, and once if and only if it
is recalled or the recall that redeemed it has not marked it yet. -/
structure Counted (s : State) (phases : ℕ → Phase) (redeemed : ℕ → ℕ) : Prop where
  once : ∀ p ∈ s.positions, redeemed p.id ≤ 1 ∧
    (redeemed p.id = 1 ↔ p.status = .recalled ∨ ∃ i, phases i = .redeemed p)
  fresh : ∀ id, s.positions.length ≤ id → redeemed id = 0

namespace Counted

variable {redeemed : ℕ → ℕ}

/-- Nothing is redeemed or marked. -/
theorem congr {phases' : ℕ → Phase} (h : Counted s phases redeemed)
    (hpositions : s'.positions = s.positions)
    (hphases : ∀ i p, phases' i = .redeemed p ↔ phases i = .redeemed p) :
    Counted s' phases' redeemed where
  once p hp := by
    obtain ⟨hle, hone⟩ := h.once p (hpositions ▸ hp)
    simp only [hphases]
    exact ⟨hle, hone⟩
  fresh id hid := h.fresh id (hpositions ▸ hid)

/-- A position that was found is redeemed, for the first time. -/
theorem redeem (h : Counted s phases redeemed) (ha : Accounted env s n phases)
    {position : Position} (hfound : phases i = .found position)
    (hpositions : s'.positions = s.positions) :
    Counted s' (Function.update phases i (.redeemed position))
      (Function.update redeemed position.id (redeemed position.id + 1)) where
  once p hp := by
    rw [hpositions] at hp
    have htaken : (phases i).taken = some position := by
      rw [hfound]
      rfl
    obtain ⟨hmem, hactive⟩ := ha.stored i position htaken
    obtain ⟨hle, hone⟩ := h.once p hp
    by_cases hid : p.id = position.id
    · obtain rfl := ha.ids.eq_of_id hp hmem hid
      have hnever : redeemed p.id ≠ 1 := by
        intro hsome
        rcases hone.mp hsome with hrecalled | ⟨j, hj⟩
        · rw [hactive] at hrecalled
          cases hrecalled
        · have hji : j = i := ha.alone j i p p (by rw [hj]; rfl) htaken rfl
          rw [hji, hfound] at hj
          cases hj
      rw [Function.update_self]
      exact ⟨by omega, fun _ => .inr ⟨i, Function.update_self ..⟩, fun _ => by omega⟩
    · rw [Function.update_of_ne hid]
      refine ⟨hle, hone.trans (or_congr_right (exists_congr fun j => ?_))⟩
      by_cases hji : j = i
      · rw [hji, Function.update_self, hfound]
        constructor
        · intro hj
          cases hj
        · intro hj
          obtain rfl := Phase.redeemed.inj hj
          exact absurd rfl hid
      · rw [Function.update_of_ne hji]
  fresh id hid := by
    rw [hpositions] at hid
    have hmem := (ha.stored i position (by rw [hfound]; rfl)).1
    have hlt := ha.ids.id_lt hmem
    rw [Function.update_of_ne (by omega)]
    exact h.fresh id hid

/-- The row of a parking has not been redeemed. -/
theorem parked (h : Counted s phases redeemed) (ha : Accounted env s n phases)
    (position : Position) (hbought : phases i = .bought position.shares)
    (hactive : position.status = .active) (hid : position.id = s.positions.length)
    (hpositions : s'.positions = s.positions ++ [position]) :
    Counted s' (Function.update phases i .idle) redeemed where
  once p hp := by
    have hsame : ∀ j, Function.update phases i .idle j = .redeemed p ↔ phases j = .redeemed p := by
      intro j
      by_cases hji : j = i
      · rw [hji, Function.update_self, hbought]
        constructor
        · intro hj
          cases hj
        · intro hj
          cases hj
      · rw [Function.update_of_ne hji]
    simp only [hsame]
    rw [hpositions] at hp
    rcases List.mem_append.mp hp with hp | hp
    · exact h.once p hp
    · obtain rfl := List.mem_singleton.mp hp
      have hnone := h.fresh p.id (by omega)
      refine ⟨by omega, fun hone => by omega, ?_⟩
      rintro (hrecalled | ⟨j, hj⟩)
      · rw [hactive] at hrecalled
        cases hrecalled
      · have hlt := ha.ids.id_lt (ha.stored j p (by rw [hj]; rfl)).1
        omega
  fresh id hlen := by
    rw [hpositions, List.length_append] at hlen
    exact h.fresh id (by omega)

/-- The row of a position that was redeemed is marked. -/
theorem recalled (h : Counted s phases redeemed) (ha : Accounted env s n phases)
    {position : Position} {hash : Hash} (hredeemed : phases i = .redeemed position)
    (hpositions : s'.positions = afterRecall position.id hash s.positions) :
    Counted s' (Function.update phases i .idle) redeemed where
  once p hp := by
    have htaken : (phases i).taken = some position := by
      rw [hredeemed]
      rfl
    have hmem := (ha.stored i position htaken).1
    rw [hpositions] at hp
    obtain ⟨q, hq, rfl⟩ := List.mem_map.mp hp
    by_cases hid : q.id = position.id
    · obtain rfl := ha.ids.eq_of_id hq hmem hid
      obtain ⟨hle, hone⟩ := h.once q hq
      rw [if_pos rfl]
      exact ⟨hle, fun _ => .inl rfl, fun _ => hone.mpr (.inr ⟨i, hredeemed⟩)⟩
    · rw [if_neg hid]
      obtain ⟨hle, hone⟩ := h.once q hq
      refine ⟨hle, hone.trans (or_congr_right (exists_congr fun j => ?_))⟩
      by_cases hji : j = i
      · rw [hji, Function.update_self, hredeemed]
        constructor
        · intro hj
          obtain rfl := Phase.redeemed.inj hj
          exact absurd rfl hid
        · intro hj
          cases hj
      · rw [Function.update_of_ne hji]
  fresh id hlen := by
    rw [hpositions, afterRecall, List.length_map] at hlen
    exact h.fresh id hlen

end Counted

end

/-! ## Histories of operations that keep apart -/

/-- Whether an event leaves an operation in the phase alone: it does not move the shares while the
operation measures them, and finds no position active that the operation has taken. -/
def Phase.spares (phase : Phase) : Event treasuryEffects → Bool
  | ⟨.subscribe _, .ok _⟩ => !phase.measures
  | ⟨.redeem _, .ok _⟩ => !phase.measures
  | ⟨.findPosition _, .ok (some position)⟩ =>
    decide (position.status ≠ .active) || phase.taken.all fun p => decide (p.id ≠ position.id)
  | _ => true

/-- No event of one operation disturbs another one. -/
def KeptApart : List (Entry treasuryEffects) → Prop
  | [] => True
  | e :: past => (∀ e' ∈ past, e'.tid ≠ e.tid →
      (phaseOf (trail e'.tid past)).spares ⟨e.stmt, e.answer⟩ = true) ∧ KeptApart past

instance decidableKeptApart : ∀ h, Decidable (KeptApart h)
  | [] => inferInstanceAs (Decidable True)
  | e :: past =>
    have := decidableKeptApart past
    inferInstanceAs (Decidable ((∀ e' ∈ past, e'.tid ≠ e.tid →
      (phaseOf (trail e'.tid past)).spares ⟨e.stmt, e.answer⟩ = true) ∧ KeptApart past))

/-- Whether an event redeems the shares of a position that was found. -/
def Phase.redeems (phase : Phase) (id : ℕ) : Event treasuryEffects → Bool
  | ⟨.redeem _, .ok _⟩ => match phase with
    | .found position => decide (position.id = id)
    | _ => false
  | _ => false

/-- How often the shares of a position were redeemed from the fund. -/
def redemptions (id : ℕ) : List (Entry treasuryEffects) → ℕ
  | [] => 0
  | e :: past => redemptions id past +
      if (phaseOf (trail e.tid past)).redeems id ⟨e.stmt, e.answer⟩ = true then 1 else 0

/-- The phases of the operations after a history. -/
def phasesOf (h : List (Entry treasuryEffects)) (i : ℕ) : Phase := phaseOf (trail i h)

/-- An entry moves its operation on to the next phase. -/
theorem phasesOf_cons (e : Entry treasuryEffects) (h : List (Entry treasuryEffects)) :
    phasesOf (e :: h) = Function.update (phasesOf h) e.tid
      ((phasesOf h e.tid).next ⟨e.stmt, e.answer⟩) := by
  funext i
  by_cases hi : i = e.tid
  · rw [hi, Function.update_self, phasesOf, trail_own rfl]
    rfl
  · rw [Function.update_of_ne hi, phasesOf, trail_other (Ne.symm hi)]
    rfl

/-- An operation that has performed nothing is spared. -/
theorem spares_idle (e : Event treasuryEffects) : Phase.idle.spares e = true := by
  obtain ⟨o, r⟩ := e
  cases o with
  | findPosition id =>
    cases r with
    | ok found =>
      cases found with
      | some position => exact Bool.or_true _
      | none => rfl
    | error e => rfl
  | subscribe amount => cases r <;> rfl
  | redeem shares => cases r <;> rfl
  | _ => rfl

/-- The newest step of operations that are kept apart spares every other one. -/
theorem KeptApart.spared {e : Entry treasuryEffects} {h : List (Entry treasuryEffects)}
    (ha : KeptApart (e :: h)) {j : ℕ} (hj : j ≠ e.tid) :
    (phasesOf h j).spares ⟨e.stmt, e.answer⟩ = true := by
  by_cases hsome : ∃ e' ∈ h, e'.tid = j
  · obtain ⟨e', he', rfl⟩ := hsome
    exact ha.1 e' he' hj
  · have hnone : trail j h = [] := by
      refine List.eq_nil_iff_forall_not_mem.mpr fun x hx => hsome ?_
      exact ⟨_, mem_of_trail hx, rfl⟩
    rw [phasesOf, hnone]
    exact spares_idle _

/-- Operations that are kept apart were so before. -/
theorem KeptApart.of_append {l h : List (Entry treasuryEffects)} (ha : KeptApart (l ++ h)) :
    KeptApart h := by
  induction l with
  | nil => exact ha
  | cons e l ih => exact ih ha.2

/-- What is counted changes only where a position is redeemed. -/
theorem redemptions_redeem {h : List (Entry treasuryEffects)} {i : ℕ} {shares : ℤ} {hash : Hash}
    {position : Position} (hfound : phasesOf h i = .found position) :
    (fun id => redemptions id (⟨i, .redeem shares, .ok hash⟩ :: h)) =
      Function.update (fun id => redemptions id h) position.id (redemptions position.id h + 1) := by
  funext id
  have hphase : phaseOf (trail i h) = .found position := hfound
  by_cases hid : id = position.id
  · rw [hid, Function.update_self, redemptions]
    simp only [hphase, Phase.redeems, decide_true, if_pos]
  · rw [Function.update_of_ne hid, redemptions]
    simp only [hphase, Phase.redeems, decide_eq_true_eq, if_neg (Ne.symm hid), add_zero]

/-- Only a redemption adds to those of a position. -/
theorem redemptions_other {h : List (Entry treasuryEffects)} {e : Entry treasuryEffects}
    (he : treasuryKind e.stmt ≠ .redeem) :
    (fun id => redemptions id (e :: h)) = fun id => redemptions id h := by
  funext id
  obtain ⟨i, o, r⟩ := e
  cases o with
  | redeem shares => exact absurd rfl he
  | _ => rfl

/-! ## Every statement keeps the account -/

section

variable {s s' : State} {n i : ℕ} {h : List (Entry treasuryEffects)}

/-- The rows account for the shares after a history, and what is counted is right. -/
structure Balanced (env : Env) (s : State) (n : ℕ) (h : List (Entry treasuryEffects)) : Prop where
  accounted : Accounted env s n (phasesOf h)
  counted : Counted s (phasesOf h) fun id => redemptions id h

/-- A statement that moves no shares and no rows keeps the balance. -/
theorem Balanced.neutral (hb : Balanced env s n h) {o : Stmt} {a : o.Result} (ho : Neutral o)
    (hperform : perform env o s = (.ok a, s')) :
    Balanced env s' n (⟨i, o, .ok a⟩ :: h) := by
  have hsame := untouched_of_neutral ho hperform
  have hphases : phasesOf (⟨i, o, .ok a⟩ :: h) = phasesOf h := by
    rw [phasesOf_cons, next_neutral ho, Function.update_eq_self]
  have hkind : treasuryKind o ≠ .redeem := by
    cases o with
    | redeem shares => cases ho
    | _ => exact TreasuryKind.noConfusion
  constructor
  · rw [hphases]
    exact hb.accounted.untouched hsame
  · rw [hphases, redemptions_other hkind]
    exact hb.counted.congr hsame.positions fun _ _ => Iff.rfl

/-- A statement that moves a phase on and writes no row. -/
theorem Balanced.advance (hb : Balanced env s n h) (hi : i < n) {o : Stmt} {a : o.Result}
    (phase : Phase) (hkind : treasuryKind o ≠ .redeem)
    (hnext : (phasesOf h i).next ⟨o, .ok a⟩ = phase) (hpositions : s'.positions = s.positions)
    (hothers : sharesHeld env s' = sharesHeld env s ∨
      ∀ j, j ≠ i → (phasesOf h j).measures = false)
    (hmoved : phase.unwritten (sharesHeld env s') -
      (phasesOf h i).unwritten (sharesHeld env s) = sharesHeld env s' - sharesHeld env s)
    (hread : ∀ before, phase = .measuring before → before = sharesHeld env s')
    (htaken : ∀ p, phase.taken = some p → (phasesOf h i).taken = some p ∨
      p ∈ s.positions ∧ p.status = .active ∧
        ∀ j q, j ≠ i → (phasesOf h j).taken = some q → q.id ≠ p.id)
    (hfree : ∀ p, phasesOf h i ≠ .redeemed p ∧ phase ≠ .redeemed p) :
    Balanced env s' n (⟨i, o, .ok a⟩ :: h) := by
  have hphases : phasesOf (⟨i, o, .ok a⟩ :: h) = Function.update (phasesOf h) i phase := by
    rw [phasesOf_cons, hnext]
  constructor
  · rw [hphases]
    exact hb.accounted.advance hi hpositions hothers hmoved hread htaken
  · rw [hphases, redemptions_other hkind]
    refine hb.counted.congr hpositions fun j p => ?_
    by_cases hji : j = i
    · rw [hji, Function.update_self]
      exact iff_of_false (hfree p).2 (hfree p).1
    · rw [Function.update_of_ne hji]

/-- Reading the shares keeps the balance. -/
theorem Balanced.sharesOf (hb : Balanced env s n h) (hi : i < n) {a : ℕ}
    (hallows : (phasesOf h i).Allows .sharesOf)
    (hperform : perform env .sharesOf s = (.ok a, s')) :
    Balanced env s' n (⟨i, .sharesOf, .ok a⟩ :: h) := by
  cases hperform
  rcases hallows with hidle | ⟨before, hsubscribed⟩
  · refine hb.advance hi (.measuring (sharesHeld env s)) TreasuryKind.noConfusion
      (by rw [hidle]; rfl) rfl (.inl rfl) ?_ (fun before hbefore => ?_) (fun p hp => by cases hp)
      (fun p => ⟨by rw [hidle]; exact Phase.noConfusion, Phase.noConfusion⟩)
    · rw [hidle]
      simp [Phase.unwritten]
    · exact (Phase.measuring.inj hbefore).symm
  · refine hb.advance hi (.bought (sharesHeld env s - before)) TreasuryKind.noConfusion
      (by rw [hsubscribed]; rfl) rfl (.inl rfl) ?_ (fun before hbefore => by cases hbefore)
      (fun p hp => by cases hp)
      (fun p => ⟨by rw [hsubscribed]; exact Phase.noConfusion, Phase.noConfusion⟩)
    rw [hsubscribed]
    simp [Phase.unwritten]

/-- Subscribing keeps the balance, where nobody else is measuring. -/
theorem Balanced.subscribe (hb : Balanced env s n h) (hi : i < n) {amount : ℕ} {hash : Hash}
    (hallows : (phasesOf h i).Allows (.subscribe amount))
    (hperform : perform env (.subscribe amount) s = (.ok hash, s'))
    (hspared : ∀ j, j ≠ i → (phasesOf h j).measures = false) :
    Balanced env s' n (⟨i, .subscribe amount, .ok hash⟩ :: h) := by
  obtain ⟨before, hmeasuring⟩ := hallows
  have hread := hb.accounted.read i before hmeasuring
  refine hb.advance hi (.subscribed before) TreasuryKind.noConfusion
    (by rw [hmeasuring]; rfl) (subscribe_positions hperform) (.inr hspared) ?_
    (fun _ hbefore => by cases hbefore) (fun p hp => by cases hp)
    (fun p => ⟨by rw [hmeasuring]; exact Phase.noConfusion, Phase.noConfusion⟩)
  rw [hmeasuring, hread]
  simp [Phase.unwritten]

/-- Taking a position up keeps the balance, where nobody else has taken it. -/
theorem Balanced.findPosition (hb : Balanced env s n h) (hi : i < n) {id : ℕ}
    {found : Option Position} (hallows : (phasesOf h i).Allows (.findPosition id))
    (hperform : perform env (.findPosition id) s = (.ok found, s'))
    (hspared : ∀ p, found = some p → p.status = .active →
      ∀ j q, j ≠ i → (phasesOf h j).taken = some q → q.id ≠ p.id) :
    Balanced env s' n (⟨i, .findPosition id, .ok found⟩ :: h) := by
  have hidle : phasesOf h i = .idle := hallows
  have hstays : ∀ {phase : Phase}, (phasesOf h i).next ⟨.findPosition id, .ok found⟩ = phase →
      phase = .idle ∨ (∃ p, found = some p ∧ p.status = .active ∧ phase = .found p) := by
    rintro phase rfl
    cases found with
    | none => exact .inl hidle
    | some p =>
      by_cases hactive : p.status = .active
      · exact .inr ⟨p, rfl, hactive, if_pos hactive⟩
      · exact .inl (if_neg hactive)
  have hmem : ∀ p, found = some p → p ∈ s.positions := by
    intro p hp
    have hfind : s.positions.find? (fun p => p.id = id) = found :=
      Except.ok.inj (congrArg Prod.fst hperform)
    exact List.mem_of_find?_eq_some (hfind.trans hp)
  have hs : s' = s := (congrArg Prod.snd hperform).symm
  subst hs
  have hphase := hstays rfl
  refine hb.advance hi _ TreasuryKind.noConfusion rfl rfl (.inl rfl) ?_ ?_ ?_ ?_
  · rw [hidle] at hphase ⊢
    rcases hphase with heq | ⟨p, -, -, heq⟩ <;> rw [heq] <;> simp [Phase.unwritten]
  · intro before hbefore
    rcases hphase with heq | ⟨p, -, -, heq⟩ <;> rw [heq] at hbefore <;> cases hbefore
  · intro p hp
    rcases hphase with heq | ⟨q, hfound, hactive, heq⟩
    · rw [heq] at hp
      cases hp
    · rw [heq] at hp
      obtain rfl := Option.some.inj hp
      exact .inr ⟨hmem q hfound, hactive, hspared q hfound hactive⟩
  · intro p
    refine ⟨by rw [hidle]; exact Phase.noConfusion, fun hredeemed => ?_⟩
    rcases hphase with heq | ⟨q, -, -, heq⟩ <;> rw [heq] at hredeemed <;> cases hredeemed

/-- Redeeming keeps the balance, where nobody else is measuring. -/
theorem Balanced.redeem (hb : Balanced env s n h) (hi : i < n) {shares : ℤ} {hash : Hash}
    (hallows : (phasesOf h i).Allows (.redeem shares))
    (hperform : perform env (.redeem shares) s = (.ok hash, s'))
    (hspared : ∀ j, j ≠ i → (phasesOf h j).measures = false) :
    Balanced env s' n (⟨i, .redeem shares, .ok hash⟩ :: h) := by
  obtain ⟨position, hfound, rfl⟩ := hallows
  obtain ⟨hpositions, hheld⟩ := redeem_held hperform
  have hphases : phasesOf (⟨i, .redeem position.shares, .ok hash⟩ :: h) =
      Function.update (phasesOf h) i (.redeemed position) := by
    rw [phasesOf_cons, hfound]
    rfl
  constructor
  · rw [hphases]
    refine hb.accounted.advance hi hpositions (.inr hspared) ?_
      (fun _ hbefore => by cases hbefore) (fun p hp => .inl (by rw [hfound]; exact hp))
    rw [hfound]
    simp only [Phase.unwritten]
    omega
  · rw [hphases, redemptions_redeem hfound]
    exact hb.counted.redeem hb.accounted hfound hpositions

/-- Recording a parking keeps the balance. -/
theorem Balanced.recordPark (hb : Balanced env s n h) {row : NewPosition} {detail : Detail} {id : ℕ}
    (hallows : (phasesOf h i).Allows (.recordPark row detail))
    (hperform : perform env (.recordPark row detail) s = (.ok id, s')) :
    Balanced env s' n (⟨i, .recordPark row detail, .ok id⟩ :: h) := by
  have hbought : phasesOf h i = .bought row.shares := hallows
  have hphases : phasesOf (⟨i, .recordPark row detail, .ok id⟩ :: h) =
      Function.update (phasesOf h) i .idle := by
    rw [phasesOf_cons]
    rfl
  cases hperform
  constructor
  · rw [hphases]
    exact hb.accounted.parked { row with id := s.positions.length } hbought rfl rfl
      rfl rfl
  · rw [hphases, redemptions_other TreasuryKind.noConfusion]
    exact hb.counted.parked hb.accounted { row with id := s.positions.length }
      hbought rfl rfl rfl

/-- Recording a recall keeps the balance. -/
theorem Balanced.recordRecall (hb : Balanced env s n h) {id : ℕ} {txHash : Hash} {detail : Detail}
    (hallows : (phasesOf h i).Allows (.recordRecall id txHash detail))
    (hperform : perform env (.recordRecall id txHash detail) s = (.ok (), s')) :
    Balanced env s' n (⟨i, .recordRecall id txHash detail, .ok ()⟩ :: h) := by
  obtain ⟨position, hredeemed, rfl⟩ := hallows
  have hphases : phasesOf (⟨i, .recordRecall position.id txHash detail, .ok ()⟩ :: h) =
      Function.update (phasesOf h) i .idle := by
    rw [phasesOf_cons]
    rfl
  simp only [perform] at hperform
  split at hperform
  · cases hperform
    constructor
    · rw [hphases]
      exact hb.accounted.recalled hredeemed rfl rfl
    · rw [hphases, redemptions_other TreasuryKind.noConfusion]
      exact hb.counted.recalled hb.accounted hredeemed rfl
  · cases hperform

/-- **One statement.** What an operation performs in its phase, disturbing no other one, keeps the
rows accounting for the shares. -/
theorem Balanced.performed (hb : Balanced env s n h) (hi : i < n) {o : Stmt} {a : o.Result}
    (hallows : (phasesOf h i).Allows o) (hperform : perform env o s = (.ok a, s'))
    (hapart : KeptApart (⟨i, o, .ok a⟩ :: h)) : Balanced env s' n (⟨i, o, .ok a⟩ :: h) := by
  have hspared : ∀ j, j ≠ i → (phasesOf h j).spares ⟨o, .ok a⟩ = true := fun j hj =>
    hapart.spared hj
  cases o with
  | sharesOf => exact hb.sharesOf hi hallows hperform
  | subscribe amount =>
    exact hb.subscribe hi hallows hperform fun j hj => Bool.not_eq_true' _ ▸ hspared j hj
  | findPosition id =>
    refine hb.findPosition hi hallows hperform ?_
    rintro p rfl hactive j q hj hq
    have hfree := hspared j hj
    simpa [Phase.spares, hactive, hq] using hfree
  | redeem shares =>
    exact hb.redeem hi hallows hperform fun j hj => Bool.not_eq_true' _ ▸ hspared j hj
  | recordPark row detail => exact hb.recordPark hallows hperform
  | recordRecall id txHash detail => exact hb.recordRecall hallows hperform
  | _ => exact hb.neutral trivial hperform

end

end SettlementOS.Analysis
