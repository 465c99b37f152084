import SettlementOS.Computation.Contract

/-!
# Reading logs back

Whoever follows contracts from outside sees their logs only. A reader keeps a view, changes it log
by log, and stops at a log that does not fit what it has read so far. When the logs of one call lead
from a view of the world before to a view of the world after, those of every history do.
-/

set_option autoImplicit false

namespace SettlementOS.Computation

variable {M : Machine} {V : Type}

/-- What the calls have emitted, oldest first. -/
def Ledger.logs (s : Ledger M) : List M.Log := s.receipts.reverse.flatMap Receipt.logs

/-- The logs of a ledger end with those of its last receipt. -/
theorem Ledger.logs_cons (w w' : M.World) (r : Receipt M) (receipts : List (Receipt M)) :
    (⟨w', r :: receipts⟩ : Ledger M).logs = (⟨w, receipts⟩ : Ledger M).logs ++ r.logs := by
  simp [Ledger.logs]

/-- The logs of every call that goes through are read, and the view agrees with the world again. -/
def Replays (M : Machine) (read : V → M.Log → Option V) (Agrees : V → M.World → Prop) : Prop :=
  ∀ w v c w' logs, Agrees v w → M.exec w c = .ok (w', logs) →
    ∃ v', logs.foldlM read v = some v' ∧ Agrees v' w'

/-- **Replay.** The logs of a history are read to the end, and the view agrees with the world. -/
theorem Replays.run {read : V → M.Log → Option V} {Agrees : V → M.World → Prop}
    (h : Replays M read Agrees) {w : M.World} {v : V} (hv : Agrees v w) (calls : List M.Call) :
    ∃ v', (Ledger.run ⟨w, []⟩ calls).logs.foldlM read v = some v' ∧
      Agrees v' (Ledger.run ⟨w, []⟩ calls).world := by
  refine Ledger.run_induct
    (P := fun s => ∃ v', s.logs.foldlM read v = some v' ∧ Agrees v' s.world)
    ⟨v, rfl, hv⟩ ?_ ?_ calls
  · rintro s c w' logs ⟨v₁, hread, hv₁⟩ hexec
    obtain ⟨v₂, hmore, hv₂⟩ := h _ _ _ _ _ hv₁ hexec
    refine ⟨v₂, ?_, hv₂⟩
    rw [Ledger.logs_cons s.world, List.foldlM_append, hread]
    exact hmore
  · rintro s c ⟨v₁, hread, hv₁⟩
    refine ⟨v₁, ?_, hv₁⟩
    rw [Ledger.logs_cons s.world, List.foldlM_append, hread]
    rfl

end SettlementOS.Computation
