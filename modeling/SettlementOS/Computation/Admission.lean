import SettlementOS.Computation.Service

/-!
# Requests that are let in

In front of a service stands whatever decides which calls become requests: `grant` answers a
call with the request it makes, or refuses it. A run behind an admission is a run of calls that
arrive, of the programs in flight and of the outside. It is a run of the service, and behind
each of its requests is the call that made it.
-/

set_option autoImplicit false

namespace SettlementOS.Computation.Service

variable (S : Service) (A : Type)

/-- A configuration, with the calls that were let in, oldest first. -/
structure Desk where
  /-- the configuration of the service -/
  config : S.Config
  /-- who made the requests -/
  calls : List A

/-- The moves of a run behind an admission. -/
inductive DeskMove where
  /-- a call arrives -/
  | arrive (a : A)
  /-- program `i` performs its next statement -/
  | perform (i : ℕ) (c : S.Choice)
  /-- the outside moves -/
  | outside (x : S.Outside)

variable {S A}

/-- One move. A call that is refused changes nothing. -/
def Desk.step (grant : A → Option S.Request) (d : Desk S A) : DeskMove S A → Option (Desk S A)
  | .arrive a =>
    match grant a with
    | some r => (d.config.step (.start r)).map fun c => ⟨c, d.calls ++ [a]⟩
    | none => some d
  | .perform i c => (d.config.step (.perform i c)).map fun c => { d with config := c }
  | .outside x => (d.config.step (.outside x)).map fun c => { d with config := c }

/-- The moves of a run, one after the other. -/
def Desk.run (grant : A → Option S.Request) (d : Desk S A) :
    List (DeskMove S A) → Option (Desk S A)
  | [] => some d
  | m :: ms => (d.step grant m).bind fun d' => d'.run grant ms

/-- Before the first call. -/
def Desk.start (s : S.State) : Desk S A := ⟨Config.start s, []⟩

/-- Some run behind the admission leads from `d` to `d'`. -/
def Desk.Reaches (grant : A → Option S.Request) (d d' : Desk S A) : Prop :=
  ∃ ms, d.run grant ms = some d'

/-- Each request is one a call was let in with. -/
structure Desk.Admitted (grant : A → Option S.Request) (d : Desk S A) : Prop where
  calls : d.calls.length = d.config.threads.length
  admitted : ∀ (i : ℕ) (t : S.Thread), d.config.threads[i]? = some t →
    ∃ a, d.calls[i]? = some a ∧ grant a = some t.request

variable {grant : A → Option S.Request}

/-- The requests in flight stay the same when a program or the outside moves. -/
theorem Desk.Admitted.congr {d : Desk S A} {c : S.Config} (h : d.Admitted grant)
    (hc : c.threads.map Thread.request = d.config.threads.map Thread.request) :
    Desk.Admitted grant ⟨c, d.calls⟩ where
  calls := by
    have hlength := congrArg List.length hc
    simp only [List.length_map] at hlength
    rw [hlength]
    exact h.calls
  admitted i t ht := by
    have hrequest : (d.config.threads.map Thread.request)[i]? = some t.request := by
      rw [← hc, List.getElem?_map, ht]
      rfl
    rw [List.getElem?_map, Option.map_eq_some_iff] at hrequest
    obtain ⟨t', ht', heq⟩ := hrequest
    obtain ⟨a, ha, hadmit⟩ := h.admitted i t' ht'
    exact ⟨a, ha, heq ▸ hadmit⟩

/-- Performing changes no request. -/
theorem Config.step_requests {c c' : S.Config} {m : S.Move} (hm : c.step m = some c')
    (hstart : ∀ r, m ≠ .start r) :
    c'.threads.map Thread.request = c.threads.map Thread.request := by
  rcases Config.step_eq_some hm with ⟨r, rfl, -⟩ | ⟨i, ch, r, o, k, a, w, -, hi, -, rfl⟩ |
    ⟨x, s, -, -, rfl⟩
  · exact absurd rfl (hstart r)
  · apply List.ext_getElem?
    intro j
    rw [List.getElem?_map, List.getElem?_map]
    by_cases hij : i = j
    · subst hij
      rw [List.getElem?_set_self (List.getElem?_eq_some_iff.mp hi).1, hi]
      rfl
    · rw [List.getElem?_set_ne hij]
  · rfl

/-- **A run behind an admission is a run of the service**, whose requests were all let in. -/
theorem Desk.Reaches.sound {s : S.State} {d : Desk S A} (h : (Desk.start s).Reaches grant d) :
    (Config.start s).Reaches d.config ∧ d.Admitted grant := by
  suffices H : ∀ (ms : List (DeskMove S A)) (d₀ : Desk S A),
      (Config.start s).Reaches d₀.config ∧ d₀.Admitted grant → d₀.run grant ms = some d →
        (Config.start s).Reaches d.config ∧ d.Admitted grant by
    obtain ⟨ms, hms⟩ := h
    exact H ms _ ⟨.refl _, ⟨rfl, by simp [Desk.start, Config.start]⟩⟩ hms
  intro ms
  induction ms with
  | nil =>
    intro d₀ h₀ hd
    cases hd
    exact h₀
  | cons m ms ih =>
    intro d₀ h₀ hd
    obtain ⟨d₁, hm, hd⟩ := Option.bind_eq_some_iff.mp hd
    refine ih d₁ ?_ hd
    cases m with
    | arrive a =>
      simp only [Desk.step] at hm
      split at hm
      · rename_i r hr
        simp only [Config.step, Option.map_some, Option.some.injEq] at hm
        subst hm
        refine ⟨h₀.1.tail (m := .start r) rfl, ?_, fun i t ht => ?_⟩
        · simp [h₀.2.calls]
        · by_cases hlt : i < d₀.config.threads.length
          · rw [List.getElem?_append_left hlt] at ht
            obtain ⟨a', ha', hadmit⟩ := h₀.2.admitted i t ht
            have hcall : i < d₀.calls.length := h₀.2.calls ▸ hlt
            exact ⟨a', by rw [List.getElem?_append_left hcall, ha'], hadmit⟩
          · have hlength := (List.getElem?_eq_some_iff.mp ht).1
            rw [List.length_append, List.length_singleton] at hlength
            have hi : d₀.config.threads.length = i := by omega
            subst hi
            rw [List.getElem?_concat_length, Option.some.injEq] at ht
            subst ht
            exact ⟨a, by rw [← h₀.2.calls, List.getElem?_concat_length], hr⟩
      · cases hm
        exact h₀
    | perform i c =>
      obtain ⟨c', hc, rfl⟩ := Option.map_eq_some_iff.mp hm
      exact ⟨h₀.1.tail hc, h₀.2.congr (Config.step_requests hc fun r h => by cases h)⟩
    | outside x =>
      obtain ⟨c', hc, rfl⟩ := Option.map_eq_some_iff.mp hm
      exact ⟨h₀.1.tail hc, h₀.2.congr (Config.step_requests hc fun r h => by cases h)⟩

end SettlementOS.Computation.Service
