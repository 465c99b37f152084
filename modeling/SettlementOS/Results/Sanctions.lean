import SettlementOS.Analysis.Sanctions

/-!
# When a screening passes

A screening should pass only a complete answer that holds nothing against the parties. It does so
unless the answer is incomplete and nothing gives that away: a body that could not be read, a party
the answer leaves out and a result without a score all count as nothing found.
-/

set_option autoImplicit false

namespace SettlementOS.Results

open SettlementOS.Computation Model Program.OpenSanctions Analysis

/-- The results array of a party. -/
def resultsArray (body : JsValue) (kind : PartyKind) : Option (List JsValue) :=
  match ((body.field "responses").bind (JsValue.field kind.name)).bind
    (JsValue.field "results") with
  | some (.array results) => some results
  | _ => none

/-- A parsed body that holds for every party an array of results, each satisfying `P`. -/
def Holds (P : JsValue → Prop) (answer : Except String HttpResponse)
    (parties : List ScreeningParty) : Prop :=
  ∃ status body, answer = .ok ⟨status, some body⟩ ∧
    ∀ p ∈ parties, ∃ results, resultsArray body p.kind = some results ∧ ∀ r ∈ results, P r

/-- A result with a numeric score. -/
def Scored (r : JsValue) : Prop := ∃ m, r.field "score" = some (.number m)

/-- A result that is no match and scores below the threshold. -/
def Harmless (r : JsValue) : Prop :=
  isMatch r = false ∧ ∃ m, r.field "score" = some (.number m) ∧ m < magnitude possibleMatchScore

/-- An answer of status 200 that is complete and holds nothing against the parties. -/
def Clean (answer : Except String HttpResponse) (parties : List ScreeningParty) : Prop :=
  (∃ res, answer = .ok res ∧ res.status = 200) ∧ Holds Harmless answer parties

/-- What is said of a screening: it passes clean answers only, and fails or reviews all others. -/
def Screens (answer : Except String HttpResponse) (parties : List ScreeningParty)
    (result : VendorResult) : Prop :=
  (result.status = .pass → Clean answer parties) ∧
    (¬ Clean answer parties → result.status = .manualReview ∨ result.status = .fail)

/-! ## Complete answers -/

/-- Results that are an array are read. -/
theorem resultsOf_of_array {body : JsValue} {kind : PartyKind} {results : List JsValue}
    (h : resultsArray body kind = some results) : resultsOf body kind = .ok results := by
  unfold resultsArray at h
  split at h
  · rename_i items hitems
    obtain rfl := Option.some.inj h
    cases hresponses : body.field "responses" with
    | none => simp [hresponses] at hitems
    | some responses =>
      rw [hresponses] at hitems
      have hnull : responses ≠ .null := by
        rintro rfl
        simp [JsValue.field] at hitems
      have hsome : JsValue.orElse (some responses) (.object []) = responses := by
        cases responses <;> first | rfl | exact absurd rfl hnull
      simp only [resultsOf, hresponses, hsome]
      rw [Option.bind_some] at hitems
      rw [hitems]
      rfl
  · cases h

/-- A number is its own score. -/
theorem scoreOf_number {rt : Runtime} {r : JsValue} {m : Magnitude}
    (h : r.field "score" = some (.number m)) : scoreOf rt r = .ok (some m) := by
  cases r with
  | object fields =>
    rw [scoreOf, h]
    · rfl
    · exact JsValue.noConfusion
  | _ => cases h

/-- A complete answer that is passed is clean. -/
theorem harmless_of_complete {rt : Runtime} {body : JsValue} {parties : List ScreeningParty}
    (hmatched : ¬ Matched body parties) (hsuspicious : ¬ Suspicious rt body parties)
    (hcomplete : ∀ p ∈ parties, ∃ results, resultsArray body p.kind = some results ∧
      ∀ r ∈ results, Scored r) {p : ScreeningParty} (hp : p ∈ parties) :
    ∃ results, resultsArray body p.kind = some results ∧ ∀ r ∈ results, Harmless r := by
  have hnumeric : Numeric rt (Listed body parties) := by
    rintro r ⟨q, hq, results, hres, hr⟩ hn
    obtain ⟨results', harray, hscored⟩ := hcomplete q hq
    obtain rfl := Except.ok.inj (hres.symm.trans (resultsOf_of_array harray))
    obtain ⟨m, hm⟩ := hscored r hr
    rw [scoreOf_number hm] at hn
    exact absurd (Except.ok.inj hn) (Option.some_ne_none m)
  obtain ⟨results, harray, hscored⟩ := hcomplete p hp
  refine ⟨results, harray, fun r hr => ?_⟩
  have hlisted : Listed body parties r := ⟨p, hp, results, resultsOf_of_array harray, hr⟩
  obtain ⟨m, hm⟩ := hscored r hr
  refine ⟨?_, m, hm, ?_⟩
  · by_contra hmatch
    exact hmatched ⟨r, hlisted, Bool.eq_true_of_not_eq_false hmatch⟩
  · by_contra hlow
    refine hsuspicious ⟨hnumeric, r, hlisted, some m, scoreOf_number hm, ?_⟩
    exact atLeast_some.mpr (not_lt.mp hlow)

variable (rt : Runtime) (round : JsNumber → JsNumber) (env : VendorEnv)
  (network : MatchRequest → Except String HttpResponse) (parties : List ScreeningParty)

/-- A screening does what is said of it exactly where the answer is complete, or is caught. -/
theorem screens_iff :
    Screens (network (matchRequest env parties)) parties
        (openSanctionsScreen rt round env network parties) ↔
      Holds Scored (network (matchRequest env parties)) parties ∨
        Caught rt (network (matchRequest env parties)) parties := by
  constructor
  · intro h
    by_cases hcaught : Caught rt (network (matchRequest env parties)) parties
    · exact .inr hcaught
    · obtain ⟨-, status, body, hanswer, hall⟩ := h.1 (pass_iff.mpr hcaught)
      refine .inl ⟨status, body, hanswer, fun p hp => ?_⟩
      obtain ⟨results, harray, hharmless⟩ := hall p hp
      refine ⟨results, harray, fun r hr => ?_⟩
      obtain ⟨-, m, hm, -⟩ := hharmless r hr
      exact ⟨m, hm⟩
  · intro h
    have hclean : (openSanctionsScreen rt round env network parties).status = .pass →
        Clean (network (matchRequest env parties)) parties := by
      intro hpass
      have hpassed := pass_iff.mp hpass
      rcases h with ⟨status, body, hanswer, hcomplete⟩ | hcaught
      · simp only [Caught, hanswer, Except.ok.injEq, forall_eq', Classical.not_imp, not_or,
          Option.getD_some] at hpassed
        obtain ⟨hstatus, -, hmatched, hsuspicious⟩ := hpassed
        exact ⟨⟨_, hanswer, hstatus⟩, status, body, hanswer, fun p hp =>
          harmless_of_complete hmatched hsuspicious hcomplete hp⟩
      · exact absurd hcaught hpassed
    exact ⟨hclean, fun hunclean => review_or_fail fun hpass => hunclean (hclean hpass)⟩

/-- A body that cannot be read lists nothing, and is passed. -/
theorem pass_of_no_body {rt : Runtime} {round : JsNumber → JsNumber} {env : VendorEnv}
    {network : MatchRequest → Except String HttpResponse} {parties : List ScreeningParty}
    (h : network (matchRequest env parties) = .ok ⟨200, none⟩) :
    (openSanctionsScreen rt round env network parties).status = .pass := by
  have hlisted : ∀ r, ¬ Listed .null parties r := by
    rintro r ⟨p, hp, results, hres, hr⟩
    obtain rfl := Except.ok.inj hres
    cases hr
  rw [pass_iff, h]
  intro hcaught
  rcases hcaught _ rfl rfl with (⟨p, hp, e, he⟩ | ⟨r, hr, -⟩) | ⟨r, hr, -⟩ | ⟨-, r, hr, -⟩
  · cases he
  all_goals exact hlisted r hr

/-- A response of status 200 whose body cannot be read is no clean answer. -/
theorem unreadable_body_passes :
    ¬ ∀ (rt : Runtime) (round : JsNumber → JsNumber) (env : VendorEnv)
        (network : MatchRequest → Except String HttpResponse) (parties : List ScreeningParty),
      Screens (network (matchRequest env parties)) parties
        (openSanctionsScreen rt round env network parties) := by
  intro h
  have hpass := (h ⟨fun _ => "", fun _ => none, fun _ => ""⟩ id ⟨none, some "key"⟩
    (fun _ => .ok ⟨200, none⟩) [⟨.sender, "Acme Ltd", none⟩]).1 (pass_of_no_body rfl)
  obtain ⟨-, status, body, hanswer, -⟩ := hpass
  cases hanswer

end SettlementOS.Results
