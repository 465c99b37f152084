import Mathlib.Tactic.NormNum
import SettlementOS.Program.OpenSanctions

/-!
# What a screening makes of an answer

The loops of a screening go through the results the answer lists for the parties. What they leave
behind tells whether any of these is a match, and whether the highest score calls for a look; a
score that is not a number hides all others. A screening passes when nothing is thrown on the way
and neither is the case.
-/

set_option autoImplicit false

namespace SettlementOS.Analysis

open SettlementOS.Computation Model Program.OpenSanctions

variable {rt : Runtime} {body : JsValue} {parties : List ScreeningParty} {seen : JsValue → Prop}

/-- A result that the answer lists for one of the parties. -/
def Listed (body : JsValue) (parties : List ScreeningParty) (r : JsValue) : Prop :=
  ∃ p ∈ parties, ∃ results, resultsOf body p.kind = .ok results ∧ r ∈ results

/-- All of these results can be scored, and their scores are numbers. -/
def Numeric (rt : Runtime) (seen : JsValue → Prop) : Prop :=
  ∀ r, seen r → scoreOf rt r ≠ .ok none

/-- One of these results has a score that calls for a look. -/
def High (rt : Runtime) (seen : JsValue → Prop) : Prop :=
  ∃ r, seen r ∧ ∃ n, scoreOf rt r = .ok n ∧ atLeast possibleMatchScore n = true

/-- What a tally says of the results that were seen. -/
structure Tells (rt : Runtime) (seen : JsValue → Prop) (tally : Tally) : Prop where
  scored : ∀ r, seen r → ∃ n, scoreOf rt r = .ok n
  unmatched : tally.matchReasons = [] ↔ ∀ r, seen r → isMatch r = false
  numeric : tally.maxScore ≠ none ↔ Numeric rt seen
  high : atLeast possibleMatchScore tally.maxScore = true ↔ Numeric rt seen ∧ High rt seen

/-- Only what was seen matters. -/
theorem Tells.congr {seen' : JsValue → Prop} {tally : Tally} (h : Tells rt seen tally)
    (heq : ∀ r, seen r ↔ seen' r) : Tells rt seen' tally := by
  have hseen : seen = seen' := funext fun r => propext (heq r)
  exact hseen ▸ h

/-- Where nothing was seen there is nothing to tell. -/
theorem tells_nothing (h : ∀ r, ¬ seen r) : Tells rt seen {} where
  scored r hr := absurd hr (h r)
  unmatched := iff_of_true rfl fun r hr => absurd hr (h r)
  numeric := iff_of_true (Option.some_ne_none _) fun r hr => absurd hr (h r)
  high := by
    refine iff_of_false ?_ fun ⟨_, r, hr, _⟩ => h r hr
    rw [fixedScore, atLeast_some, magnitude_le]
    norm_num [possibleMatchScore]

/-! ## One result -/

/-- The reasons of a tally are left empty by what is no match only. -/
theorem matchReasons_eq_nil {kind : PartyKind} {reasons : List String} {r : JsValue} :
    (if isMatch r && !reasons.contains (matchReason kind) then reasons ++ [matchReason kind]
      else reasons) = [] ↔ reasons = [] ∧ isMatch r = false := by
  cases hm : isMatch r with
  | false => simp
  | true =>
    cases reasons with
    | nil => simp
    | cons reason reasons => split <;> simp

/-- One more result is numeric if its score is. -/
theorem numeric_or {r : JsValue} :
    Numeric rt (fun x => seen x ∨ x = r) ↔ Numeric rt seen ∧ scoreOf rt r ≠ .ok none := by
  constructor
  · intro h
    exact ⟨fun x hx => h x (.inl hx), h r (.inr rfl)⟩
  · rintro ⟨hseen, hr⟩ x (hx | rfl)
    · exact hseen x hx
    · exact hr

/-- One more result is high if its score is. -/
theorem high_or {r : JsValue} {n : JsNumber} (hn : scoreOf rt r = .ok n) :
    High rt (fun x => seen x ∨ x = r) ↔ High rt seen ∨ atLeast possibleMatchScore n = true := by
  constructor
  · rintro ⟨x, hx | rfl, m, hm, hhigh⟩
    · exact .inl ⟨x, hx, m, hm, hhigh⟩
    · rw [hn, Except.ok.injEq] at hm
      exact .inr (hm ▸ hhigh)
  · rintro (⟨x, hx, hhigh⟩ | hhigh)
    · exact ⟨x, .inl hx, hhigh⟩
    · exact ⟨r, .inr rfl, n, hn, hhigh⟩

/-- A round of the inner loop. -/
theorem Tells.step {kind : PartyKind} {tally tally' : Tally} {r : JsValue}
    (h : Tells rt seen tally) (hrun : tallyResult rt kind tally r = .ok tally') :
    Tells rt (fun x => seen x ∨ x = r) tally' := by
  cases hn : scoreOf rt r with
  | error e =>
    rw [tallyResult, hn] at hrun
    cases hrun
  | ok n =>
    have hnone : scoreOf rt r ≠ .ok none ↔ n ≠ none := by rw [hn, ne_eq, Except.ok.injEq]
    rw [tallyResult, hn] at hrun
    obtain rfl := Except.ok.inj hrun
    constructor
    · rintro x (hx | rfl)
      · exact h.scored x hx
      · exact ⟨n, hn⟩
    · rw [matchReasons_eq_nil, h.unmatched]
      constructor
      · rintro ⟨hseen, hr⟩ x (hx | rfl)
        · exact hseen x hx
        · exact hr
      · intro hall
        exact ⟨fun x hx => hall x (.inl hx), hall r (.inr rfl)⟩
    · rw [ne_eq, maxNumber_eq_none, not_or, numeric_or, hnone, ← h.numeric]
    · rw [atLeast_maxNumber, numeric_or, high_or hn, hnone, h.high, h.numeric]
      tauto

/-! ## The loops -/

/-- The results of one party. -/
theorem Tells.party {tally tally' : Tally} {p : ScreeningParty} (h : Tells rt seen tally)
    (hrun : tallyParty rt body tally p = .ok tally') :
    ∃ results, resultsOf body p.kind = .ok results ∧
      Tells rt (fun x => seen x ∨ x ∈ results) tally' := by
  cases hres : resultsOf body p.kind with
  | error e =>
    rw [tallyParty, hres] at hrun
    cases hrun
  | ok results =>
    rw [tallyParty, hres] at hrun
    have hstart : Tells rt (fun x => seen x ∨ x ∈ ([] : List JsValue)) tally := by simpa using h
    have hloop := foldlM_ok (I := fun done t => Tells rt (fun x => seen x ∨ x ∈ done) t)
      (fun done r s s' hs hstep => (hs.step hstep).congr fun x => by simp [or_assoc]) hstart hrun
    exact ⟨results, rfl, hloop⟩

/-- A tally that throws has met results or a score it cannot read. -/
theorem tallyParty_error {tally : Tally} {p : ScreeningParty} {e : JsError}
    (hrun : tallyParty rt body tally p = .error e) :
    resultsOf body p.kind = .error e ∨
      ∃ results, resultsOf body p.kind = .ok results ∧
        ∃ r ∈ results, scoreOf rt r = .error e := by
  cases hres : resultsOf body p.kind with
  | error e' =>
    rw [tallyParty, hres] at hrun
    exact .inl (congrArg _ (Except.error.inj hrun))
  | ok results =>
    rw [tallyParty, hres] at hrun
    obtain ⟨r, hr, t, hthrow⟩ := foldlM_error hrun
    cases hn : scoreOf rt r with
    | error e' =>
      rw [tallyResult, hn] at hthrow
      have he : e' = e := Except.error.inj hthrow
      exact .inr ⟨results, rfl, r, hr, he ▸ hn⟩
    | ok n =>
      rw [tallyResult, hn] at hthrow
      cases hthrow

/-- Something on the way through the answer throws. -/
def Throws (rt : Runtime) (body : JsValue) (parties : List ScreeningParty) : Prop :=
  (∃ p ∈ parties, ∃ e, resultsOf body p.kind = .error e) ∨
    ∃ r, Listed body parties r ∧ ∃ e, scoreOf rt r = .error e

/-- What is thrown comes from the answer. -/
theorem throws_of_error {tally : Tally} {e : JsError}
    (hrun : parties.foldlM (tallyParty rt body) tally = .error e) : Throws rt body parties := by
  obtain ⟨p, hp, t, hthrow⟩ := foldlM_error hrun
  rcases tallyParty_error hthrow with hres | ⟨results, hres, r, hr, hn⟩
  · exact .inl ⟨p, hp, e, hres⟩
  · exact .inr ⟨r, ⟨p, hp, results, hres, hr⟩, e, hn⟩

/-- Loops that end have gone through all the results, and nothing throws. -/
theorem tells_of_ok {tally : Tally}
    (hrun : parties.foldlM (tallyParty rt body) {} = .ok tally) :
    ¬ Throws rt body parties ∧ Tells rt (Listed body parties) tally := by
  have hstart : Tells rt (Listed body []) {} ∧
      ∀ p ∈ ([] : List ScreeningParty), ∃ results, resultsOf body p.kind = .ok results :=
    ⟨tells_nothing fun r ⟨p, hp, _⟩ => List.not_mem_nil hp, fun p hp => absurd hp List.not_mem_nil⟩
  have hloop := foldlM_ok (I := fun done t => Tells rt (Listed body done) t ∧
      ∀ p ∈ done, ∃ results, resultsOf body p.kind = .ok results) (fun done p s s' hs hstep => by
    obtain ⟨results, hres, htells⟩ := hs.1.party hstep
    refine ⟨htells.congr fun r => ?_, fun q hq => ?_⟩
    · simp [Listed, or_and_right, exists_or, hres]
    · rcases List.mem_append.mp hq with hq | hq
      · exact hs.2 q hq
      · exact List.mem_singleton.mp hq ▸ ⟨results, hres⟩) hstart hrun
  refine ⟨?_, hloop.1⟩
  rintro (⟨p, hp, e, he⟩ | ⟨r, hr, e, he⟩)
  · obtain ⟨results, hres⟩ := hloop.2 p hp
    exact nomatch he.symm.trans hres
  · obtain ⟨n, hn⟩ := hloop.1.scored r hr
    exact nomatch he.symm.trans hn

/-! ## A screening -/

/-- Some listed result is a match. -/
def Matched (body : JsValue) (parties : List ScreeningParty) : Prop :=
  ∃ r, Listed body parties r ∧ isMatch r = true

/-- All listed scores are numbers, and one calls for a look. -/
def Suspicious (rt : Runtime) (body : JsValue) (parties : List ScreeningParty) : Prop :=
  Numeric rt (Listed body parties) ∧ High rt (Listed body parties)

/-- An answer that a screening does not pass: none, one of another status, or one that throws on
the way, lists a match, or gives a high score among numbers. -/
def Caught (rt : Runtime) (answer : Except String HttpResponse)
    (parties : List ScreeningParty) : Prop :=
  ∀ res, answer = .ok res → res.status = 200 →
    Throws rt (res.body.getD .null) parties ∨ Matched (res.body.getD .null) parties ∨
      Suspicious rt (res.body.getD .null) parties

variable {round : JsNumber → JsNumber} {env : VendorEnv}
  {network : MatchRequest → Except String HttpResponse}

/-- What is made of a tally that tells of all results. -/
theorem conclude_pass_iff {tally : Tally} (h : Tells rt (Listed body parties) tally) :
    (conclude round tally body).status = .pass ↔
      ¬ Matched body parties ∧ ¬ Suspicious rt body parties := by
  have hmatched : tally.matchReasons = [] ↔ ¬ Matched body parties := by
    rw [h.unmatched]
    simp [Matched]
  rw [Suspicious, ← h.high, ← hmatched, conclude]
  split_ifs with hreasons hhigh
  · exact iff_of_false (by simp) fun hpass => hreasons hpass.1
  · exact iff_of_false (by simp) fun hpass => hpass.2 hhigh
  · exact iff_of_true rfl ⟨not_not.mp hreasons, hhigh⟩

/-- What is not screened does not pass. -/
theorem failSafe_ne_pass {provider error : String} {httpStatus : Option ℕ}
    {kept : Option JsValue} : (failSafe provider error httpStatus kept).status ≠ .pass := by
  simp [failSafe]

/-- A screening passes all but what it catches. -/
theorem pass_iff : (openSanctionsScreen rt round env network parties).status = .pass ↔
    ¬ Caught rt (network (matchRequest env parties)) parties := by
  rw [openSanctionsScreen]
  cases network (matchRequest env parties) with
  | error message => exact iff_of_false failSafe_ne_pass (by simp [Caught])
  | ok res =>
    have hcaught : Caught rt (.ok res) parties ↔ (res.status = 200 →
        Throws rt (res.body.getD .null) parties ∨ Matched (res.body.getD .null) parties ∨
          Suspicious rt (res.body.getD .null) parties) := by
      simp [Caught]
    show (if res.status ≠ 200 then _ else _ : VendorResult).status = _ ↔ _
    split_ifs with hstatus
    · exact iff_of_false failSafe_ne_pass (by simp [hcaught, hstatus])
    · have hok : res.status = 200 := not_not.mp hstatus
      cases hrun : parties.foldlM (tallyParty rt (res.body.getD .null)) {} with
      | error e =>
        have hthrows := throws_of_error hrun
        exact iff_of_false failSafe_ne_pass (by simp [hcaught, hthrows])
      | ok tally =>
        obtain ⟨hthrows, htells⟩ := tells_of_ok hrun
        rw [hcaught]
        simp only [hok, hthrows, true_imp_iff, false_or, not_or]
        exact conclude_pass_iff htells

/-- A screening that does not pass fails or goes to review. -/
theorem review_or_fail (h : (openSanctionsScreen rt round env network parties).status ≠ .pass) :
    (openSanctionsScreen rt round env network parties).status = .manualReview ∨
      (openSanctionsScreen rt round env network parties).status = .fail := by
  revert h
  simp only [openSanctionsScreen, conclude]
  split
  · intro _
    exact .inl rfl
  · split_ifs
    · intro _
      exact .inl rfl
    · split
      · intro _
        exact .inl rfl
      · split_ifs
        · intro _
          exact .inr rfl
        · intro _
          exact .inl rfl
        · intro h
          exact absurd rfl h

end SettlementOS.Analysis
