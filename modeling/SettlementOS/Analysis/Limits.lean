import SettlementOS.Program.Limits

/-!
# What the proxies' addresses come to

Each proxy adds one address to those in the header, whatever they are. As many from the end as the
deploy has proxies stands what the outermost has seen.
-/

set_option autoImplicit false

namespace SettlementOS.Analysis.Limits

open SettlementOS.Computation Model Model.RateLimit Program.Admin Program.Limits

/-- Trimming drops the blanks before an address. -/
theorem trim_plain {text : List Char} (h : ∀ c ∈ text, isSpace c = false) (blanks : ℕ) :
    trimString (String.ofList (List.replicate blanks ' ' ++ text)) = String.ofList text := by
  have hfront : (List.replicate blanks ' ' ++ text).dropWhile isSpace = text := by
    induction blanks with
    | zero =>
      cases text with
      | nil => rfl
      | cons c text =>
        exact List.dropWhile_cons_of_neg (by rw [h c List.mem_cons_self]; exact Bool.false_ne_true)
    | succ blanks ih => exact (List.dropWhile_cons_of_pos (by decide)).trans ih
  have hback : text.rdropWhile isSpace = text := by
    refine List.rdropWhile_eq_self_iff.mpr fun hne => ?_
    rw [h _ (List.getLast_mem hne)]
    exact Bool.false_ne_true
  unfold trimString
  rw [String.toList_ofList, hfront, hback]

/-- An address that was seen has neither a comma nor a space. -/
theorem seen_plain (seen : SeenAddress) {c : Char} (hc : c ∈ seen.text.toList) :
    (c == ',') = false ∧ isSpace c = false := by
  have h := List.all_eq_true.mp seen.plain c hc
  rw [Bool.and_eq_true, bne, Bool.not_eq_true', Bool.not_eq_true'] at h
  exact h

/-- An address by itself, behind blanks. -/
theorem split_plain (seen : SeenAddress) (blanks : ℕ) :
    (((List.replicate blanks ' ' ++ seen.text.toList).splitOn ',').map
      fun v => trimString (String.ofList v)).filter (· ≠ "") = [seen.text] := by
  have hcommas : ∀ c ∈ List.replicate blanks ' ' ++ seen.text.toList, (c == ',') = false := by
    intro c hc
    rcases List.mem_append.mp hc with hc | hc
    · rw [List.eq_of_mem_replicate hc]
      rfl
    · exact (seen_plain seen hc).1
  rw [List.splitOn_eq_splitOnP, List.splitOnP_eq_singleton hcommas, List.map_singleton,
    trim_plain (fun c hc => (seen_plain seen hc).2), String.ofList_toList]
  simp [seen.nonempty]

/-- A proxy puts one address behind the others. -/
theorem forwarded_appended (header : Option String) (seen : SeenAddress) :
    forwarded (appended header seen) = forwarded header ++ [seen.text] := by
  cases header with
  | none =>
    have hnone : forwarded none = [] := by
      have hblank : trimString (String.ofList []) = "" := 
        trim_plain (fun c hc => absurd hc List.not_mem_nil) 0
      unfold forwarded
      simp [hblank]
    rw [hnone, List.nil_append]
    exact split_plain seen 0
  | some before =>
    have hchars : (before ++ ", " ++ seen.text).toList =
        before.toList ++ ',' :: (List.replicate 1 ' ' ++ seen.text.toList) := by
      simp
    have hsplit := split_plain seen 1
    rw [List.splitOn_eq_splitOnP] at hsplit
    unfold forwarded appended
    rw [Option.getD_some, Option.getD_some, hchars, List.splitOn_eq_splitOnP,
      List.splitOnP_append_cons _ _ (by decide), List.map_append, List.filter_append, hsplit,
      List.splitOn_eq_splitOnP]

/-- Each proxy appends the address it has seen. -/
theorem forwarded_foldl (header : Option String) (seen : List SeenAddress) :
    forwarded (seen.foldl appended header) = forwarded header ++ seen.map SeenAddress.text := by
  induction seen generalizing header with
  | nil => exact (List.append_nil _).symm
  | cons first seen ih =>
    rw [List.foldl_cons, ih, forwarded_appended, List.append_assoc, List.map_cons]
    rfl

/-- With as many hops as the deploy has proxies, the address is what the outermost has seen. -/
theorem clientAddress_header {hops : Option String} {a : Arrival}
    (h : a.inner.length + 1 = trustedProxyHops hops) :
    clientAddress hops a.header a.realIp = a.outermost.text := by
  have haddresses : forwarded a.header =
      forwarded a.forwardedFor ++ a.outermost.text :: a.inner.map SeenAddress.text := by
    rw [Arrival.header, forwarded_foldl, forwarded_appended, List.append_assoc]
    rfl
  have hlength : (forwarded a.header).length =
      (forwarded a.forwardedFor).length + trustedProxyHops hops := by
    rw [haddresses, List.length_append, List.length_cons, List.length_map, h]
  have hlong : 0 < trustedProxyHops hops ∧ trustedProxyHops hops ≤ (forwarded a.header).length := by
    omega
  have hindex : (forwarded a.header).length - trustedProxyHops hops =
      (forwarded a.forwardedFor).length := by
    omega
  unfold clientAddress
  rw [dif_pos hlong]
  refine Option.some.inj ?_
  rw [← List.getElem?_eq_getElem, hindex, haddresses, List.getElem?_append_right (le_refl _),
    Nat.sub_self]
  rfl

/-- Different subjects have different keys. -/
theorem subject_text_injective : Function.Injective Subject.text := by
  intro x y h
  have hchars := congrArg String.toList h
  cases x with
  | key keyId =>
    cases y with
    | key keyId' =>
      have hkeys : keyId.toList = keyId'.toList := by simpa [Subject.text] using hchars
      rw [String.toList_inj.mp hkeys]
    | ip address => simp [Subject.text] at hchars
  | ip address =>
    cases y with
    | key keyId => simp [Subject.text] at hchars
    | ip address' =>
      have haddresses : address.toList = address'.toList := by simpa [Subject.text] using hchars
      rw [String.toList_inj.mp haddresses]

/-- The key of a request is that of who it came from. -/
theorem rateLimitKey_request {hops : Option String} {a : Arrival}
    (h : a.inner.length + 1 = trustedProxyHops hops) :
    rateLimitKey (a.request hops) = a.subject.text := by
  unfold rateLimitKey Arrival.subject Arrival.request
  cases hprincipal : a.principal with
  | some p => rfl
  | none => rw [clientAddress_header h]; rfl

end SettlementOS.Analysis.Limits
