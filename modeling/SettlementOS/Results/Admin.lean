import SettlementOS.Analysis.Admin

/-!
# The operator's credential

There is never more than one, its username stays what the first deploy said, and its password is
always one that opens it. Nobody moves the password who has not known it while the request was
served, and nobody is given a session who has not shown a password in force or a key.
-/

set_option autoImplicit false

namespace SettlementOS.Results

open SettlementOS.Computation Service Model Model.Admin Program.Admin Analysis.Admin

variable {crypto : Crypto} {env : ℕ → AdminEnv} {s : AdminState}
  {c c' : (service crypto env).Config} {m : (service crypto env).Move} {i : ℕ}

/-- Every run keeps the law of custody. -/
theorem lawful_admin (h : (Service.Config.start s).Reaches c) :
    Lawful (fun i r => custody crypto (env i) r) (fun i r => Grounds crypto (env i) r)
      (fun _ _ _ _ => True) c :=
  h.keeps (fun _ _ _ _ _ _ he _ => answers_of_exec (Option.some.inj he)) fun _ r => serve_custody r

/-- What a move does to the row. -/
inductive RowStep (m : (service crypto env).Move) (c c' : (service crypto env).Config) : Prop where
  | same (hrows : c'.world.state.credentials = c.world.state.credentials)
      (hevents : c.world.state.events <+: c'.world.state.events)
  | seeded (i : ℕ) (t : (service crypto env).Thread) (row : AdminCredential)
      (ht : c.threads[i]? = some t) (hrow : Seeds crypto (env i) row)
      (h : Created c.world.state c'.world.state row)
  | changed (i : ℕ) (ch : AdminChoice) (t : (service crypto env).Thread)
      (id passwordHash salt : String) (record : AuditRecord) (hm : m = .perform i ch)
      (ht : c.threads[i]? = some t)
      (hgrounds : Changes crypto t.request id passwordHash salt record (trail i c.world.history))
      (h : Rewritten c.world.state c'.world.state id passwordHash salt record)

/-- A step of a run does to the rows what its statement is meant to. -/
theorem rowStep (h : (Service.Config.start s).Reaches c) (hm : c.step m = some c') :
    RowStep m c c' := by
  have hreach := h.tail hm
  rcases Config.step_eq_some hm with ⟨r, -, rfl⟩ | ⟨i, ch, r, o, k, a, w, rfl, hi, he, rfl⟩ |
    ⟨x, s', -, hs, rfl⟩
  · exact .same rfl (List.prefix_refl _)
  · obtain ⟨s', hs, rfl⟩ := World.exec_eq_some.mp he
    obtain ⟨t, ht, hallows⟩ := (lawful_admin hreach).allows (l := []) rfl
    have hlt := (List.getElem?_eq_some_iff.mp hi).1
    have hrequest : t.request = r := by
      rw [List.getElem?_set_self hlt] at ht
      exact (congrArg Thread.request (Option.some.inj ht)).symm
    rw [hrequest] at hallows
    cases writes_of_exec (Option.some.inj hs) with
    | none hrows hevents => exact .same hrows (hevents ▸ List.prefix_refl _)
    | created row ho hcreated =>
      subst ho
      exact .seeded i _ row hi hallows hcreated
    | rewritten id passwordHash salt record ho hrewritten =>
      subst ho
      exact .changed i ch _ id passwordHash salt record rfl hi hallows hrewritten
  · cases x with
    | apiKeys rows =>
      cases hs
      exact .same rfl (List.prefix_refl _)
    | audit record =>
      cases hs
      exact .same rfl (List.prefix_append _ _)

/-! ## One row -/

/-- The password a request puts into the row: the deploy's, where it creates it, or the new one. -/
def Gives (env : AdminEnv) (r : Request) (password : String) (row : AdminCredential) : Prop :=
  (row.username = trimString (env.adminUsername.getD "") ∧ password = env.adminPassword.getD "") ∨
    ∃ key current, r = .password key current (some password)

/-- The one row: some request put a password into it that opens it. -/
structure CredentialKept (c : (service crypto env).Config) (row : AdminCredential) : Prop where
  only : c.world.state.credentials = [row]
  id : row.id = ADMIN_CREDENTIAL_ID
  named : row.username ≠ ""
  given : ∃ i t password, c.threads[i]? = some t ∧ Gives (env i) t.request password row ∧
    password ≠ "" ∧ Opens crypto password row

/-- A credential that is kept is kept by a step, and its password changed only with an event. -/
theorem CredentialKept.step {row : AdminCredential} (hk : CredentialKept c row)
    (h : (Service.Config.start s).Reaches c) (hm : c.step m = some c') :
    ∃ row', CredentialKept c' row' ∧ row'.username = row.username ∧
      c.world.state.events <+: c'.world.state.events ∧
        (row' = row ∨ ∃ principal, c'.world.state.events =
          c.world.state.events ++ [passwordChanged principal]) := by
  obtain ⟨i, t, password, ht, hgives, hpassword, hopens⟩ := hk.given
  obtain ⟨t', ht', hrequest⟩ := Config.request_of_step hm ht
  cases rowStep h hm with
  | same hrows hevents =>
    exact ⟨row, ⟨hrows.trans hk.only, hk.id, hk.named, i, t', password, ht', hrequest ▸ hgives,
      hpassword, hopens⟩, rfl, hevents, .inl rfl⟩
  | seeded j t₀ new ht₀ hnew hcreated =>
    -- there is a row with that id already
    obtain ⟨_, hid, -⟩ := hnew
    exact absurd (hk.id.trans hid.symm) (hcreated.1 row (hk.only ▸ List.mem_singleton_self _))
  | changed j ch t₀ id passwordHash salt record hmove ht₀ hgrounds hrewritten =>
    obtain ⟨key, current, new, principal, before, salt', hr, hnew, rfl, -, -, rfl, -, -, hhash,
      hsalt⟩ := hgrounds
    obtain ⟨t₁, ht₁, hrequest₁⟩ := Config.request_of_step hm ht₀
    obtain ⟨hrows, hevents⟩ := hrewritten
    rw [hk.only, List.map_cons, if_pos hk.id, List.map_nil] at hrows
    refine ⟨_, ⟨hrows, hk.id, hk.named, j, t₁, new, ht₁, .inr ⟨key, current, hrequest₁.trans hr⟩,
      hnew, opens_of_stored hhash hsalt⟩, rfl, ?_, .inr ⟨principal, hevents⟩⟩
    exact hevents ▸ List.prefix_append _ _

/-- The row is there, and what has become of it and of the log since. -/
theorem CredentialKept.run {row : AdminCredential} (hk : CredentialKept c row)
    (h : (Service.Config.start s).Reaches c) (hto : c.Reaches c') :
    ∃ row', CredentialKept c' row' ∧ row'.username = row.username ∧
      ∃ since, c'.world.state.events = c.world.state.events ++ since ∧
        (row' = row ∨ ∃ principal, passwordChanged principal ∈ since) := by
  refine hto.induct (P := fun c' => ∃ row', CredentialKept c' row' ∧
      row'.username = row.username ∧ ∃ since,
        c'.world.state.events = c.world.state.events ++ since ∧
          (row' = row ∨ ∃ principal, passwordChanged principal ∈ since))
    ⟨row, hk, rfl, [], (List.append_nil _).symm, .inl rfl⟩ ?_
  rintro c₁ m c₂ hto₁ ⟨row₁, hk₁, hname₁, since₁, hevents₁, hchanged₁⟩ hm
  obtain ⟨row₂, hk₂, hname₂, ⟨since₂, hevents₂⟩, hchanged₂⟩ := hk₁.step (h.trans hto₁) hm
  refine ⟨row₂, hk₂, hname₂.trans hname₁, since₁ ++ since₂, ?_, ?_⟩
  · rw [← hevents₂, hevents₁, List.append_assoc]
  · rcases hchanged₂ with rfl | ⟨principal, hwritten⟩
    · rcases hchanged₁ with rfl | ⟨principal, hmem⟩
      · exact .inl rfl
      · exact .inr ⟨principal, List.mem_append_left _ hmem⟩
    · refine .inr ⟨principal, List.mem_append_right _ ?_⟩
      rw [List.append_cancel_left (hevents₂.trans hwritten)]
      exact List.mem_singleton_self _

/-- There is no credential yet, or one that is kept. -/
theorem kept_or_empty (h : (Service.Config.start s).Reaches c) (hs : s.credentials = []) :
    c.world.state.credentials = [] ∨ ∃ row, CredentialKept c row := by
  refine h.induct (P := fun c : (service crypto env).Config =>
    c.world.state.credentials = [] ∨ ∃ row, CredentialKept c row) (.inl hs) ?_
  rintro c₁ m c₂ h₁ (hempty | ⟨row, hk⟩) hm
  · cases rowStep h₁ hm with
    | same hrows hevents => exact .inl (hrows.trans hempty)
    | seeded i t row ht hrow hcreated =>
      obtain ⟨salt, hid, hname, hnamed, hpassword, hhash, hsalt⟩ := hrow
      obtain ⟨t', ht', -⟩ := Config.request_of_step hm ht
      refine .inr ⟨row, ?_, hid, hnamed, i, t', _, ht', .inl ⟨hname, rfl⟩, hpassword,
        opens_of_stored hhash hsalt⟩
      rw [hcreated.2.1, hempty]
      rfl
    | changed i ch t id passwordHash salt record hmove ht hgrounds hrewritten =>
      left
      rw [hrewritten.1, hempty]
      rfl
  · obtain ⟨row', hk', -⟩ := hk.step h₁ hm
    exact .inr ⟨row', hk'⟩

/-- **There is one credential.** From an empty table, every run leads to an empty table or to one
row, which a password opens that a request has put there, and no empty one; and from then on the row
stays, with its username, and its password changes with an event only. -/
theorem credential_kept (h : (Service.Config.start s).Reaches c) (hs : s.credentials = []) :
    c.world.state.credentials = [] ∨ ∃ row, CredentialKept c row ∧
      ∀ c', c.Reaches c' → ∃ row', CredentialKept c' row' ∧ row'.username = row.username ∧
        ∃ since, c'.world.state.events = c.world.state.events ++ since ∧
          (row' = row ∨ ∃ principal, passwordChanged principal ∈ since) :=
  (kept_or_empty h hs).imp_right fun ⟨row, hk⟩ => ⟨row, hk, fun _ hto => hk.run h hto⟩

/-! ## Who moves the password -/

/-- A row that is there is the one row. -/
theorem sole_of_mem (h : (Service.Config.start s).Reaches c) (hs : s.credentials = [])
    {row : AdminCredential} (hrow : row ∈ c.world.state.credentials) :
    c.world.state.credentials = [row] := by
  rcases kept_or_empty h hs with hempty | ⟨row', hk⟩
  · rw [hempty] at hrow
    cases hrow
  · have hsame := hrow
    rw [hk.only, List.mem_singleton] at hsame
    rw [hsame, hk.only]

/-- The one credential has the fixed id. -/
theorem sole_id (h : (Service.Config.start s).Reaches c) (hs : s.credentials = [])
    {row : AdminCredential} (hrow : row ∈ c.world.state.credentials) :
    row.id = ADMIN_CREDENTIAL_ID := by
  rcases kept_or_empty h hs with hempty | ⟨row', hk⟩
  · rw [hempty] at hrow
    cases hrow
  · rw [hk.only, List.mem_singleton] at hrow
    exact hrow ▸ hk.id

/-- What is on a trail was answered while the request was served. -/
theorem answered_of_mem (h : (Service.Config.start s).Reaches c) {x : Event adminEffects}
    (hx : x ∈ trail i c.world.history) :
    ∃ c₁ ch s', (Service.Config.start s).Reaches c₁ ∧ c₁.Answered i x.stmt x.answer c ∧
      exec crypto x.stmt ch c₁.world.state = (x.answer, s') := by
  obtain ⟨since, rest, htrail⟩ := List.append_of_mem hx
  obtain ⟨c₁, ch, s', hc₁, hanswered, -, hexec⟩ := h.performed htrail
  exact ⟨c₁, ch, s', hc₁, hanswered, Option.some.inj hexec⟩

/-- **Only who knows the password moves it.** When a step changes the row, a request of an operator
has made it, which was served a row its current password opens; the new password opens the row
then, and the log names the operator. -/
theorem password_moved (h : (Service.Config.start s).Reaches c) (hs : s.credentials = [])
    (hm : c.step m = some c') {row row' : AdminCredential}
    (hrow : c.world.state.credentials = [row]) (hrow' : c'.world.state.credentials = [row'])
    (hne : row' ≠ row) :
    ∃ (i : ℕ) (ch : AdminChoice) (key current : Option String) (new : String)
      (rest : Prog adminEffects AdminErr Reply) (principal : Principal) (before : AdminCredential)
      (c₁ c₂ : (service crypto env).Config),
      m = .perform i ch ∧ c.threads[i]? = some ⟨.password key current (some new), rest⟩ ∧
      (Service.Config.start s).Reaches c₁ ∧
      c₁.Answered i (.principalForKey (key.getD "")) (.ok (some principal)) c ∧
      principalForKey c₁.world.state.apiKeys (crypto.hashKey (key.getD "")) = some principal ∧
      principal.role = .operator ∧
      (Service.Config.start s).Reaches c₂ ∧
      c₂.Answered i (.findUnique ADMIN_CREDENTIAL_ID) (.ok (some before)) c ∧
      c₂.world.state.credentials = [before] ∧ Opens crypto (current.getD "") before ∧
      Opens crypto new row' ∧ row'.username = row.username ∧
      c'.world.state.events = c.world.state.events ++ [passwordChanged principal] := by
  cases rowStep h hm with
  | same hrows hevents =>
    rw [hrow, hrow'] at hrows
    exact absurd (List.head_eq_of_cons_eq hrows) hne
  | seeded j t new ht hnew hcreated =>
    have hlength := congrArg List.length hcreated.2.1
    rw [hrow, hrow'] at hlength
    cases hlength
  | changed j ch t id passwordHash salt record hmove ht hgrounds hrewritten =>
    obtain ⟨key, current, new, principal, before, salt', hr, -, rfl, hkey, hrole, rfl, hread,
      hopens, hhash, hsalt⟩ := hgrounds
    obtain ⟨_, rest⟩ := t
    obtain rfl := hr
    obtain ⟨c₁, ch₁, _, hc₁, hanswered₁, hexec₁⟩ := answered_of_mem h hkey
    obtain ⟨c₂, ch₂, _, hc₂, hanswered₂, hexec₂⟩ := answered_of_mem h hread
    have hid : row.id = ADMIN_CREDENTIAL_ID := sole_id h hs (hrow ▸ List.mem_singleton_self _)
    obtain ⟨hrows, hevents⟩ := hrewritten
    rw [hrow, hrow', List.map_cons, if_pos hid, List.map_nil] at hrows
    obtain rfl := List.head_eq_of_cons_eq hrows
    exact ⟨j, ch, key, current, new, rest, principal, before, c₁, c₂, hmove, ht, hc₁, hanswered₁,
      principal_of_exec hexec₁, hrole, hc₂, hanswered₂, sole_of_mem hc₂ hs (found_of_exec hexec₂),
      hopens, opens_of_stored hhash hsalt, rfl, hevents⟩

/-! ## Who is given a session -/

/-- **Only who shows a password in force, or a key, is given a session.** For a password it is the
operator's key that becomes the cookie, which the deploy names; for a key it is that key. -/
theorem session_granted (h : (Service.Config.start s).Reaches c) (hs : s.credentials = [])
    {r : Request} {session : OperatorSession}
    (ht : c.threads[i]? = some ⟨r, .ret (.session session)⟩) :
    ∃ (principal : Principal) (c₁ : (service crypto env).Config),
      (Service.Config.start s).Reaches c₁ ∧
      c₁.Answered i (.principalForKey session.raw) (.ok (some principal)) c ∧
      principalForKey c₁.world.state.apiKeys (crypto.hashKey session.raw) = some principal ∧
      session.role = principal.role ∧ session.label = principal.label ∧
      ((∃ apiKey, r = .login apiKey ∧ session.raw = trimString (apiKey.getD "")) ∨
        ∃ (username password : Option String) (row : AdminCredential)
          (c₂ : (service crypto env).Config),
          r = .session username password ∧ session.raw = trimString ((env i).adminApiKey.getD "") ∧
          principal.role = .operator ∧ (Service.Config.start s).Reaches c₂ ∧
          c₂.Answered i .findFirst (.ok (some row)) c ∧ c₂.world.state.credentials = [row] ∧
          row.username = trimString (username.getD "") ∧ Opens crypto (password.getD "") row) := by
  have hgrounds : Grounds crypto (env i) r (.session session) (trail i c.world.history) :=
    (lawful_admin h).keeps i _ ht
  cases r with
  | session username password =>
    obtain ⟨row, principal, hread, hname, hopens, hkey, hrole, rfl⟩ := hgrounds
    obtain ⟨c₁, ch₁, _, hc₁, hanswered₁, hexec₁⟩ := answered_of_mem h hkey
    obtain ⟨c₂, ch₂, _, hc₂, hanswered₂, hexec₂⟩ := answered_of_mem h hread
    have hsole : c₂.world.state.credentials = [row] := sole_of_mem hc₂ hs (first_of_exec hexec₂)
    exact ⟨principal, c₁, hc₁, hanswered₁, principal_of_exec hexec₁, rfl, rfl, .inr ⟨username,
      password, row, c₂, rfl, rfl, hrole, hc₂, hanswered₂, hsole, hname, hopens⟩⟩
  | login apiKey =>
    obtain ⟨principal, hkey, rfl⟩ := hgrounds
    obtain ⟨c₁, ch₁, _, hc₁, hanswered₁, hexec₁⟩ := answered_of_mem h hkey
    exact ⟨principal, c₁, hc₁, hanswered₁, principal_of_exec hexec₁, rfl, rfl,
      .inl ⟨apiKey, rfl, rfl⟩⟩
  | password key current new => exact hgrounds.elim

/-! ## Signing in for the first time -/

/-- A function for scrypt: the password and the salt, cut or filled up to length. -/
def sampleCrypto : Crypto where
  scrypt password salt :=
    ⟨(password.toList.map (fun c : Char => UInt8.ofNat c.toNat) ++ salt ++
        List.replicate KEY_LEN 0).take KEY_LEN, by
      rw [List.length_take, List.length_append, List.length_replicate]
      exact Nat.min_eq_left (Nat.le_add_left _ _)⟩
  hashKey raw := raw

/-- What every deploy of the sample says. -/
def sampleDeploy : AdminEnv := ⟨some " ops ", some "first", some "sos_0"⟩

/-- Nobody has signed in. -/
def unseeded : AdminState where
  credentials := []
  apiKeys := [⟨"k", "sos_0", "OPERATOR", none, "ops"⟩]
  events := []

/-- A sign-in, which creates the row. -/
def firstSignIn : List (service sampleCrypto fun _ => sampleDeploy).Move :=
  .start (.session (some "ops") (some "first")) :: List.replicate 8 (.perform 0 {})

/-- And a change of the password, but for its last statement. -/
def beforeChange : List (service sampleCrypto fun _ => sampleDeploy).Move :=
  firstSignIn ++ .start (.password (some "sos_0") (some "first") (some "second")) ::
    List.replicate 6 (.perform 1 {})

/-- Where these moves lead. -/
theorem led (ms : List (service sampleCrypto fun _ => sampleDeploy).Move)
    {P : (service sampleCrypto fun _ => sampleDeploy).Config → Bool}
    (h : ((Service.Config.start (S := service sampleCrypto fun _ => sampleDeploy) unseeded).run
      ms).any P = true) :
    ∃ c, (Service.Config.start (S := service sampleCrypto fun _ => sampleDeploy)
      unseeded).Reaches c ∧ P c = true := by
  obtain ⟨c, hc, hP⟩ := (Option.any_eq_true _ _).mp h
  exact ⟨c, ⟨ms, hc⟩, hP⟩

/-- The usernames in the table. -/
def usernames (c : (service sampleCrypto fun _ => sampleDeploy).Config) : List String :=
  c.world.state.credentials.map AdminCredential.username

/-- The row after the first sign-in. -/
theorem credential_kept_first : ∃ (c : (service sampleCrypto fun _ => sampleDeploy).Config)
    (row : AdminCredential),
    (Service.Config.start (S := service sampleCrypto fun _ => sampleDeploy) unseeded).Reaches c ∧
      CredentialKept c row ∧ row.username = "ops" ∧
      ∀ c', c.Reaches c' → ∃ row', CredentialKept c' row' ∧ row'.username = "ops" := by
  obtain ⟨c, hc, hnames⟩ := led firstSignIn (P := fun c => usernames c == ["ops"])
    (by decide +kernel)
  have hnames : usernames c = ["ops"] := beq_iff_eq.mp hnames
  rcases credential_kept hc rfl with hempty | ⟨row, hk, hrun⟩
  · rw [usernames, hempty] at hnames
    cases hnames
  · rw [usernames, hk.only] at hnames
    have hname : row.username = "ops" := List.head_eq_of_cons_eq hnames
    refine ⟨c, row, hc, hk, hname, fun c' hto => ?_⟩
    obtain ⟨row', hk', hname', -⟩ := hrun c' hto
    exact ⟨row', hk', hname'.trans hname⟩

/-- The first sign-in has been given a session. -/
def signedIn (c : (service sampleCrypto fun _ => sampleDeploy).Config) : Bool :=
  match c.threads[(0 : ℕ)]? with
  | some ⟨.session (some "ops") (some "first"), .ret (.session _)⟩ => true
  | _ => false

/-- The key the first sign-in is given. -/
theorem session_granted_first : ∃ (c c₂ : (service sampleCrypto fun _ => sampleDeploy).Config)
    (row : AdminCredential),
    (Service.Config.start (S := service sampleCrypto fun _ => sampleDeploy) unseeded).Reaches c₂ ∧
      c₂.Answered 0 .findFirst (.ok (some row)) c ∧ signedIn c = true ∧
      c₂.world.state.credentials = [row] ∧ row.username = trimString "ops" ∧
      Opens sampleCrypto "first" row := by
  obtain ⟨c, hc, hsigned⟩ := led firstSignIn (P := signedIn) (by decide +kernel)
  have hP := hsigned
  unfold signedIn at hP
  split at hP
  · rename_i session ht
    obtain ⟨principal, c₁, -, -, -, -, -, hshown⟩ := session_granted hc rfl ht
    rcases hshown with ⟨_, hr, -⟩ |
      ⟨username, password, row, c₂, hr, -, -, hc₂, hread, hsole, hname, hopens⟩
    · cases hr
    · cases hr
      exact ⟨c, c₂, row, hc₂, hread, hsigned, hsole, hname, hopens⟩
  · cases hP

/-- The password is changed. -/
theorem password_moved_second : ∃ (c c' c₂ : (service sampleCrypto fun _ => sampleDeploy).Config)
    (i : ℕ) (before row row' : AdminCredential) (principal : Principal),
    (Service.Config.start (S := service sampleCrypto fun _ => sampleDeploy) unseeded).Reaches c₂ ∧
      c₂.Answered i (.findUnique ADMIN_CREDENTIAL_ID) (.ok (some before)) c ∧
      c₂.world.state.credentials = [before] ∧ c.step (.perform 1 {}) = some c' ∧
      c.world.state.credentials = [row] ∧ c'.world.state.credentials = [row'] ∧ row' ≠ row ∧
      principal.role = .operator ∧ row'.username = "ops" ∧
      c'.world.state.events = c.world.state.events ++ [passwordChanged principal] := by
  obtain ⟨c, hc, hP⟩ := led beforeChange (P := fun c => usernames c == ["ops"] &&
    (c.step (.perform 1 {})).any fun c' => usernames c' == ["ops"] &&
      c'.world.state.credentials != c.world.state.credentials) (by decide +kernel)
  obtain ⟨hnames, hstep⟩ := Bool.and_eq_true_iff.mp hP
  obtain ⟨c', hm, hP'⟩ := (Option.any_eq_true _ _).mp hstep
  obtain ⟨hnames', hmoved⟩ := Bool.and_eq_true_iff.mp hP'
  obtain ⟨row, hrow, hname⟩ := List.map_eq_singleton_iff.mp (beq_iff_eq.mp hnames)
  obtain ⟨row', hrow', hname'⟩ := List.map_eq_singleton_iff.mp (beq_iff_eq.mp hnames')
  have hne : row' ≠ row := by
    rintro rfl
    rw [hrow, hrow'] at hmoved
    simp at hmoved
  obtain ⟨i, -, -, -, -, -, principal, before, -, c₂, -, -, -, -, -, hrole, hc₂, hread, hsole, -, -,
    -, hevents⟩ := password_moved hc rfl hm hrow hrow' hne
  exact ⟨c, c', c₂, i, before, row, row', principal, hc₂, hread, hsole, hm, hrow, hrow', hne, hrole,
    hname', hevents⟩

end SettlementOS.Results
