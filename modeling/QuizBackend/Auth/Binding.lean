import QuizBackend.Auth.Refresh

/-!
# Which tokens a refresh token is exchanged for

Users log in, refresh, log out and have their sessions revoked, one call after another at times that
do not decrease. A refresh token belongs to the session it was issued for. It should be exchanged as
long as it is the current token of that session, and once more if the session held it before its
latest rotation and that was not longer ago than the grace window.

The first half holds of every call (`refreshToken_current`). The second is where the code looks at
another thing than the token: with no session of that `jti`, the user's most recently used session
stands in for it. It may be another session, while the token's own one was revoked
(`revoked_token_refreshes_other_session`), or the same one two rotations later. And the reuse is
counted in Redis only if the breaker lets it.

So the result is about the runs in which the session that stands in is the token's own and held it
last (`FallbackOwn`); there tokens are exchanged for their session alone, and once
(`refresh_bound_to_session`). What has to be known all along is `Inv`: a row is in step with the
token it names, and a token that has been presented late is counted until it expires, or its session
is revoked.
-/

namespace QuizBackend.Auth

open Lib AuthState Table
open List (mem_append_left not_mem_nil)

/-! ## Runs -/

structure SessionRotation where
  sessionId : String
  replaced : Option TokenHash
  rotatedAt : Int

/-- The state, and what has happened: the rotations, the tokens that were presented when no active
session had their `jti` any more, and those of them whose increment was short-circuited. A call that
broke off because Redis failed has not presented its token. -/
structure RefreshSystem where
  auth : AuthState
  rotations : List SessionRotation
  late : List RefreshToken
  uncounted : List RefreshToken

def RefreshSystem.start : RefreshSystem := ⟨AuthState.start, [], [], []⟩

/-- The token is good, and no active session has its `jti`. -/
def IsLate (s : AuthState) (call : RefreshCall) : Prop :=
  s.verifies call.token call.now = true ∧ call.admitted = true ∧
    getSessionByJtiAndUserId s.sessions call.token.jti call.token.sub (iso call.now) = none

instance (s : AuthState) (call : RefreshCall) : Decidable (IsLate s call) :=
  inferInstanceAs (Decidable (_ ∧ _))

def RefreshSystem.record (s : RefreshSystem) (call : RefreshCall) :
    Except RefreshError IssuedToken × AuthState → RefreshSystem
  | (result, auth) =>
    { auth
      rotations := match result with
        | .ok new => s.rotations ++ [⟨new.sessionId,
            (s.auth.sessions.find? new.sessionId).map (·.refreshTokenHash), call.now⟩]
        | .error _ => s.rotations
      late := if IsLate s.auth call ∧ result ≠ .error .cache then s.late ++ [call.token] else s.late
      uncounted := if IsLate s.auth call ∧ call.reply = .shortCircuited
        then s.uncounted ++ [call.token] else s.uncounted }

inductive RefreshAction where
  | login (userId sessionId jti : String) (context : SessionRequestContext) (now startedAt : Int)
      (order : List UserSession)
  | refresh (call : RefreshCall)
  | logout (token : RefreshToken) (now : Int)
  | revoke (revocation : Revocation) (now : Int)
  | revokeExcept (userId : String) (keep : Option String) (now : Int)
  | revokeExpired (now : Int)

def RefreshAction.now : RefreshAction → Int
  | .login _ _ _ _ now _ _ => now
  | .refresh call => call.now
  | .logout _ now | .revoke _ now | .revokeExcept _ _ now | .revokeExpired now => now

/-- `logout`: by the `jti` of a good token, by the hash of anything else. -/
def AuthState.logout (s : AuthState) (token : RefreshToken) (now : Int) : UserSessions :=
  if s.verifies token now then (revokeSessionByJti s.sessions token.jti (iso now)).2
  else (revokeSessionByRefreshTokenHash s.sessions (.sha256 token) (iso now)).2

/-- The answer of the query for the latest session, which is asked when the `jti` is not found. -/
def IsPossibleLatest (s : AuthState) (call : RefreshCall) : Prop :=
  IsLatestActiveSession s.sessions call.token.sub (iso call.now) call.latest

instance (s : AuthState) (call : RefreshCall) : Decidable (IsPossibleLatest s call) :=
  inferInstanceAs (Decidable (IsLatestActiveSession ..))

def RefreshSystem.run (cfg : RefreshConfig) (s : RefreshSystem) :
    RefreshAction → Option RefreshSystem
  | .login userId sessionId jti context now startedAt order =>
    if s.auth.IsNewJti jti then
      let token := issueTokens cfg userId jti now
      let row := newSession userId sessionId (sessionData cfg token context now) startedAt
      (createSessionWithActiveLimit s.auth.sessions row (iso now) cfg.maxActiveSessionsPerUser
        order).map fun sessions =>
          { s with auth := { s.auth with
              sessions, issued := s.auth.issued ++ [⟨token, sessionId⟩] } }
    else none
  | .refresh call =>
    if s.auth.IsNewJti call.newJti ∧ IsPossibleLatest s.auth call then
      some (s.record call (refreshToken cfg s.auth call))
    else none
  | .logout token now =>
    some { s with auth := { s.auth with sessions := s.auth.logout token now } }
  | .revoke revocation now =>
    some { s with auth := { s.auth with
      sessions := (revocation.run s.auth.sessions (iso now) now).1 } }
  | .revokeExcept userId keep now =>
    some { s with auth := { s.auth with
      sessions := revokeSessionsExcept s.auth.sessions userId keep (iso now) } }
  | .revokeExpired now =>
    some { s with auth := { s.auth with
      sessions := revokeExpiredSessions s.auth.sessions (iso now) } }

def RefreshSystem.tick (s : RefreshSystem) (now : Int) : RefreshSystem :=
  { s with auth := { s.auth with clock := now } }

def RefreshSystem.step (cfg : RefreshConfig) (s : RefreshSystem) (a : RefreshAction) :
    Option RefreshSystem :=
  if s.auth.clock ≤ a.now then (s.tick a.now).run cfg a else none

/-! ## What a token may be exchanged for -/

def lastRotation (rotations : List SessionRotation) (sessionId : String) : Option SessionRotation :=
  (rotations.filter fun r => decide (r.sessionId = sessionId)).getLast?

/-- The token is the current one of the session, or the one before, for the first time. -/
def MayExchange (cfg : RefreshConfig) (s : RefreshSystem) (call : RefreshCall)
    (session : UserSession) : Prop :=
  session.refreshTokenHash = .sha256 call.token ∨
    ∃ r, lastRotation s.rotations session.sessionId = some r ∧
      r.replaced = some (.sha256 call.token) ∧
      call.now - r.rotatedAt ≤ cfg.refreshReuseGraceWindowMs ∧ call.token ∉ s.late

/-- The tokens a call returns are for an active session that the presented one was issued for, and
that it may be exchanged for. -/
def ExchangedForItsSession (cfg : RefreshConfig) (s : RefreshSystem) (a : RefreshAction)
    (_ : RefreshSystem) : Prop :=
  match a with
  | .refresh call => ∀ new, (refreshToken cfg s.auth call).1 = .ok new →
      ∃ session ∈ s.auth.sessions.rows, session.isActive (iso call.now) = true ∧
        ⟨call.token, session.sessionId⟩ ∈ s.auth.issued ∧ new.sessionId = session.sessionId ∧
        MayExchange cfg s call session
  | _ => True

/-- Where the latest session stands in for a `jti` that is not found, it is the session of the token
and held it last; and a token that has been presented late before is counted, then and now. -/
def FallbackOwn (cfg : RefreshConfig) (s : RefreshSystem) (a : RefreshAction) : Prop :=
  match a with
  | .refresh call => IsLate s.auth call → ∀ session, call.latest = some session →
      canUseRefreshReuseGraceWindow cfg session call.context call.now = true →
        ⟨call.token, session.sessionId⟩ ∈ s.auth.issued ∧
          (lastRotation s.rotations session.sessionId).bind (·.replaced)
            = some (.sha256 call.token) ∧
          (call.token ∈ s.late →
            call.reply ≠ .shortCircuited ∧ call.token ∉ s.uncounted)
  | _ => True

instance (cfg : RefreshConfig) (s : RefreshSystem) (a : RefreshAction) :
    Decidable (FallbackOwn cfg s a) :=
  match a with
  | .refresh call =>
    match h : call.latest with
    | none => .isTrue fun _ _ hs => nomatch h.symm.trans hs
    | some session => decidable_of_iff (IsLate s.auth call →
        canUseRefreshReuseGraceWindow cfg session call.context call.now = true →
          ⟨call.token, session.sessionId⟩ ∈ s.auth.issued ∧
            (lastRotation s.rotations session.sessionId).bind (·.replaced)
              = some (.sha256 call.token) ∧
            (call.token ∈ s.late → call.reply ≠ .shortCircuited ∧ call.token ∉ s.uncounted))
        ⟨fun hown hlate _ hs => Option.some.inj (h.symm.trans hs) ▸ hown hlate,
          fun hown hlate => hown hlate session h⟩
  | .login .. | .logout .. | .revoke .. | .revokeExcept .. | .revokeExpired .. => .isTrue trivial

/-! ## Tokens expire, counters last -/

structure Timed (cfg : RefreshConfig) (s : AuthState) : Prop where
  dated : ∀ i ∈ s.issued, i.token.exp = i.token.iat + cfg.refreshExpiresInSeconds ∧
    i.token.iat ≤ s.clock / 1000
  counted : ∀ c ∈ s.counters.rows, 1 ≤ c.count ∧ ∃ i ∈ s.issued,
    c.key = reuseCounterKey i.token.jti ∧ i.token.exp * 1000 ≤ c.expiresAt

/-- A reuse of the token was counted. -/
def ReuseCounted (s : AuthState) (token : RefreshToken) : Prop :=
  ∃ c ∈ s.counters.rows, c.key = reuseCounterKey token.jti

/-- The session of the token is revoked. -/
def SessionRevoked (s : AuthState) (token : RefreshToken) : Prop :=
  ∀ i ∈ s.issued, i.token = token → ∀ row ∈ s.sessions.rows, row.sessionId = i.sessionId →
    row.revokedAt.isSome

def Settled (s : AuthState) (token : RefreshToken) : Prop :=
  SessionRevoked s token ∨ ReuseCounted s token

theorem eq_of_key_eq {a b : String} (p : String) (h : p ++ a = p ++ b) : a = b := by
  have hlist := congrArg String.toList h
  rw [String.toList_append, String.toList_append] at hlist
  exact String.toList_inj.mp (List.append_cancel_left hlist)

theorem reuseCounterKey_inj {a b : String} (h : reuseCounterKey a = reuseCounterKey b) : a = b :=
  eq_of_key_eq "auth:refresh_reuse:" h

variable {token : RefreshToken} {now : Int} {sessions : UserSessions} {i : IssuedToken}
  {sessionId : String}

theorem AuthState.verifies_iff {s : AuthState} :
    s.verifies token now = true ↔ (∃ i ∈ s.issued, i.token = token) ∧ now / 1000 < token.exp := by
  simp [verifies]

theorem reuseRow_key (cfg : RefreshConfig) (s : AuthState) (call : RefreshCall) :
    (s.reuseRow cfg call).key = reuseCounterKey call.token.jti := by
  unfold reuseRow
  cases hfind : s.counters.find? (reuseCounterKey call.token.jti) with
  | none => rfl
  | some c =>
    have hkey := key_of_find? hfind
    unfold countedRow
    simp only
    split
    · exact hkey
    · rfl

namespace Timed

variable {cfg : RefreshConfig} {s : AuthState} {call : RefreshCall}

section

variable (h : Timed cfg s)
include h

theorem of_eq {s' : AuthState} (hissued : s'.issued = s.issued)
    (hcounters : s'.counters = s.counters) (hclock : s.clock ≤ s'.clock) : Timed cfg s' where
  dated i hi := by
    rw [hissued] at hi
    obtain ⟨hexp, hiat⟩ := h.dated i hi
    exact ⟨hexp, by omega⟩
  counted := by
    rw [hissued, hcounters]
    exact h.counted

theorem issue (userId jti sessionId : String) (hnow : now ≤ s.clock) :
    Timed cfg { s with issued := s.issued ++ [⟨issueTokens cfg userId jti now, sessionId⟩] } where
  dated i hi := by
    rcases List.mem_append.mp hi with hi | hi
    · exact h.dated i hi
    · rw [List.mem_singleton.mp hi]
      refine ⟨rfl, ?_⟩
      show now / 1000 ≤ s.clock / 1000
      omega
  counted c hc := by
    obtain ⟨hcount, i, hi, hkey⟩ := h.counted c hc
    exact ⟨hcount, i, mem_append_left _ hi, hkey⟩

theorem exp_le_ttl (hnow : s.clock ≤ call.now)
    (hv : s.verifies call.token call.now = true) :
    call.token.exp * 1000 ≤ call.now + reuseCounterTtlSeconds cfg call.token call.now * 1000 := by
  obtain ⟨⟨i, hi, htoken⟩, hexp⟩ := verifies_iff.mp hv
  obtain ⟨hexp', hiat⟩ := h.dated i hi
  rw [htoken] at hexp' hiat
  have httl : reuseCounterTtlSeconds cfg call.token call.now = call.token.exp - call.now / 1000 := by
    unfold reuseCounterTtlSeconds
    omega
  rw [httl]
  omega

theorem reuseRow (hok : s.Ok) (hnow : s.clock ≤ call.now)
    (hv : s.verifies call.token call.now = true) :
    1 ≤ (s.reuseRow cfg call).count ∧
      call.token.exp * 1000 ≤ (s.reuseRow cfg call).expiresAt := by
  have httl := h.exp_le_ttl hnow hv
  unfold AuthState.reuseRow
  cases hfind : s.counters.find? (reuseCounterKey call.token.jti) with
  | none => exact ⟨Nat.le_refl 1, httl⟩
  | some c =>
    have hkey := key_of_find? hfind
    obtain ⟨hcount, i, hi, hikey, hlast⟩ := h.counted c (mem_of_find? hfind)
    unfold countedRow
    simp only
    split
    · -- the counter is live, and it is one of the very token
      obtain ⟨⟨j, hj, htoken⟩, -⟩ := verifies_iff.mp hv
      have hjti : i.token.jti = j.token.jti := by
        rw [htoken]
        exact reuseCounterKey_inj (hikey.symm.trans hkey)
      rw [hok.eq_of_jti hi hj hjti, htoken] at hlast
      exact ⟨Nat.le_succ_of_le hcount, hlast⟩
    · exact ⟨Nat.le_refl 1, httl⟩

theorem countReuse (hok : s.Ok) (hnow : s.clock ≤ call.now)
    (hv : s.verifies call.token call.now = true) : Timed cfg (s.countReuse cfg call) where
  dated := h.dated
  counted c hc := by
    have hkey := reuseRow_key cfg s call
    obtain ⟨hcount, hlast⟩ := h.reuseRow hok hnow hv
    rcases mem_upsert.mp hc with rfl | ⟨hc, -⟩
    · obtain ⟨⟨i, hi, htoken⟩, -⟩ := verifies_iff.mp hv
      rw [← htoken] at hkey hlast
      exact ⟨hcount, i, hi, hkey, hlast⟩
    · exact h.counted c hc

theorem not_first (hok : s.Ok) (hv : s.verifies call.token call.now = true)
    (hc : ReuseCounted s call.token) : ¬ (s.reuseRow cfg call).count ≤ 1 := by
  obtain ⟨c, hc, hkey⟩ := hc
  obtain ⟨⟨j, hj, htoken⟩, hexp⟩ := verifies_iff.mp hv
  obtain ⟨hcount, i, hi, hikey, hlast⟩ := h.counted c hc
  have hjti : i.token.jti = j.token.jti := by
    rw [htoken]
    exact reuseCounterKey_inj (hikey.symm.trans hkey)
  rw [hok.eq_of_jti hi hj hjti, htoken] at hlast
  have hfind : s.counters.find? (reuseCounterKey call.token.jti) = some c :=
    find?_eq_some_iff.mpr ⟨hc, hkey⟩
  unfold AuthState.reuseRow countedRow
  rw [hfind]
  simp only
  rw [if_pos (by omega)]
  show ¬ c.count + 1 ≤ 1
  omega

end

end Timed

/-! ## What is settled stays so -/

theorem SessionRevoked.mono {s s' : AuthState} (h : SessionRevoked s token)
    (hissued : ∀ i ∈ s'.issued, i.token = token → i ∈ s.issued)
    (hrows : ∀ i ∈ s.issued, ∀ row' ∈ s'.sessions.rows, row'.sessionId = i.sessionId →
      ∃ row ∈ s.sessions.rows, row.sessionId = i.sessionId ∧ (row.revokedAt.isSome →
      row'.revokedAt.isSome)) :
    SessionRevoked s' token := by
  intro i hi htoken row' hrow' hsession
  have hi' := hissued i hi htoken
  obtain ⟨row, hrow, hid, hkeep⟩ := hrows i hi' row' hrow' hsession
  exact hkeep (h i hi' htoken row hrow hid)

theorem ReuseCounted.of_eq {s s' : AuthState} (h : ReuseCounted s token)
    (hcounters : s'.counters = s.counters) : ReuseCounted s' token := by
  unfold ReuseCounted
  rw [hcounters]
  exact h

theorem ReuseCounted.countReuse {cfg : RefreshConfig} {s : AuthState} (h : ReuseCounted s token)
    (call : RefreshCall) : ReuseCounted (s.countReuse cfg call) token := by
  obtain ⟨c, hc, hkey⟩ := h
  by_cases hsame : c.key = (s.reuseRow cfg call).key
  · exact ⟨_, mem_upsert.mpr (.inl rfl), hsame.symm.trans hkey⟩
  · exact ⟨c, mem_upsert.mpr (.inr ⟨hc, hsame⟩), hkey⟩

theorem Settled.onlyRevokes {s : AuthState} (h : Settled s token)
    (hr : OnlyRevokes s.sessions sessions) : Settled { s with sessions } token := by
  rcases h with h | h
  · refine .inl (h.mono (fun i hi _ => hi) ?_)
    intro i _ row' hrow' hsession
    obtain ⟨row, hrow, hfrom⟩ := hr.of_mem hrow'
    exact ⟨row, hrow, hfrom.sessionId_eq.symm.trans hsession, hfrom.revoked⟩
  · exact .inr (h.of_eq rfl)

theorem Settled.countReuse {cfg : RefreshConfig} {s : AuthState} (h : Settled s token)
    (call : RefreshCall) : Settled (s.countReuse cfg call) token := by
  rcases h with h | h
  · exact .inl h
  · exact .inr (h.countReuse call)

theorem Settled.issue {s : AuthState} (h : Settled s token) (hne : i.token ≠ token) :
    Settled { s with issued := s.issued ++ [i] } token := by
  rcases h with h | h
  · refine .inl ?_
    intro j hj htoken row hrow hsession
    rcases List.mem_append.mp hj with hj | hj
    · exact h j hj htoken row hrow hsession
    · rw [List.mem_singleton.mp hj] at htoken
      exact absurd htoken hne
  · exact .inr (h.of_eq rfl)

theorem Settled.rotate {s : AuthState} (h : Settled s token) {data : SessionData} {lastUsedAt : Int}
    (hrotate : rotateSessionWithLock s.sessions sessionId data lastUsedAt = some sessions) :
    Settled { s with sessions } token := by
  rcases h with h | h
  · refine .inl (h.mono (fun i hi _ => hi) ?_)
    intro i _ row' hrow' hsession
    obtain ⟨row, hrow, rfl⟩ := (mem_rotateSessionWithLock hrotate).mp hrow'
    split at hsession
    · next hid =>
      refine ⟨row, hrow, hsession, fun hrevoked => ?_⟩
      rw [if_pos hid]
      exact hrevoked
    · next hid =>
      refine ⟨row, hrow, hsession, fun hrevoked => ?_⟩
      rw [if_neg hid]
      exact hrevoked
  · exact .inr (h.of_eq rfl)

theorem Settled.insert {s : AuthState} (h : Settled s token) (hok : s.Ok) (hne : i.token ≠ token)
    {row : UserSession} (hinsert : insertSession? s.sessions row = some sessions) :
    Settled { s with sessions, issued := s.issued ++ [i] } token := by
  have hsessions : Settled { s with sessions } token := by
    rcases h with h | h
    · refine .inl (h.mono (fun i hi _ => hi) ?_)
      intro j hj row' hrow' hsession
      obtain ⟨hrows, -, hid⟩ := insertSession?_spec hinsert
      have hmem : row' ∈ sessions.rows := hrow'
      rw [hrows] at hmem
      rcases List.mem_append.mp hmem with hmem | hmem
      · exact ⟨row', hmem, hsession, id⟩
      · -- the session of an older token was there before
        rw [List.mem_singleton.mp hmem] at hsession
        obtain ⟨old, hold, hid', -⟩ := hok.owned j hj
        exact absurd (hid'.trans hsession.symm) (hid old hold)
    · exact .inr (h.of_eq rfl)
  exact hsessions.issue hne

/-! ## What a call leaves settled -/

section Outcome

variable {cfg : RefreshConfig} {s after : AuthState} {call : RefreshCall}
  {result : Except RefreshError IssuedToken}

/-- The session a call goes on with: an active one of the user of the token, by its `jti` or the
latest. -/
theorem resolveExistingSession_spec {session : UserSession}
    (hlatest : IsPossibleLatest s call) (h : resolveExistingSession cfg s call = some session) :
    session ∈ s.sessions.rows ∧ session.userId = call.token.sub ∧
      session.isActive (iso call.now) = true ∧
      (session.jti = call.token.jti ∨
        getSessionByJtiAndUserId s.sessions call.token.jti call.token.sub (iso call.now) = none ∧
          call.latest = some session ∧
          canUseRefreshReuseGraceWindow cfg session call.context call.now = true) := by
  unfold resolveExistingSession at h
  cases hfind : getSessionByJtiAndUserId s.sessions call.token.jti call.token.sub
      (iso call.now) with
  | some found =>
    rw [hfind] at h
    cases h
    obtain ⟨hrow, hjti, huser, hactive⟩ := getSessionByJtiAndUserId_spec hfind
    exact ⟨hrow, huser, hactive, .inl hjti⟩
  | none =>
    rw [hfind] at h
    obtain ⟨hsome, hgrace⟩ := Option.filter_eq_some_iff.mp h
    unfold IsPossibleLatest at hlatest
    rw [hsome] at hlatest
    obtain ⟨hrow, huser, hactive⟩ := mem_activeSessions.mp hlatest.1
    exact ⟨hrow, huser, hactive, .inr ⟨rfl, hsome, hgrace⟩⟩

theorem not_isLate_of_current (hok : s.Ok) {session : UserSession}
    (hrow : session ∈ s.sessions.rows) (huser : session.userId = call.token.sub)
    (hactive : session.isActive (iso call.now) = true)
    (hash : session.refreshTokenHash = .sha256 call.token) : ¬ IsLate s call := by
  rintro ⟨-, -, hnone⟩
  obtain ⟨i, hi, -, -, hjti, hhash⟩ := hok.named session hrow
  rw [hash] at hhash
  have htoken : call.token = i.token := TokenHash.sha256.inj hhash
  refine List.find?_eq_none.mp hnone session hrow ?_
  rw [htoken] at huser ⊢
  simp [hjti, huser, hactive]

theorem settled_revokeAll (hok : s.Ok) (token : RefreshToken) (now : Int) :
    Settled (s.revokeAllActiveSessions token.sub now) token := by
  refine .inl ?_
  intro i hi htoken row hrow hsession
  have hok' : (s.revokeAllActiveSessions token.sub now).Ok :=
    hok.onlyRevokes (onlyRevokes_revokeWhere _ _ _)
  have huser := hok'.user_eq hi hrow hsession
  rw [htoken] at huser
  exact revoked_of_revokeSessionsByUserId hrow huser

theorem same_or_counted_keeps (hok : s.Ok) (htimed : Timed cfg s) (hnow : s.clock ≤ call.now)
    (hv : s.verifies call.token call.now = true) (h : after = s ∨ after = s.countReuse cfg call) :
    after.Ok ∧ Timed cfg after ∧ after.sessions = s.sessions ∧ after.issued = s.issued ∧
      after.clock = s.clock ∧ ∀ token, Settled s token → Settled after token := by
  rcases h with rfl | rfl
  · exact ⟨hok, htimed, rfl, rfl, rfl, fun _ h => h⟩
  · exact ⟨hok.of_eq rfl rfl, htimed.countReuse hok hnow hv, rfl, rfl, rfl,
      fun _ h => h.countReuse call⟩

theorem Passes.settles {session : UserSession} (hp : Passes cfg s session call after) (hok : s.Ok)
    (hlatest : IsPossibleLatest s call) (hs : resolveExistingSession cfg s call = some session)
    (hlate : IsLate s call) : call.reply = .shortCircuited ∨ ReuseCounted after call.token := by
  cases hp with
  | current hash =>
    obtain ⟨hrow, huser, hactive, -⟩ := resolveExistingSession_spec hlatest hs
    exact absurd hlate (not_isLate_of_current hok hrow huser hactive hash)
  | counted grace reply first =>
    exact .inr ⟨_, mem_upsert.mpr (.inl rfl), reuseRow_key cfg s call⟩
  | uncounted grace reply => exact .inl reply

section

variable (h : RefreshOutcome cfg s call result after)
include h

theorem RefreshOutcome.keeps (hok : s.Ok)
    (htimed : Timed cfg s) (hnow : s.clock = call.now) (hnew : s.IsNewJti call.newJti)
    (hlatest : IsPossibleLatest s call) :
    after.Ok ∧ Timed cfg after ∧
      ∀ token, (∃ i ∈ s.issued, i.token = token) → Settled s token → Settled after token := by
  cases h with
  | turnedAway e h => exact ⟨hok, htimed, fun _ _ h => h⟩
  | rejected before hv h =>
    obtain ⟨hok', htimed', -, -, -, hkeep⟩ := same_or_counted_keeps hok htimed (Int.le_of_eq hnow) hv h
    have hr : OnlyRevokes before.sessions
        (revokeSessionsByUserId before.sessions call.token.sub (iso call.now)).2 :=
      onlyRevokes_revokeWhere _ _ _
    exact ⟨hok'.onlyRevokes hr, htimed'.of_eq rfl rfl (Int.le_refl _),
      fun token _ h => (hkeep token h).onlyRevokes hr⟩
  | brokenOff _ hv h =>
    obtain ⟨hok', htimed', -, -, -, hkeep⟩ := same_or_counted_keeps hok htimed (Int.le_of_eq hnow) hv h
    exact ⟨hok', htimed', fun token _ h => hkeep token h⟩
  | passedOnly e session _ hv hs hp =>
    obtain ⟨hok', htimed', -, -, -, hkeep⟩ :=
      same_or_counted_keeps hok htimed (Int.le_of_eq hnow) hv hp.same_or_counted
    exact ⟨hok', htimed', fun token _ h => hkeep token h⟩
  | rotated session passed hv ha hs hp =>
    obtain ⟨hok', htimed', hsessions, hissued, hclock, hkeep⟩ :=
      same_or_counted_keeps hok htimed (Int.le_of_eq hnow) hv hp.same_or_counted
    obtain ⟨hrow, -, -, -⟩ := resolveExistingSession_spec hlatest hs
    have hnew' : passed.IsNewJti call.newJti := by
      unfold IsNewJti
      rw [hissued]
      exact hnew
    have hrow' : session ∈ passed.sessions.rows := hsessions ▸ hrow
    have hissue := hok'.issue (i := ⟨issueTokens cfg session.userId call.newJti call.now,
      session.sessionId⟩) hnew' hrow' rfl rfl
    have htimed'' := htimed'.issue session.userId call.newJti session.sessionId
      (hnow ▸ hclock ▸ Int.le_refl _ : call.now ≤ passed.clock)
    have hsettled : ∀ token, (∃ i ∈ s.issued, i.token = token) → Settled s token →
        Settled { passed with issued := passed.issued ++
          [⟨issueTokens cfg session.userId call.newJti call.now, session.sessionId⟩] } token := by
      rintro token ⟨i, hi, rfl⟩ h
      exact (hkeep _ h).issue fun he => hnew i hi (congrArg RefreshToken.jti he).symm
    rcases rotateSession_cases cfg passed session call with ⟨sessions, hrotate, heq⟩ | heq
    · rw [heq]
      refine ⟨hissue.rotate (List.mem_append_right _ (List.mem_singleton_self _)) rfl rfl hrotate,
        htimed''.of_eq rfl rfl (Int.le_refl _), ?_⟩
      intro token hknown h
      exact (hsettled token hknown h).rotate hrotate
    · rw [heq]
      exact ⟨hissue, htimed'', hsettled⟩

theorem RefreshOutcome.settles (hok : s.Ok)
    (htimed : Timed cfg s) (hnow : s.clock = call.now) (hlatest : IsPossibleLatest s call)
    (hlate : IsLate s call) (hcache : result ≠ .error .cache) :
    call.reply = .shortCircuited ∨ Settled after call.token := by
  cases h with
  | turnedAway e h => exact absurd ⟨hlate.1, hlate.2.1⟩ h
  | rejected before hv h =>
    obtain ⟨hok', -⟩ := same_or_counted_keeps hok htimed (Int.le_of_eq hnow) hv h
    exact .inr (settled_revokeAll hok' _ _)
  | brokenOff => exact absurd rfl hcache
  | passedOnly e session _ hv hs hp => exact (hp.settles hok hlatest hs hlate).imp_right .inr
  | rotated session passed hv ha hs hp =>
    refine (hp.settles hok hlatest hs hlate).imp_right fun hcounted => ?_
    rcases rotateSession_cases cfg passed session call with ⟨sessions, hrotate, heq⟩ | heq
    · rw [heq]
      exact .inr (hcounted.of_eq rfl)
    · rw [heq]
      exact .inr (hcounted.of_eq rfl)

theorem RefreshOutcome.issued (hi : i ∈ s.issued) :
    i ∈ after.issued := by
  have hsame : ∀ {passed}, passed = s ∨ passed = s.countReuse cfg call → i ∈ passed.issued := by
    rintro passed (rfl | rfl)
    · exact hi
    · exact hi
  cases h with
  | turnedAway e h => exact hi
  | rejected before hv h =>
    have hbefore : i ∈ before.issued := hsame h
    exact hbefore
  | brokenOff _ hv h => exact hsame h
  | passedOnly e session _ hv hs hp => exact hsame hp.same_or_counted
  | rotated session passed hv ha hs hp =>
    have hpassed := hsame hp.same_or_counted
    rcases rotateSession_cases cfg passed session call with ⟨sessions, hrotate, heq⟩ | heq
    · rw [heq]
      exact mem_append_left _ hpassed
    · rw [heq]
      exact mem_append_left _ hpassed

end

end Outcome

/-! ## When a session was rotated -/

theorem lastRotation_snoc_self (rotations : List SessionRotation) (r : SessionRotation) :
    lastRotation (rotations ++ [r]) r.sessionId = some r := by
  simp [lastRotation, List.filter_append]

theorem lastRotation_snoc_ne (rotations : List SessionRotation) {r : SessionRotation}
    (h : r.sessionId ≠ sessionId) :
    lastRotation (rotations ++ [r]) sessionId = lastRotation rotations sessionId := by
  simp [lastRotation, List.filter_append, h]

structure Dates (rotations : List SessionRotation) (sessions : UserSessions) : Prop where
  since : ∀ row ∈ sessions.rows, row.revokedAt = none →
    ∀ r, lastRotation rotations row.sessionId = some r → row.lastUsedAt = iso r.rotatedAt
  known : ∀ r ∈ rotations, ∃ row ∈ sessions.rows, row.sessionId = r.sessionId

namespace Dates

variable {rotations : List SessionRotation} {t t' : UserSessions}

theorem onlyRevokes (h : Dates rotations t) (hr : OnlyRevokes t t') : Dates rotations t' where
  since row hrow hn := h.since row (hr.mem_of_unrevoked hrow hn) hn
  known r hr' := by
    obtain ⟨row, hrow, hid⟩ := h.known r hr'
    obtain ⟨row', hrow', hfrom⟩ := hr.mem hrow
    exact ⟨row', hrow', hfrom.sessionId_eq.trans hid⟩

theorem insert (h : Dates rotations t) {row : UserSession}
    (hinsert : insertSession? t row = some t') : Dates rotations t' where
  since other hother hn r hr := by
    obtain ⟨hrows, -, hid⟩ := insertSession?_spec hinsert
    rw [hrows] at hother
    rcases List.mem_append.mp hother with hother | hother
    · exact h.since other hother hn r hr
    · -- the new session has not been rotated yet
      rw [List.mem_singleton.mp hother] at hr
      have hmem := List.mem_of_getLast? hr
      obtain ⟨hr', hsession⟩ := List.mem_filter.mp hmem
      obtain ⟨old, hold, hid'⟩ := h.known r hr'
      exact absurd (hid'.trans (of_decide_eq_true hsession)) (hid old hold)
  known r hr := by
    obtain ⟨row', hrow', hid⟩ := h.known r hr
    rw [(insertSession?_spec hinsert).1]
    exact ⟨row', mem_append_left _ hrow', hid⟩

theorem rotate (h : Dates rotations t) {data : SessionData} {replaced : Option TokenHash}
    {session : UserSession} (hsession : session ∈ t.rows) (hid : session.sessionId = sessionId)
    (hrotate : rotateSessionWithLock t sessionId data (iso now) = some t') :
    Dates (rotations ++ [⟨sessionId, replaced, now⟩]) t' where
  since row hrow hn r hr := by
    obtain ⟨before, hbefore, rfl⟩ := (mem_rotateSessionWithLock hrotate).mp hrow
    by_cases hsame : before.sessionId = sessionId
    · rw [if_pos hsame] at hr ⊢
      have hself := lastRotation_snoc_self rotations ⟨sessionId, replaced, now⟩
      have hr' : lastRotation (rotations ++ [⟨sessionId, replaced, now⟩]) sessionId = some r := by
        rw [← hsame]
        exact hsame ▸ hr
      cases hself.symm.trans hr'
      rfl
    · rw [if_neg hsame] at hr hn ⊢
      have hne : sessionId ≠ before.sessionId := fun he => hsame he.symm
      rw [lastRotation_snoc_ne rotations hne] at hr
      exact h.since before hbefore hn r hr
  known r hr := by
    have hkeep : ∀ row ∈ t.rows, ∃ row' ∈ t'.rows, row'.sessionId = row.sessionId := by
      intro row hrow
      refine ⟨_, (mem_rotateSessionWithLock hrotate).mpr ⟨row, hrow, rfl⟩, ?_⟩
      split
      · rfl
      · rfl
    rcases List.mem_append.mp hr with hr | hr
    · obtain ⟨row, hrow, hrid⟩ := h.known r hr
      obtain ⟨row', hrow', hid'⟩ := hkeep row hrow
      exact ⟨row', hrow', hid'.trans hrid⟩
    · rw [List.mem_singleton.mp hr]
      obtain ⟨row', hrow', hid'⟩ := hkeep session hsession
      exact ⟨row', hrow', hid'.trans hid⟩

end Dates

/-! ## The invariant -/

structure Inv (cfg : RefreshConfig) (s : RefreshSystem) : Prop where
  ok : s.auth.Ok
  timed : Timed cfg s.auth
  dates : Dates s.rotations s.auth.sessions
  lateIssued : ∀ token ∈ s.late, ∃ i ∈ s.auth.issued, i.token = token
  settled : ∀ token ∈ s.late, token ∈ s.uncounted ∨ Settled s.auth token

namespace Inv

variable {cfg : RefreshConfig} {s s' : RefreshSystem}

theorem start (cfg : RefreshConfig) : Inv cfg RefreshSystem.start where
  ok := ⟨fun _ h => absurd h not_mem_nil, fun _ h => absurd h not_mem_nil,
    List.nodup_nil⟩
  timed := ⟨fun _ h => absurd h not_mem_nil, fun _ h => absurd h not_mem_nil⟩
  dates := ⟨fun _ h => absurd h not_mem_nil, fun _ h => absurd h not_mem_nil⟩
  lateIssued _ h := absurd h not_mem_nil
  settled _ h := absurd h not_mem_nil

section

variable (h : Inv cfg s)
include h

theorem tick (hnow : s.auth.clock ≤ now) : Inv cfg (s.tick now) where
  ok := h.ok.of_eq rfl rfl
  timed := h.timed.of_eq rfl rfl hnow
  dates := h.dates
  lateIssued := h.lateIssued
  settled := h.settled

theorem onlyRevokes (hr : OnlyRevokes s.auth.sessions sessions) :
    Inv cfg { s with auth := { s.auth with sessions } } where
  ok := h.ok.onlyRevokes hr
  timed := h.timed.of_eq rfl rfl (Int.le_refl _)
  dates := h.dates.onlyRevokes hr
  lateIssued := h.lateIssued
  settled token ht := (h.settled token ht).imp_right fun hs => hs.onlyRevokes hr

theorem login {userId jti : String} {context : SessionRequestContext}
    {startedAt : Int} {order : List UserSession} (hnew : s.auth.IsNewJti jti)
    (hcreate : createSessionWithActiveLimit s.auth.sessions (newSession userId sessionId
      (sessionData cfg (issueTokens cfg userId jti s.auth.clock) context s.auth.clock) startedAt)
      (iso s.auth.clock) cfg.maxActiveSessionsPerUser order = some sessions) :
    Inv cfg { s with auth := { s.auth with
      sessions, issued := s.auth.issued ++ [⟨issueTokens cfg userId jti s.auth.clock, sessionId⟩] } } := by
  obtain ⟨inserted, hinsert, hr⟩ := createSessionWithActiveLimit_spec hcreate
  have hok := h.ok.insert (i := ⟨issueTokens cfg userId jti s.auth.clock, sessionId⟩) hnew hinsert
    rfl rfl rfl rfl
  have htimed := h.timed.issue userId jti sessionId (Int.le_refl _)
  refine ⟨hok.onlyRevokes hr, htimed.of_eq rfl rfl (Int.le_refl _),
    (h.dates.insert hinsert).onlyRevokes hr, ?_, ?_⟩
  · intro token ht
    obtain ⟨i, hi, htoken⟩ := h.lateIssued token ht
    exact ⟨i, mem_append_left _ hi, htoken⟩
  · intro token ht
    obtain ⟨i, hi, rfl⟩ := h.lateIssued token ht
    refine (h.settled _ ht).imp_right fun hs => ?_
    have hne : issueTokens cfg userId jti s.auth.clock ≠ i.token := fun he =>
      hnew i hi (congrArg RefreshToken.jti he).symm
    have hinserted := hs.insert h.ok (i := ⟨issueTokens cfg userId jti s.auth.clock, sessionId⟩)
      hne hinsert
    exact hinserted.onlyRevokes hr

theorem dates_record {call : RefreshCall}
    {result : Except RefreshError IssuedToken} {after : AuthState}
    (ho : RefreshOutcome cfg s.auth call result after) (hlatest : IsPossibleLatest s.auth call) :
    Dates (s.record call (result, after)).rotations after.sessions := by
  have hsame : ∀ {passed}, passed = s.auth ∨ passed = s.auth.countReuse cfg call →
      passed.sessions = s.auth.sessions := by
    rintro passed (rfl | rfl)
    · rfl
    · rfl
  cases ho with
  | turnedAway e _ => exact h.dates
  | rejected before hv hb =>
    have hbefore : Dates s.rotations before.sessions := (hsame hb).symm ▸ h.dates
    exact hbefore.onlyRevokes (onlyRevokes_revokeWhere _ _ _)
  | brokenOff _ hv hb =>
    have hafter : Dates s.rotations after.sessions := (hsame hb).symm ▸ h.dates
    exact hafter
  | passedOnly e session _ hv hs hp =>
    have hafter : Dates s.rotations after.sessions := (hsame hp.same_or_counted).symm ▸ h.dates
    exact hafter
  | rotated session passed hv ha hs hp =>
    have hsessions := hsame hp.same_or_counted
    have hpassed : Dates s.rotations passed.sessions := hsessions.symm ▸ h.dates
    obtain ⟨hrow, -⟩ := resolveExistingSession_spec hlatest hs
    rcases rotateSession_cases cfg passed session call with ⟨sessions, hrotate, heq⟩ | heq
    · rw [heq]
      exact hpassed.rotate (hsessions.symm ▸ hrow) rfl hrotate
    · rw [heq]
      exact hpassed

theorem record {call : RefreshCall} (hnow : s.auth.clock = call.now)
    (hnew : s.auth.IsNewJti call.newJti) (hlatest : IsPossibleLatest s.auth call)
    {result : Except RefreshError IssuedToken} {after : AuthState}
    (ho : RefreshOutcome cfg s.auth call result after) :
    Inv cfg (s.record call (result, after)) := by
  obtain ⟨hok, htimed, hkeep⟩ := ho.keeps h.ok h.timed hnow hnew hlatest
  have hsettled : ∀ token ∈ s.late, token ∈ s.uncounted ∨ Settled after token := by
    intro token ht
    exact (h.settled token ht).imp_right fun hs => hkeep token (h.lateIssued token ht) hs
  have huncounted : ∀ token ∈ s.uncounted,
      token ∈ (s.record call (result, after)).uncounted := by
    intro token ht
    simp only [RefreshSystem.record]
    split
    · exact mem_append_left _ ht
    · exact ht
  refine ⟨hok, htimed, h.dates_record ho hlatest, ?_, ?_⟩
  · intro token ht
    have hold : ∀ token ∈ s.late, ∃ i ∈ after.issued, i.token = token := by
      intro token ht
      obtain ⟨i, hi, htoken⟩ := h.lateIssued token ht
      exact ⟨i, ho.issued hi, htoken⟩
    simp only [RefreshSystem.record] at ht
    split at ht
    · next hlate =>
      rcases List.mem_append.mp ht with ht | ht
      · exact hold token ht
      · rw [List.mem_singleton.mp ht]
        obtain ⟨⟨i, hi, htoken⟩, -⟩ := verifies_iff.mp hlate.1.1
        exact ⟨i, ho.issued hi, htoken⟩
    · exact hold token ht
  · intro token ht
    have hold : ∀ token ∈ s.late,
        token ∈ (s.record call (result, after)).uncounted ∨ Settled after token :=
      fun token ht => (hsettled token ht).imp_left (huncounted token)
    simp only [RefreshSystem.record] at ht
    split at ht
    · next hlate =>
      rcases List.mem_append.mp ht with ht | ht
      · exact hold token ht
      · rw [List.mem_singleton.mp ht]
        rcases ho.settles h.ok h.timed hnow hlatest hlate.1 hlate.2 with hreply | hs
        · refine .inl ?_
          simp only [RefreshSystem.record]
          rw [if_pos ⟨hlate.1, hreply⟩]
          exact List.mem_append_right _ (List.mem_singleton_self _)
        · exact .inr hs
    · exact hold token ht

theorem run {a : RefreshAction} (hnow : s.auth.clock = a.now)
    (hstep : s.run cfg a = some s') : Inv cfg s' := by
  cases a with
  | login userId sessionId jti context now startedAt order =>
    obtain rfl : s.auth.clock = now := hnow
    simp only [RefreshSystem.run] at hstep
    split at hstep
    · next hnew =>
      obtain ⟨sessions, hcreate, rfl⟩ := Option.map_eq_some_iff.mp hstep
      exact h.login hnew hcreate
    · cases hstep
  | refresh call =>
    simp only [RefreshSystem.run] at hstep
    split at hstep
    · next hguard =>
      cases hstep
      exact h.record hnow hguard.1 hguard.2 (refreshToken_outcome cfg s.auth call)
    · cases hstep
  | logout token now =>
    cases hstep
    refine h.onlyRevokes ?_
    unfold logout
    split
    · exact onlyRevokes_revokeWhere _ _ _
    · exact onlyRevokes_revokeWhere _ _ _
  | revoke revocation now =>
    cases hstep
    exact h.onlyRevokes (revocation.onlyRevokes _ _ _)
  | revokeExcept userId keep now =>
    cases hstep
    exact h.onlyRevokes (onlyRevokes_revokeSessionsExcept _ _ _ _)
  | revokeExpired now =>
    cases hstep
    exact h.onlyRevokes (onlyRevokes_revokeExpiredSessions _ _)

theorem step {a : RefreshAction} (hstep : s.step cfg a = some s') : Inv cfg s' := by
  unfold RefreshSystem.step at hstep
  split at hstep
  · next hclock => exact (h.tick hclock).run rfl hstep
  · cases hstep

end

end Inv

/-! ## Every run -/

theorem parseMs_iso (now : Int) : parseMs (iso now) = now := by
  unfold parseMs iso
  omega

section Exchange

variable {cfg : RefreshConfig} {s : RefreshSystem} {call : RefreshCall} {session : UserSession}

/-- **By its `jti`, a token is exchanged for its own session, of which it is the current one.** -/
theorem refreshToken_current (h : Inv cfg s) (hrow : session ∈ s.auth.sessions.rows)
    (hv : s.auth.verifies call.token call.now = true) (hjti : session.jti = call.token.jti) :
    ⟨call.token, session.sessionId⟩ ∈ s.auth.issued ∧ MayExchange cfg s call session := by
  obtain ⟨⟨i, hi, htoken⟩, -⟩ := verifies_iff.mp hv
  obtain ⟨hsession, hhash⟩ := h.ok.of_jti hrow hi (htoken.symm ▸ hjti)
  rw [htoken] at hhash
  rw [← htoken, ← hsession]
  exact ⟨hi, .inl (htoken.symm ▸ hhash)⟩

theorem not_late_of_passes (h : Inv cfg s) {after : AuthState}
    (hrow : session ∈ s.auth.sessions.rows) (hactive : session.isActive (iso call.now) = true)
    (hv : s.auth.verifies call.token call.now = true)
    (hissued : ⟨call.token, session.sessionId⟩ ∈ s.auth.issued)
    (hfirst : call.token ∈ s.late → call.reply ≠ .shortCircuited ∧ call.token ∉ s.uncounted)
    (hp : Passes cfg s.auth session call after)
    (hash : session.refreshTokenHash ≠ .sha256 call.token) : call.token ∉ s.late := by
  intro hlate
  obtain ⟨hreply, hcounted⟩ := hfirst hlate
  cases hp with
  | current h => exact hash h
  | uncounted _ reply => exact hreply reply
  | counted _ _ first =>
    rcases (h.settled _ hlate).resolve_left hcounted with hrevoked | hcounted
    · have hsome := hrevoked _ hissued rfl session hrow rfl
      rw [(UserSession.isActive_iff.mp hactive).1] at hsome
      cases hsome
    · exact h.timed.not_first h.ok hv hcounted first

/-- A call that returns tokens has exchanged the one it presents for its session, if the session
that stands in for a missing `jti` is its own. -/
theorem exchanged_of_fallbackOwn (h : Inv cfg s) (hlatest : IsPossibleLatest s.auth call)
    (hown : FallbackOwn cfg s (.refresh call)) {new : IssuedToken}
    (hnew : (refreshToken cfg s.auth call).1 = .ok new) :
    ∃ session ∈ s.auth.sessions.rows, session.isActive (iso call.now) = true ∧
      ⟨call.token, session.sessionId⟩ ∈ s.auth.issued ∧ new.sessionId = session.sessionId ∧
      MayExchange cfg s call session := by
  have ho := refreshToken_outcome cfg s.auth call
  generalize (refreshToken cfg s.auth call).1 = result at ho hnew
  generalize (refreshToken cfg s.auth call).2 = after at ho
  cases ho with
  | turnedAway | rejected | brokenOff | passedOnly => cases hnew
  | rotated session passed hv ha hs hp =>
    have hsession : new.sessionId = session.sessionId := by
      rcases rotateSession_cases cfg passed session call with ⟨sessions, hrotate, heq⟩ | heq
      · rw [heq] at hnew
        cases hnew
        rfl
      · rw [heq] at hnew
        cases hnew
    obtain ⟨hrow, -, hactive, hby⟩ := resolveExistingSession_spec hlatest hs
    rcases hby with hjti | ⟨hnone, hfallback, hgrace⟩
    · obtain ⟨hissued, hmay⟩ := refreshToken_current h hrow hv hjti
      exact ⟨session, hrow, hactive, hissued, hsession, hmay⟩
    · obtain ⟨hissued, hheld, hfirst⟩ := hown ⟨hv, ha, hnone⟩ session hfallback hgrace
      refine ⟨session, hrow, hactive, hissued, hsession, ?_⟩
      by_cases hash : session.refreshTokenHash = .sha256 call.token
      · exact .inl hash
      · obtain ⟨r, hr, hreplaced⟩ := Option.bind_eq_some_iff.mp hheld
        refine .inr ⟨r, hr, hreplaced, ?_,
          not_late_of_passes h hrow hactive hv hissued hfirst hp hash⟩
        have hunrevoked := (UserSession.isActive_iff.mp hactive).1
        have hused := h.dates.since session hrow hunrevoked r hr
        simp only [canUseRefreshReuseGraceWindow, isRefreshTokenWithinGraceWindow,
          Bool.and_eq_true, decide_eq_true_eq] at hgrace
        rw [hused, parseMs_iso] at hgrace
        exact hgrace.1

end Exchange

/-- **Refresh tokens are bound to their session where the fallback is.** In every run of logins,
refreshes, logouts and revocations at times that do not decrease: if the session that stands in for
a `jti` that is not found is always the token's own, which held it last, then every call that
returns tokens has exchanged the current token of an active session, or the one before within the
grace window and for the first time, for a token of that very session. -/
theorem refresh_bound_to_session (cfg : RefreshConfig) (as : List RefreshAction)
    (hown : Along (RefreshSystem.step cfg) (FallbackOwn cfg) RefreshSystem.start as) :
    EachStep (RefreshSystem.step cfg) (ExchangedForItsSession cfg) RefreshSystem.start as := by
  intro pre a s s' hpre hs hstep
  cases a with
  | login | logout | revoke | revokeExcept | revokeExpired => trivial
  | refresh call =>
    have hinv : Inv cfg s := exec_invariant (fun _ _ _ h hst => h.step hst) hs (Inv.start cfg)
    have hlatest : IsPossibleLatest s.auth call := by
      unfold RefreshSystem.step RefreshSystem.run at hstep
      split at hstep
      · simp only at hstep
        split at hstep
        · next hguard => exact hguard.2
        · cases hstep
      · cases hstep
    intro new hnew
    exact exchanged_of_fallbackOwn hinv hlatest (along_iff.mp hown pre _ hpre s hs) hnew

/-! ## Two runs -/

/-- A token is exchanged, and once more within the window: both times for its session. -/
theorem refresh_bound_to_session_twice :
    let before := adasSession "s1" "j1" 0
    let after := before.rotate (sessionData sampleConfig (adasToken "j2" 5000) sampleDevice 5000)
      (iso 5000)
    EachStep (RefreshSystem.step sampleConfig) (ExchangedForItsSession sampleConfig)
      RefreshSystem.start
      [.login "ada" "s1" "j1" sampleDevice 0 0 [before],
        .refresh (adasRefresh (adasToken "j1" 0) 5000 before "j2"),
        .refresh (adasRefresh (adasToken "j1" 0) 9000 after "j3")] :=
  refresh_bound_to_session sampleConfig _ (by decide +kernel)

/-- Two sessions of one user: the first is logged out, and its token is presented again. It gets
tokens of the second session. -/
theorem revoked_token_refreshes_other_session :
    let first := adasSession "s1" "j1" 0
    let second := adasSession "s2" "j2" 1000
    ¬ EachStep (RefreshSystem.step sampleConfig) (ExchangedForItsSession sampleConfig)
      RefreshSystem.start
      [.login "ada" "s1" "j1" sampleDevice 0 0 [first],
        .login "ada" "s2" "j2" sampleDevice 1000 1000000 [first, second],
        .logout (adasToken "j1" 0) 2000,
        .refresh (adasRefresh (adasToken "j1" 0) 3000 second "j3")] := by
  intro first second h
  let call := adasRefresh (adasToken "j1" 0) 3000 second "j3"
  obtain ⟨m, t, hexchanged, hread, -⟩ := h.read
    [.login "ada" "s1" "j1" sampleDevice 0 0 [first],
      .login "ada" "s2" "j2" sampleDevice 1000 1000000 [first, second],
      .logout (adasToken "j1" 0) 2000] (.refresh call) (List.prefix_refl _)
    (fun m => (m.auth.issued, (refreshToken sampleConfig m.auth call).1.toOption))
    ([⟨adasToken "j1" 0, "s1"⟩, ⟨adasToken "j2" 1000, "s2"⟩], some ⟨adasToken "j3" 3000, "s2"⟩)
    (fun t => t.rotations.length) 1 (by decide +kernel) (by decide +kernel)
  obtain ⟨hissued, hnew⟩ := Prod.mk.inj hread
  have hok : (refreshToken sampleConfig m.auth call).1 = .ok ⟨adasToken "j3" 3000, "s2"⟩ := by
    cases hresult : (refreshToken sampleConfig m.auth call).1 with
    | ok new =>
      rw [hresult] at hnew
      exact congrArg Except.ok (Option.some.inj hnew)
    | error e =>
      rw [hresult] at hnew
      cases hnew
  obtain ⟨session, -, -, hmem, hsession, -⟩ := hexchanged _ hok
  rw [hissued, ← hsession] at hmem
  exact absurd hmem (by decide)

end QuizBackend.Auth
