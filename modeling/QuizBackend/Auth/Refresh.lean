import QuizBackend.Auth.DenyList
import QuizBackend.Auth.RateLimit

/-!
# Refreshing a session (`AuthRefreshService`, `SecurityService`)

A refresh token is exchanged for new tokens of its session. The session is looked up by the `jti`;
a token that has just been replaced has none any more, and for ten seconds it may be used once more,
by a client that lost the answer. For that the service takes the user's most recently used session,
asks whether it was used within the window and on a device like this one, and counts the reuse in
Redis.

Which session the token was for it does not ask: a refresh token does not say.

This file has the functions, `Binding` the runs of whole calls and `Rotation` those of overlapping
ones. The lookups of the service are those of the repository, since the deny-list never answers
(`Lookup.shortCircuits_eq_false`).
-/

namespace QuizBackend.Auth

open Lib

/-! ## Configuration and requests -/

structure RefreshConfig where
  refreshReuseGraceWindowMs : Int
  enforceDeviceBinding : Bool
  refreshExpiresInSeconds : Int
  refreshSessionTtlMs : Int
  maxActiveSessionsPerUser : Nat

structure SessionRequestContext where
  ipAddress : Option String
  deviceBrowser : Option String
  deviceOs : Option String
  deviceType : String

def iso (now : Int) : Int := now * 1000

/-- `Date.parse` of a column value: the digits below a millisecond are dropped. -/
def parseMs (instant : Int) : Int := instant / 1000

/-! ## The device and the grace window -/

def saidText (text : Option String) : Option String := text.filter (· ≠ "")

def comparable (stored requested : Option String) : Bool :=
  match saidText stored, saidText requested with
  | some stored, some requested => decide (stored = requested)
  | _, _ => true

def isRefreshTokenWithinGraceWindow (cfg : RefreshConfig) (lastUsedAt now : Int) : Bool :=
  decide (now - parseMs lastUsedAt ≤ cfg.refreshReuseGraceWindowMs)

def isSameSessionContext (session : UserSession) (context : SessionRequestContext) : Bool :=
  comparable session.deviceBrowser context.deviceBrowser &&
    comparable (some session.deviceType) (some context.deviceType)

def canUseRefreshReuseGraceWindow (cfg : RefreshConfig) (session : UserSession)
    (context : SessionRequestContext) (now : Int) : Bool :=
  isRefreshTokenWithinGraceWindow cfg session.lastUsedAt now && isSameSessionContext session context

def mismatch (stored requested : Option String) : Bool :=
  match saidText stored with
  | some stored => decide (saidText requested ≠ some stored)
  | none => false

/-- `evaluateSessionBinding(…).shouldReject`: a new address alone is not held against anybody. -/
def evaluateSessionBinding (cfg : RefreshConfig) (session : UserSession)
    (context : SessionRequestContext) : Bool :=
  let ipChanged := !comparable session.ipAddress context.ipAddress
  let deviceMismatch := mismatch session.deviceBrowser context.deviceBrowser ||
    mismatch (some session.deviceType) (some context.deviceType)
  if !ipChanged && !deviceMismatch then false
  else cfg.enforceDeviceBinding && deviceMismatch

/-! ## The state -/

structure IssuedToken where
  token : RefreshToken
  sessionId : String
  deriving DecidableEq

structure AuthState where
  sessions : UserSessions
  counters : Table String CounterRow (·.key)
  issued : List IssuedToken
  clock : Int

def AuthState.start : AuthState := ⟨Table.empty _, Table.empty _, [], 0⟩

/-- `verifyRefreshToken`: signed here and not expired. -/
def AuthState.verifies (s : AuthState) (token : RefreshToken) (now : Int) : Bool :=
  s.issued.any (fun i => decide (i.token = token)) && decide (now / 1000 < token.exp)

def issueTokens (cfg : RefreshConfig) (userId jti : String) (now : Int) : RefreshToken where
  sub := userId
  jti := jti
  iat := now / 1000
  exp := now / 1000 + cfg.refreshExpiresInSeconds

/-- No token was issued with it. -/
def AuthState.IsNewJti (s : AuthState) (jti : String) : Prop := ∀ i ∈ s.issued, i.token.jti ≠ jti

instance (s : AuthState) (jti : String) : Decidable (s.IsNewJti jti) :=
  inferInstanceAs (Decidable (∀ i ∈ s.issued, _))

def sessionData (cfg : RefreshConfig) (token : RefreshToken) (context : SessionRequestContext)
    (now : Int) : SessionData where
  jti := token.jti
  refreshTokenHash := .sha256 token
  ipAddress := context.ipAddress
  deviceBrowser := context.deviceBrowser
  deviceOs := context.deviceOs
  deviceType := context.deviceType
  expiresAt := iso (now + cfg.refreshSessionTtlMs)

/-! ## `refreshToken` -/

inductive RefreshError where
  | invalidToken
  | rateLimitExceeded
  | tokenReuseDetected (message : String)
  | sessionContextMismatch
  | userNotFound
  | cache
  | database
  deriving DecidableEq

def refreshTokenReuseMessage : String :=
  "Security action taken on your account. Please log in again."

/-- What becomes of the increment of the reuse counter: as `Reply`, or the breaker answers. -/
inductive CounterReply where
  | counted | lost | refused | shortCircuited
  deriving DecidableEq

/-- A call: what it presents, when, and what it finds outside the tables modelled: whether the rate
limits let it through, which of the latest sessions the query picks, what becomes of the counter,
whether the user is there, and the id that is generated. -/
structure RefreshCall where
  token : RefreshToken
  context : SessionRequestContext
  now : Int
  admitted : Bool
  latest : Option UserSession
  reply : CounterReply
  userFound : Bool
  newJti : String

def reuseCounterKey (jti : String) : String := "auth:refresh_reuse:" ++ jti

def reuseCounterTtlSeconds (cfg : RefreshConfig) (token : RefreshToken) (now : Int) : Int :=
  min (max 1 (token.exp - now / 1000)) cfg.refreshExpiresInSeconds

/-- The counter after the script of `incrementCounterWithInitialTtlSeconds`. -/
def AuthState.reuseRow (cfg : RefreshConfig) (s : AuthState) (call : RefreshCall) : CounterRow :=
  countedRow (s.counters.find? (reuseCounterKey call.token.jti)) (reuseCounterKey call.token.jti)
    (reuseCounterTtlSeconds cfg call.token call.now * 1000) call.now

def AuthState.countReuse (cfg : RefreshConfig) (s : AuthState) (call : RefreshCall) : AuthState :=
  { s with counters := s.counters.upsert (s.reuseRow cfg call) }

def AuthState.revokeAllActiveSessions (s : AuthState) (userId : String) (now : Int) : AuthState :=
  { s with sessions := (revokeSessionsByUserId s.sessions userId (iso now)).2 }

/-- `resolveExistingSession`; with none the call ends in `revokeAndReject`. -/
def resolveExistingSession (cfg : RefreshConfig) (s : AuthState) (call : RefreshCall) :
    Option UserSession :=
  match getSessionByJtiAndUserId s.sessions call.token.jti call.token.sub (iso call.now) with
  | some session => some session
  | none =>
    call.latest.filter fun latest =>
      canUseRefreshReuseGraceWindow cfg latest call.context call.now

def revokeAndReject {α : Type} (s : AuthState) (call : RefreshCall) :
    Except RefreshError α × AuthState :=
  (.error (.tokenReuseDetected refreshTokenReuseMessage),
    s.revokeAllActiveSessions call.token.sub call.now)

section

variable (cfg : RefreshConfig)

section

variable (s : AuthState)

section

variable (session : UserSession)

/-- `handleGraceWindowReuse`. A short-circuited increment answers `0`, which is not above `1`. -/
def handleGraceWindowReuse (call : RefreshCall) : Except RefreshError Bool × AuthState :=
  if canUseRefreshReuseGraceWindow cfg session call.context call.now then
    match call.reply with
    | .counted =>
      if (s.reuseRow cfg call).count > 1 then revokeAndReject (s.countReuse cfg call) call
      else (.ok true, s.countReuse cfg call)
    | .shortCircuited => (.ok true, s)
    | .lost => (.error .cache, s.countReuse cfg call)
    | .refused => (.error .cache, s)
  else (.ok false, s)

def verifySessionIntegrity (call : RefreshCall) : Except RefreshError Unit × AuthState :=
  if session.refreshTokenHash = .sha256 call.token then (.ok (), s)
  else
    match handleGraceWindowReuse cfg s session call with
    | (.ok true, s) => (.ok (), s)
    | (.ok false, s) => revokeAndReject s call
    | (.error e, s) => (.error e, s)

def rotateSession (call : RefreshCall) : Except RefreshError IssuedToken × AuthState :=
  let token := issueTokens cfg session.userId call.newJti call.now
  let s := { s with issued := s.issued ++ [⟨token, session.sessionId⟩] }
  match rotateSessionWithLock s.sessions session.sessionId
      (sessionData cfg token call.context call.now) (iso call.now) with
  | some sessions => (.ok ⟨token, session.sessionId⟩, { s with sessions })
  | none => (.error .database, s)

end

def refreshToken (call : RefreshCall) :
    Except RefreshError IssuedToken × AuthState :=
  if !s.verifies call.token call.now then (.error .invalidToken, s)
  else if !call.admitted then (.error .rateLimitExceeded, s)
  else
    match resolveExistingSession cfg s call with
    | none => revokeAndReject s call
    | some session =>
      match verifySessionIntegrity cfg s session call with
      | (.error e, s) => (.error e, s)
      | (.ok _, s) =>
        if evaluateSessionBinding cfg session call.context then (.error .sessionContextMismatch, s)
        else if !call.userFound then (.error .userNotFound, s)
        else rotateSession cfg s session call

end

end

/-! ## What a call can come to -/

/-- A token is accepted as the current one, or in its grace window, counted or not. -/
inductive Passes (cfg : RefreshConfig) (s : AuthState) (session : UserSession)
    (call : RefreshCall) : AuthState → Prop
  | current (hash : session.refreshTokenHash = .sha256 call.token) : Passes cfg s session call s
  | counted (grace : canUseRefreshReuseGraceWindow cfg session call.context call.now = true)
      (reply : call.reply = .counted) (first : (s.reuseRow cfg call).count ≤ 1) :
      Passes cfg s session call (s.countReuse cfg call)
  | uncounted (grace : canUseRefreshReuseGraceWindow cfg session call.context call.now = true)
      (reply : call.reply = .shortCircuited) : Passes cfg s session call s

/-- All that a refresh can do to the sessions. -/
inductive RefreshOutcome (cfg : RefreshConfig) (s : AuthState) (call : RefreshCall) :
    Except RefreshError IssuedToken → AuthState → Prop
  | turnedAway (e : RefreshError)
      (h : ¬ (s.verifies call.token call.now = true ∧ call.admitted = true)) :
      RefreshOutcome cfg s call (.error e) s
  | rejected (before : AuthState) (hv : s.verifies call.token call.now = true)
      (h : before = s ∨ before = s.countReuse cfg call) :
      RefreshOutcome cfg s call (.error (.tokenReuseDetected refreshTokenReuseMessage))
        (before.revokeAllActiveSessions call.token.sub call.now)
  | brokenOff (after : AuthState) (hv : s.verifies call.token call.now = true)
      (h : after = s ∨ after = s.countReuse cfg call) :
      RefreshOutcome cfg s call (.error .cache) after
  | passedOnly (e : RefreshError) (session : UserSession) (after : AuthState)
      (hv : s.verifies call.token call.now = true)
      (hs : resolveExistingSession cfg s call = some session)
      (hp : Passes cfg s session call after) : RefreshOutcome cfg s call (.error e) after
  | rotated (session : UserSession) (after : AuthState)
      (hv : s.verifies call.token call.now = true) (ha : call.admitted = true)
      (hs : resolveExistingSession cfg s call = some session)
      (hp : Passes cfg s session call after) :
      RefreshOutcome cfg s call (rotateSession cfg after session call).1
        (rotateSession cfg after session call).2

theorem Passes.same_or_counted {cfg : RefreshConfig} {s after : AuthState} {session : UserSession}
    {call : RefreshCall} (h : Passes cfg s session call after) :
    after = s ∨ after = s.countReuse cfg call := by
  cases h with
  | current hash => exact .inl rfl
  | counted grace reply first => exact .inr rfl
  | uncounted grace reply => exact .inl rfl

theorem rotateSession_cases (cfg : RefreshConfig) (s : AuthState) (session : UserSession)
    (call : RefreshCall) :
    let token := issueTokens cfg session.userId call.newJti call.now
    let issued := s.issued ++ [⟨token, session.sessionId⟩]
    (∃ sessions, rotateSessionWithLock s.sessions session.sessionId
          (sessionData cfg token call.context call.now) (iso call.now) = some sessions ∧
        rotateSession cfg s session call
          = (.ok ⟨token, session.sessionId⟩, { s with issued, sessions })) ∨
      rotateSession cfg s session call = (.error .database, { s with issued }) := by
  intro token issued
  cases h : rotateSessionWithLock s.sessions session.sessionId
      (sessionData cfg token call.context call.now) (iso call.now) with
  | some sessions =>
    refine .inl ⟨sessions, rfl, ?_⟩
    unfold rotateSession
    simp only
    rw [h]
  | none =>
    refine .inr ?_
    unfold rotateSession
    simp only
    rw [h]

theorem verifySessionIntegrity_cases (cfg : RefreshConfig) (s : AuthState) (session : UserSession)
    (call : RefreshCall) :
    (∃ after, verifySessionIntegrity cfg s session call = (.ok (), after) ∧
        Passes cfg s session call after) ∨
      (∃ before, (before = s ∨ before = s.countReuse cfg call) ∧
        verifySessionIntegrity cfg s session call = revokeAndReject before call) ∨
      ∃ after, (after = s ∨ after = s.countReuse cfg call) ∧
        verifySessionIntegrity cfg s session call = (.error .cache, after) := by
  unfold verifySessionIntegrity
  by_cases hash : session.refreshTokenHash = .sha256 call.token
  · rw [if_pos hash]
    exact .inl ⟨s, rfl, .current hash⟩
  · rw [if_neg hash]
    unfold handleGraceWindowReuse
    by_cases grace : canUseRefreshReuseGraceWindow cfg session call.context call.now = true
    · rw [if_pos grace]
      cases reply : call.reply with
      | counted =>
        simp only
        by_cases first : (s.reuseRow cfg call).count > 1
        · rw [if_pos first]
          exact .inr (.inl ⟨_, .inr rfl, rfl⟩)
        · rw [if_neg first]
          exact .inl ⟨_, rfl, .counted grace reply (Nat.not_lt.mp first)⟩
      | lost => exact .inr (.inr ⟨_, .inr rfl, rfl⟩)
      | refused => exact .inr (.inr ⟨_, .inl rfl, rfl⟩)
      | shortCircuited => exact .inl ⟨s, rfl, .uncounted grace reply⟩
    · rw [if_neg grace]
      exact .inr (.inl ⟨s, .inl rfl, rfl⟩)

theorem refreshToken_outcome (cfg : RefreshConfig) (s : AuthState) (call : RefreshCall) :
    RefreshOutcome cfg s call (refreshToken cfg s call).1 (refreshToken cfg s call).2 := by
  unfold refreshToken
  by_cases hv : s.verifies call.token call.now = true
  · by_cases ha : call.admitted = true
    · rw [if_neg (by simp [hv]), if_neg (by simp [ha])]
      cases hs : resolveExistingSession cfg s call with
      | none => exact .rejected s hv (.inl rfl)
      | some session =>
        rcases verifySessionIntegrity_cases cfg s session call with
          ⟨after, hverify, hp⟩ | ⟨before, hb, hverify⟩ | ⟨after, hb, hverify⟩
        · simp only [hverify]
          split
          · exact .passedOnly _ session after hv hs hp
          · split
            · exact .passedOnly _ session after hv hs hp
            · exact .rotated session after hv ha hs hp
        · simp only [hverify, revokeAndReject]
          exact .rejected before hv hb
        · simp only [hverify]
          exact .brokenOff after hv hb
    · rw [if_neg (by simp [hv]), if_pos (by simp [ha])]
      exact .turnedAway _ fun h => ha h.2
  · rw [if_pos (by simp [hv])]
    exact .turnedAway _ fun h => hv h.1

/-! ## Tokens and rows -/

/-- A row names a token that was issued for its session, a token was issued for a session of its
user, and no two tokens have one `jti`. -/
structure AuthState.Ok (s : AuthState) : Prop where
  named : ∀ row ∈ s.sessions.rows, ∃ i ∈ s.issued, i.sessionId = row.sessionId ∧
    i.token.sub = row.userId ∧ i.token.jti = row.jti ∧ row.refreshTokenHash = .sha256 i.token
  owned : ∀ i ∈ s.issued, ∃ row ∈ s.sessions.rows, row.sessionId = i.sessionId ∧
    row.userId = i.token.sub
  distinct : (s.issued.map (·.token.jti)).Nodup

variable {i : IssuedToken} {row : UserSession} {sessions : UserSessions}

namespace AuthState.Ok

variable {s : AuthState}

section

variable (h : s.Ok)
include h

theorem eq_of_jti {j : IssuedToken} (hi : i ∈ s.issued) (hj : j ∈ s.issued)
    (hjti : i.token.jti = j.token.jti) : i = j := List.inj_on_of_nodup_map h.distinct hi hj hjti

theorem of_jti (hrow : row ∈ s.sessions.rows) (hi : i ∈ s.issued)
    (hjti : row.jti = i.token.jti) :
    i.sessionId = row.sessionId ∧ row.refreshTokenHash = .sha256 i.token := by
  obtain ⟨j, hj, hsession, -, hj', hhash⟩ := h.named row hrow
  obtain rfl := h.eq_of_jti hj hi (hj'.trans hjti)
  exact ⟨hsession, hhash⟩

theorem user_eq (hi : i ∈ s.issued) (hrow : row ∈ s.sessions.rows)
    (hsession : row.sessionId = i.sessionId) : row.userId = i.token.sub := by
  obtain ⟨other, hother, hid, huser⟩ := h.owned i hi
  rw [Table.eq_of_key_eq hrow hother (hsession.trans hid.symm)]
  exact huser

theorem onlyRevokes (hr : OnlyRevokes s.sessions sessions) :
    AuthState.Ok { s with sessions } where
  named row hrow := by
    obtain ⟨before, hbefore, hfrom⟩ := hr.of_mem hrow
    rw [hfrom.sessionId_eq, hfrom.userId_eq, hfrom.jti_eq, hfrom.refreshTokenHash_eq]
    exact h.named before hbefore
  owned i hi := by
    obtain ⟨before, hbefore, hid, huser⟩ := h.owned i hi
    obtain ⟨row, hrow, hfrom⟩ := hr.mem hbefore
    exact ⟨row, hrow, hfrom.sessionId_eq.trans hid, hfrom.userId_eq.trans huser⟩
  distinct := h.distinct

theorem of_eq {s' : AuthState} (hsessions : s'.sessions = s.sessions)
    (hissued : s'.issued = s.issued) : s'.Ok where
  named := by
    rw [hsessions, hissued]
    exact h.named
  owned := by
    rw [hsessions, hissued]
    exact h.owned
  distinct := by
    rw [hissued]
    exact h.distinct

section

variable (hnew : s.IsNewJti i.token.jti)
include hnew

theorem distinct_snoc :
    ((s.issued ++ [i]).map (·.token.jti)).Nodup := by
  rw [List.map_append, List.map_singleton]
  refine List.nodup_append.mpr ⟨h.distinct, List.nodup_singleton _, ?_⟩
  intro jti hjti other hother he
  obtain ⟨j, hj, rfl⟩ := List.mem_map.mp hjti
  rw [List.mem_singleton.mp hother] at he
  exact hnew j hj he

theorem issue (hrow : row ∈ s.sessions.rows)
    (hsession : row.sessionId = i.sessionId) (huser : row.userId = i.token.sub) :
    AuthState.Ok { s with issued := s.issued ++ [i] } where
  named row hrow := by
    obtain ⟨j, hj, hnamed⟩ := h.named row hrow
    exact ⟨j, List.mem_append_left _ hj, hnamed⟩
  owned j hj := by
    rcases List.mem_append.mp hj with hj | hj
    · exact h.owned j hj
    · rw [List.mem_singleton.mp hj]
      exact ⟨row, hrow, hsession, huser⟩
  distinct := h.distinct_snoc hnew

theorem insert (hinsert : insertSession? s.sessions row = some sessions)
    (hsession : row.sessionId = i.sessionId) (huser : row.userId = i.token.sub)
    (hjti : row.jti = i.token.jti) (hhash : row.refreshTokenHash = .sha256 i.token) :
    AuthState.Ok { s with sessions, issued := s.issued ++ [i] } where
  named other hother := by
    rw [(insertSession?_spec hinsert).1] at hother
    rcases List.mem_append.mp hother with hother | hother
    · obtain ⟨j, hj, hnamed⟩ := h.named other hother
      exact ⟨j, List.mem_append_left _ hj, hnamed⟩
    · rw [List.mem_singleton.mp hother]
      exact ⟨i, List.mem_append_right _ (List.mem_singleton_self i), hsession.symm, huser.symm,
        hjti.symm, hhash⟩
  owned j hj := by
    rw [(insertSession?_spec hinsert).1]
    rcases List.mem_append.mp hj with hj | hj
    · obtain ⟨other, hother, howned⟩ := h.owned j hj
      exact ⟨other, List.mem_append_left _ hother, howned⟩
    · rw [List.mem_singleton.mp hj]
      exact ⟨row, List.mem_append_right _ (List.mem_singleton_self row), hsession, huser⟩
  distinct := h.distinct_snoc hnew

end

theorem rotate (hi : i ∈ s.issued) {data : SessionData} {lastUsedAt : Int}
    (hjti : data.jti = i.token.jti) (hhash : data.refreshTokenHash = .sha256 i.token)
    (hrotate : rotateSessionWithLock s.sessions i.sessionId data lastUsedAt = some sessions) :
    AuthState.Ok { s with sessions } := by
  refine ⟨?_, ?_, h.distinct⟩
  · intro row hrow
    obtain ⟨before, hbefore, rfl⟩ := (mem_rotateSessionWithLock hrotate).mp hrow
    split
    · next hid => exact ⟨i, hi, hid.symm, (h.user_eq hi hbefore hid).symm, hjti.symm, hhash⟩
    · exact h.named before hbefore
  · intro j hj
    obtain ⟨before, hbefore, hid, huser⟩ := h.owned j hj
    refine ⟨_, (mem_rotateSessionWithLock hrotate).mpr ⟨before, hbefore, rfl⟩, ?_, ?_⟩
    · split
      · exact hid
      · exact hid
    · split
      · exact huser
      · exact huser

end

end AuthState.Ok

/-! ## A user for the examples -/

def sampleConfig : RefreshConfig := ⟨10000, false, 604800, 604800000, 5⟩

def sampleDevice : SessionRequestContext := ⟨none, some "Firefox", none, "desktop"⟩

def adasToken (jti : String) (now : Int) : RefreshToken := issueTokens sampleConfig "ada" jti now

def adasSession (sessionId jti : String) (now : Int) : UserSession :=
  newSession "ada" sessionId (sessionData sampleConfig (adasToken jti now) sampleDevice now)
    (iso now)

def adasRefresh (token : RefreshToken) (now : Int) (latest : UserSession) (newJti : String) :
    RefreshCall :=
  ⟨token, sampleDevice, now, true, some latest, .counted, true, newJti⟩

end QuizBackend.Auth
