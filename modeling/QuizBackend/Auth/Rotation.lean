import QuizBackend.Auth.Refresh

/-!
# Overlapping refreshes (`rotateSessionWithLock`)

`refreshToken` reads the session, compares the hash, issues the tokens and writes them, each by
itself. The `UPDATE` holds an advisory lock on the session, with this comment: "Serializes
concurrent refresh-token rotations for the same sessionId. Two concurrent rotations without the
lock: both read session, both write, second write overwrites the first → first token becomes
permanently invalid."

With the lock they do the same. Each `UPDATE` is a statement of its own and goes by the session id
alone; nothing is read under the lock, and the token that was read before is not compared
(`both_rotations_go_through`). A token is lost, or exchanged twice, exactly where a call writes over
another token than the one it has presented. Along the runs where none does (`RotatesPresented`)
every token a client holds is the session's until it is exchanged or the session revoked
(`refreshes_lose_no_token`).
-/

namespace QuizBackend.Auth

open Lib Table OnlyRevokes TokenHash
open List (mem_append mem_append_left mem_append_right mem_singleton mem_singleton_self not_mem_nil)

/-! ## Calls in flight -/

inductive RefreshPhase where
  /-- No active session has the `jti`; the latest one is asked for next. -/
  | lookedUp
  | resolved (session : UserSession)
  | checked (session : UserSession) (byGrace : Bool)
  | issued (session : UserSession) (byGrace : Bool) (token : RefreshToken)

structure RefreshInFlight where
  call : RefreshCall
  phase : RefreshPhase

structure Exchange where
  presented : RefreshToken
  byGrace : Bool
  returned : IssuedToken

/-- The state, the calls in flight, what they have answered, and the tokens clients hold, from a
login or a refresh. -/
structure RotationSystem where
  auth : AuthState
  calls : Table String RefreshInFlight (·.call.newJti)
  exchanges : List Exchange
  given : List IssuedToken

def RotationSystem.start : RotationSystem := ⟨AuthState.start, empty _, [], []⟩

inductive RotationAction where
  | login (userId sessionId jti : String) (context : SessionRequestContext) (now startedAt : Int)
      (order : List UserSession)
  | begin (call : RefreshCall)
  | fallback (newJti : String)
  | check (newJti : String)
  | issue (newJti : String) (now : Int)
  | rotate (newJti : String) (now : Int)
  | revoke (revocation : Revocation) (now : Int)
  | revokeExcept (userId : String) (keep : Option String) (now : Int)
  | revokeExpired (now : Int)

namespace RotationSystem

def advance (s : RotationSystem) (newJti : String) (phase : RefreshPhase) : RotationSystem :=
  { s with calls := s.calls.modify newJti (fun c => { c with phase }) fun _ => rfl }

def finish (s : RotationSystem) (newJti : String) : RotationSystem :=
  { s with calls := s.calls.erase newJti }

/-- The ids are generated: none is one that was there. -/
def IsNewJti (s : RotationSystem) (jti : String) : Prop :=
  s.auth.IsNewJti jti ∧ s.calls.find? jti = none

instance (s : RotationSystem) (jti : String) : Decidable (s.IsNewJti jti) :=
  inferInstanceAs (Decidable (_ ∧ _))

def withSessions (s : RotationSystem) (sessions : UserSessions) : RotationSystem :=
  { s with auth := { s.auth with sessions } }

def login (cfg : RefreshConfig) (s : RotationSystem) (userId sessionId jti : String)
    (context : SessionRequestContext) (now startedAt : Int) (order : List UserSession) :
    Option RotationSystem :=
  let token := issueTokens cfg userId jti now
  let row := newSession userId sessionId (sessionData cfg token context now) startedAt
  (createSessionWithActiveLimit s.auth.sessions row (iso now) cfg.maxActiveSessionsPerUser
    order).map fun sessions =>
      { s with
        auth := { s.auth with sessions, issued := s.auth.issued ++ [⟨token, sessionId⟩] }
        given := s.given ++ [⟨token, sessionId⟩] }

def begin (s : RotationSystem) (call : RefreshCall) : Option RotationSystem :=
  if call.token ∈ s.given.map (·.token) ∧ s.IsNewJti call.newJti then
    if s.auth.verifies call.token call.now && call.admitted then
      let phase := match getSessionByJtiAndUserId s.auth.sessions call.token.jti call.token.sub
          (iso call.now) with
        | some session => .resolved session
        | none => .lookedUp
      some { s with calls := s.calls.upsert ⟨call, phase⟩ }
    else some s
  else none

section

variable (cfg : RefreshConfig)

section

variable (s : RotationSystem)

section

variable (c : RefreshInFlight)

def fallback :
    Option RotationSystem :=
  match c.phase with
  | .lookedUp =>
    if IsLatestActiveSession s.auth.sessions c.call.token.sub (iso c.call.now) c.call.latest then
      match c.call.latest.filter fun latest =>
          canUseRefreshReuseGraceWindow cfg latest c.call.context c.call.now with
      | some session => some (s.advance c.call.newJti (.resolved session))
      | none =>
        some { s.finish c.call.newJti with
          auth := s.auth.revokeAllActiveSessions c.call.token.sub c.call.now }
    else none
  | _ => none

def check :
    Option RotationSystem :=
  match c.phase with
  | .resolved session =>
    let byGrace := decide (session.refreshTokenHash ≠ .sha256 c.call.token)
    match verifySessionIntegrity cfg s.auth session c.call with
    | (.ok _, auth) => some { s.advance c.call.newJti (.checked session byGrace) with auth }
    | (.error _, auth) => some { s.finish c.call.newJti with auth }
  | _ => none

def issue (now : Int) :
    Option RotationSystem :=
  match c.phase with
  | .checked session byGrace =>
    if evaluateSessionBinding cfg session c.call.context || !c.call.userFound then
      some (s.finish c.call.newJti)
    else if s.auth.IsNewJti c.call.newJti then
      let token := issueTokens cfg session.userId c.call.newJti now
      some { s.advance c.call.newJti (.issued session byGrace token) with
        auth := { s.auth with issued := s.auth.issued ++ [⟨token, session.sessionId⟩] } }
    else none
  | _ => none

def rotate (now : Int) :
    Option RotationSystem :=
  match c.phase with
  | .issued session byGrace token =>
    match rotateSessionWithLock s.auth.sessions session.sessionId
        (sessionData cfg token c.call.context now) (iso c.call.now) with
    | some sessions =>
      some { (s.finish c.call.newJti).withSessions sessions with
        exchanges := s.exchanges ++ [⟨c.call.token, byGrace, ⟨token, session.sessionId⟩⟩]
        given := s.given ++ [⟨token, session.sessionId⟩] }
    | none => some (s.finish c.call.newJti)
  | _ => none

end

def step : RotationAction → Option RotationSystem
  | .login userId sessionId jti context now startedAt order =>
    if s.IsNewJti jti then s.login cfg userId sessionId jti context now startedAt order else none
  | .begin call => s.begin call
  | .fallback newJti => (s.calls.find? newJti).bind (s.fallback cfg)
  | .check newJti => (s.calls.find? newJti).bind (s.check cfg)
  | .issue newJti now => (s.calls.find? newJti).bind fun c => s.issue cfg c now
  | .rotate newJti now => (s.calls.find? newJti).bind fun c => s.rotate cfg c now
  | .revoke revocation now =>
    some (s.withSessions (revocation.run s.auth.sessions (iso now) now).1)
  | .revokeExcept userId keep now =>
    some (s.withSessions (revokeSessionsExcept s.auth.sessions userId keep (iso now)))
  | .revokeExpired now => some (s.withSessions (revokeExpiredSessions s.auth.sessions (iso now)))

end

end

end RotationSystem

/-! ## What is asked of the calls -/

/-- How often a token was exchanged: as the current one, or within the grace window. -/
def timesExchanged (exchanges : List Exchange) (token : RefreshToken) (byGrace : Bool) : Nat :=
  exchanges.countP fun e => decide (e.presented = token) && decide (e.byGrace = byGrace)

/-- A token is exchanged once, apart from one reuse; and a token that a client holds is the one its
session stores, or it was exchanged, or the session is revoked. -/
structure NoTokenLost (s : RotationSystem) : Prop where
  once : ∀ token byGrace, timesExchanged s.exchanges token byGrace ≤ 1
  stored : ∀ g ∈ s.given, ∀ row ∈ s.auth.sessions.rows, row.sessionId = g.sessionId →
    row.refreshTokenHash = .sha256 g.token ∨ (∃ e ∈ s.exchanges, e.presented = g.token) ∨
      row.revokedAt.isSome

/-- A rotation writes over the token that it was presented with. -/
def RotatesPresented (s : RotationSystem) (a : RotationAction) : Prop :=
  match a with
  | .rotate newJti _ => ∀ c, s.calls.find? newJti = some c →
      ∀ session byGrace token, c.phase = .issued session byGrace token →
        ∀ row ∈ s.auth.sessions.rows, row.sessionId = session.sessionId →
          row.refreshTokenHash = .sha256 c.call.token
  | _ => True

instance (s : RotationSystem) (a : RotationAction) : Decidable (RotatesPresented s a) :=
  match a with
  | .rotate newJti _ =>
    match h : s.calls.find? newJti with
    | none => .isTrue fun _ hc => nomatch h.symm.trans hc
    | some ⟨call, .issued session byGrace token⟩ =>
      decidable_of_iff (∀ row ∈ s.auth.sessions.rows, row.sessionId = session.sessionId →
          row.refreshTokenHash = .sha256 call.token)
        ⟨fun hrows c hc => by
            cases h.symm.trans hc
            rintro _ _ _ ⟨⟩
            exact hrows,
          fun hrows => hrows _ h session byGrace token rfl⟩
    | some ⟨call, .lookedUp⟩ | some ⟨call, .resolved _⟩ | some ⟨call, .checked ..⟩ =>
      .isTrue fun c hc => by
        cases h.symm.trans hc
        rintro _ _ _ ⟨⟩
  | .login .. | .begin .. | .fallback .. | .check .. | .issue .. | .revoke .. | .revokeExcept ..
  | .revokeExpired .. => .isTrue trivial

/-! ## The tokens clients hold -/

/-- What is known of the tokens, apart from the calls in flight: the rows name tokens that clients
hold, and none that was exchanged. -/
structure TokensOk (s : RotationSystem) : Prop where
  ok : s.auth.Ok
  given : ∀ g ∈ s.given, g ∈ s.auth.issued
  named : ∀ row ∈ s.auth.sessions.rows, ∃ g ∈ s.given, row.refreshTokenHash = .sha256 g.token
  presented : ∀ e ∈ s.exchanges, ∃ g ∈ s.given, g.token = e.presented
  gone : ∀ e ∈ s.exchanges, ∀ row ∈ s.auth.sessions.rows,
    row.refreshTokenHash ≠ .sha256 e.presented
  once : (s.exchanges.map (·.presented)).Nodup
  stored : ∀ g ∈ s.given, ∀ row ∈ s.auth.sessions.rows, row.sessionId = g.sessionId →
    row.refreshTokenHash = .sha256 g.token ∨ (∃ e ∈ s.exchanges, e.presented = g.token) ∨
      row.revokedAt.isSome

theorem TokensOk.noTokenLost {s : RotationSystem} (h : TokensOk s) : NoTokenLost s where
  once token byGrace := by
    have hcount : s.exchanges.countP (fun e => decide (e.presented = token)) ≤ 1 := by
      have hmap := List.nodup_iff_count_le_one.mp h.once token
      rw [List.count_eq_countP, List.countP_map] at hmap
      refine Nat.le_trans (List.countP_mono_left fun e _ he => ?_) hmap
      simpa using he
    refine Nat.le_trans (List.countP_mono_left fun e _ he => ?_) hcount
    exact (Bool.and_eq_true_iff.mp he).1
  stored := h.stored

variable {sessions : UserSessions} {c : RefreshInFlight} {now : Int}

namespace TokensOk

variable {s s' : RotationSystem}

theorem start : TokensOk RotationSystem.start where
  ok := ⟨fun _ h => absurd h not_mem_nil, fun _ h => absurd h not_mem_nil,
    List.nodup_nil⟩
  given _ h := absurd h not_mem_nil
  named _ h := absurd h not_mem_nil
  presented _ h := absurd h not_mem_nil
  gone _ h := absurd h not_mem_nil
  once := List.nodup_nil
  stored _ h := absurd h not_mem_nil

theorem onlyRevokes (h : TokensOk s) (hr : OnlyRevokes s.auth.sessions s'.auth.sessions)
    (hok : s'.auth.Ok) (hissued : ∀ i ∈ s.auth.issued, i ∈ s'.auth.issued)
    (hgiven : s'.given = s.given) (hexchanges : s'.exchanges = s.exchanges) : TokensOk s' where
  ok := hok
  given := by
    rw [hgiven]
    exact fun g hg => hissued g (h.given g hg)
  named := by
    rw [hgiven]
    intro row hrow
    obtain ⟨before, hbefore, hfrom⟩ := hr.of_mem hrow
    rw [hfrom.refreshTokenHash_eq]
    exact h.named before hbefore
  presented := by
    rw [hgiven, hexchanges]
    exact h.presented
  gone := by
    rw [hexchanges]
    intro e he row hrow
    obtain ⟨before, hbefore, hfrom⟩ := hr.of_mem hrow
    rw [hfrom.refreshTokenHash_eq]
    exact h.gone e he before hbefore
  once := by
    rw [hexchanges]
    exact h.once
  stored := by
    rw [hgiven, hexchanges]
    intro g hg row hrow hsession
    obtain ⟨before, hbefore, hfrom⟩ := hr.of_mem hrow
    rw [hfrom.refreshTokenHash_eq]
    rw [hfrom.sessionId_eq] at hsession
    exact (h.stored g hg before hbefore hsession).imp_right (Or.imp_right hfrom.revoked)

theorem insert (h : TokensOk s) {i : IssuedToken} (hnew : s.auth.IsNewJti i.token.jti)
    {row : UserSession} (hinsert : insertSession? s.auth.sessions row = some sessions)
    (hsession : row.sessionId = i.sessionId) (huser : row.userId = i.token.sub)
    (hjti : row.jti = i.token.jti) (hhash : row.refreshTokenHash = .sha256 i.token) :
    TokensOk { s with
      auth := { s.auth with sessions, issued := s.auth.issued ++ [i] }
      given := s.given ++ [i] } := by
  obtain ⟨hrows, -, hid⟩ := insertSession?_spec hinsert
  have hne : ∀ g ∈ s.given, g.token ≠ i.token := fun g hg he =>
    hnew g (h.given g hg) (congrArg RefreshToken.jti he)
  refine ⟨h.ok.insert hnew hinsert hsession huser hjti hhash, ?_, ?_, ?_, ?_, h.once, ?_⟩
  · intro g hg
    rcases mem_append.mp hg with hg | hg
    · exact mem_append_left _ (h.given g hg)
    · exact mem_append_right _ hg
  · intro other hother
    rw [hrows] at hother
    rcases mem_append.mp hother with hother | hother
    · obtain ⟨g, hg, hhash'⟩ := h.named other hother
      exact ⟨g, mem_append_left _ hg, hhash'⟩
    · rw [mem_singleton.mp hother]
      exact ⟨i, mem_append_right _ (mem_singleton_self i), hhash⟩
  · intro e he
    obtain ⟨g, hg, htoken⟩ := h.presented e he
    exact ⟨g, mem_append_left _ hg, htoken⟩
  · intro e he other hother
    rw [hrows] at hother
    rcases mem_append.mp hother with hother | hother
    · exact h.gone e he other hother
    · rw [mem_singleton.mp hother, hhash]
      obtain ⟨g, hg, htoken⟩ := h.presented e he
      intro heq
      exact hne g hg (htoken.trans (sha256.inj heq).symm)
  · intro g hg other hother hother'
    rw [hrows] at hother
    rcases mem_append.mp hg with hg | hg
    · rcases mem_append.mp hother with hother | hother
      · exact h.stored g hg other hother hother'
      · -- an older token is of an older session
        rw [mem_singleton.mp hother] at hother'
        obtain ⟨old, hold, hid', -⟩ := h.ok.owned g (h.given g hg)
        exact absurd (hid'.trans hother'.symm) (hid old hold)
    · rw [mem_singleton.mp hg] at hother' ⊢
      rcases mem_append.mp hother with hother | hother
      · exact absurd (hother'.trans hsession.symm) (hid other hother)
      · rw [mem_singleton.mp hother]
        exact .inl hhash

section Rotate

variable (h : TokensOk s) {i : IssuedToken} {data : SessionData} {lastUsedAt : Int}
  {presented : RefreshToken}

include h in
/-- No other session stores the token of this one. -/
theorem hash_ne_of_other_session {own row : UserSession} (hown : own ∈ s.auth.sessions.rows)
    (hrow : row ∈ s.auth.sessions.rows) (hid : row.sessionId ≠ own.sessionId) :
    row.refreshTokenHash ≠ own.refreshTokenHash := by
  intro heq
  obtain ⟨j, hj, hjid, -, -, hjhash⟩ := h.ok.named row hrow
  obtain ⟨k, hk, hkid, -, -, hkhash⟩ := h.ok.named own hown
  have htokens : j.token.jti = k.token.jti := by
    rw [sha256.inj ((hjhash.symm.trans heq).trans hkhash)]
  rw [h.ok.eq_of_jti hj hk htokens] at hjid
  exact hid (hjid.symm.trans hkid)

variable (hi : i ∈ s.auth.issued) (hfresh : ∀ g ∈ s.given, g.token ≠ i.token)
  (hhash : data.refreshTokenHash = .sha256 i.token)
  (hrotate : rotateSessionWithLock s.auth.sessions i.sessionId data lastUsedAt = some sessions)
  (hpresented : ∃ g ∈ s.given, g.token = presented)
  (hcurrent : ∀ row ∈ s.auth.sessions.rows, row.sessionId = i.sessionId →
    row.refreshTokenHash = .sha256 presented)

include h hi hfresh hhash hrotate hpresented hcurrent in
/-- The new token is none that was presented, and the presented one was stored in this row only. -/
theorem gone_rotate (byGrace : Bool) : ∀ e ∈ s.exchanges ++ [⟨presented, byGrace, i⟩],
    ∀ row ∈ sessions.rows, row.refreshTokenHash ≠ .sha256 e.presented := by
  obtain ⟨own, hown, hownid, -⟩ := h.ok.owned i hi
  have hstored := hcurrent own hown hownid
  have hnew : ∀ token, (∃ g ∈ s.given, g.token = token) →
      (sha256 i.token) ≠ .sha256 token := by
    rintro token ⟨g, hg, rfl⟩ heq
    exact hfresh g hg (sha256.inj heq).symm
  intro e he row hrow
  obtain ⟨before, hbefore, rfl⟩ := (mem_rotateSessionWithLock hrotate).mp hrow
  rcases mem_append.mp he with he | he
  · split
    · show data.refreshTokenHash ≠ _
      rw [hhash]
      exact hnew e.presented (h.presented e he)
    · exact h.gone e he before hbefore
  · rw [mem_singleton.mp he]
    split
    · show data.refreshTokenHash ≠ _
      rw [hhash]
      exact hnew presented hpresented
    · next hid =>
      exact hstored ▸ h.hash_ne_of_other_session hown hbefore fun he => hid (he.trans hownid)

include h hhash hrotate hcurrent in
/-- A token that is stored no more was the presented one. -/
theorem stored_rotate (byGrace : Bool) : ∀ g ∈ s.given ++ [i], ∀ row ∈ sessions.rows,
    row.sessionId = g.sessionId → row.refreshTokenHash = .sha256 g.token ∨
      (∃ e ∈ s.exchanges ++ [⟨presented, byGrace, i⟩], e.presented = g.token) ∨
      row.revokedAt.isSome := by
  intro g hg row hrow hsession
  obtain ⟨before, hbefore, rfl⟩ := (mem_rotateSessionWithLock hrotate).mp hrow
  have hbefore' : before.sessionId = g.sessionId := by
    split at hsession
    · exact hsession
    · exact hsession
  rcases mem_append.mp hg with hg | hg
  · rcases h.stored g hg before hbefore hbefore' with hstill | ⟨e, he, htoken⟩ | hrevoked
    · by_cases hid : before.sessionId = i.sessionId
      · -- it was stored in this session, so it is the one presented
        have hsame := hstill.symm.trans (hcurrent before hbefore hid)
        refine .inr (.inl ⟨_, mem_append_right _ (mem_singleton_self _), ?_⟩)
        exact (sha256.inj hsame).symm
      · rw [if_neg hid]
        exact .inl hstill
    · exact .inr (.inl ⟨e, mem_append_left _ he, htoken⟩)
    · refine .inr (.inr ?_)
      split
      · exact hrevoked
      · exact hrevoked
  · rw [mem_singleton.mp hg] at hbefore' ⊢
    rw [if_pos hbefore']
    exact .inl hhash

include h hi hfresh hhash hrotate hpresented hcurrent in
/-- **A rotation that writes over the token it was presented with.** That token is exchanged by it,
and no other was stored. -/
theorem rotate (hjti : data.jti = i.token.jti) (byGrace : Bool)
    (calls : Table String RefreshInFlight (·.call.newJti)) :
    TokensOk { s with
      auth := { s.auth with sessions }
      calls
      exchanges := s.exchanges ++ [⟨presented, byGrace, i⟩]
      given := s.given ++ [i] } := by
  refine ⟨h.ok.rotate hi hjti hhash hrotate, ?_, ?_, ?_,
    h.gone_rotate hi hfresh hhash hrotate hpresented hcurrent byGrace, ?_,
    h.stored_rotate hhash hrotate hcurrent byGrace⟩
  · intro g hg
    rcases mem_append.mp hg with hg | hg
    · exact h.given g hg
    · rw [mem_singleton.mp hg]
      exact hi
  · intro row hrow
    obtain ⟨before, hbefore, rfl⟩ := (mem_rotateSessionWithLock hrotate).mp hrow
    split
    · exact ⟨i, mem_append_right _ (mem_singleton_self i), hhash⟩
    · obtain ⟨g, hg, hhash'⟩ := h.named before hbefore
      exact ⟨g, mem_append_left _ hg, hhash'⟩
  · intro e he
    rcases mem_append.mp he with he | he
    · obtain ⟨g, hg, htoken⟩ := h.presented e he
      exact ⟨g, mem_append_left _ hg, htoken⟩
    · rw [mem_singleton.mp he]
      obtain ⟨g, hg, htoken⟩ := hpresented
      exact ⟨g, mem_append_left _ hg, htoken⟩
  · rw [List.map_append, List.map_singleton]
    refine List.nodup_append.mpr ⟨h.once, List.nodup_singleton _, ?_⟩
    intro token htoken other hother heq
    obtain ⟨own, hown, hownid, -⟩ := h.ok.owned i hi
    obtain ⟨e, he, rfl⟩ := List.mem_map.mp htoken
    rw [mem_singleton.mp hother] at heq
    exact h.gone e he own hown (heq ▸ hcurrent own hown hownid)

end Rotate

end TokensOk

/-! ## The calls in flight -/

def RefreshPhase.session? : RefreshPhase → Option UserSession
  | .lookedUp => none
  | .resolved session | .checked session _ | .issued session _ _ => some session

/-- A call presents a token that its client holds, its own one is not out yet, and its session is
there. -/
structure CallOk (auth : AuthState) (given : List IssuedToken) (c : RefreshInFlight) : Prop where
  presented : ∃ g ∈ given, g.token = c.call.token
  fresh : ∀ g ∈ given, g.token.jti ≠ c.call.newJti
  session : ∀ session, c.phase.session? = some session →
    ∃ row ∈ auth.sessions.rows, row.sessionId = session.sessionId ∧ row.userId = session.userId
  issued : ∀ session byGrace token, c.phase = .issued session byGrace token →
    ⟨token, session.sessionId⟩ ∈ auth.issued ∧ token.jti = c.call.newJti

theorem CallOk.mono {auth auth' : AuthState} {given given' : List IssuedToken}
    (h : CallOk auth given c)
    (hrows : ∀ row ∈ auth.sessions.rows, ∃ row' ∈ auth'.sessions.rows,
      row'.sessionId = row.sessionId ∧ row'.userId = row.userId)
    (hissued : ∀ i ∈ auth.issued, i ∈ auth'.issued) (hgiven : ∀ g ∈ given, g ∈ given')
    (hfresh : ∀ g ∈ given', g ∈ given ∨ g.token.jti ≠ c.call.newJti) : CallOk auth' given' c where
  presented := by
    obtain ⟨g, hg, htoken⟩ := h.presented
    exact ⟨g, hgiven g hg, htoken⟩
  fresh g hg := (hfresh g hg).elim (h.fresh g) id
  session session hs := by
    obtain ⟨row, hrow, hid, huser⟩ := h.session session hs
    obtain ⟨row', hrow', hid', huser'⟩ := hrows row hrow
    exact ⟨row', hrow', hid'.trans hid, huser'.trans huser⟩
  issued session byGrace token hphase := by
    obtain ⟨hmem, hjti⟩ := h.issued session byGrace token hphase
    exact ⟨hissued _ hmem, hjti⟩

theorem CallOk.advance {auth : AuthState} {given : List IssuedToken} (h : CallOk auth given c)
    {phase : RefreshPhase}
    (hsession : ∀ session, phase.session? = some session → ∃ row ∈ auth.sessions.rows,
      row.sessionId = session.sessionId ∧ row.userId = session.userId)
    (hissued : ∀ session byGrace token, phase = .issued session byGrace token →
      ⟨token, session.sessionId⟩ ∈ auth.issued ∧ token.jti = c.call.newJti) :
    CallOk auth given { c with phase } :=
  ⟨h.presented, h.fresh, hsession, hissued⟩

structure RotationInv (s : RotationSystem) : Prop where
  tokens : TokensOk s
  calls : ∀ c ∈ s.calls.rows, CallOk s.auth s.given c

theorem OnlyRevokes.keepsRows {t t' : UserSessions} (h : OnlyRevokes t t') :
    ∀ row ∈ t.rows, ∃ row' ∈ t'.rows, row'.sessionId = row.sessionId ∧
      row'.userId = row.userId := by
  intro row hrow
  obtain ⟨row', hrow', hfrom⟩ := h.mem hrow
  exact ⟨row', hrow', hfrom.sessionId_eq, hfrom.userId_eq⟩

namespace RotationInv

variable {cfg : RefreshConfig} {s s' : RotationSystem}

theorem start : RotationInv RotationSystem.start where
  tokens := TokensOk.start
  calls _ hc := absurd hc not_mem_nil

/-- Sessions are revoked, tokens are signed; of the calls each was there or is all right. -/
theorem onlyRevokes (h : RotationInv s) (hr : OnlyRevokes s.auth.sessions s'.auth.sessions)
    (hok : s'.auth.Ok) (hissued : ∀ i ∈ s.auth.issued, i ∈ s'.auth.issued)
    (hgiven : s'.given = s.given) (hexchanges : s'.exchanges = s.exchanges)
    (hcalls : ∀ c ∈ s'.calls.rows, c ∈ s.calls.rows ∨ CallOk s'.auth s'.given c) : RotationInv s' where
  tokens := h.tokens.onlyRevokes hr hok hissued hgiven hexchanges
  calls c hc := by
    rcases hcalls c hc with hc | hc
    · refine (h.calls c hc).mono hr.keepsRows hissued ?_ ?_
      · exact fun g hg => hgiven ▸ hg
      · exact fun g hg => .inl (hgiven ▸ hg)
    · exact hc

theorem withSessions (h : RotationInv s) (hr : OnlyRevokes s.auth.sessions sessions) :
    RotationInv (s.withSessions sessions) :=
  h.onlyRevokes hr (h.tokens.ok.onlyRevokes hr) (fun _ hi => hi) rfl rfl fun _ hc => .inl hc

theorem mem_advance {newJti : String} {phase : RefreshPhase} {c' : RefreshInFlight}
    (hc' : c' ∈ (s.advance newJti phase).calls.rows) (hc : s.calls.find? newJti = some c) :
    c' ∈ s.calls.rows ∨ c' = { c with phase } := by
  have hmem : c' ∈ (s.calls.modify newJti (fun c => { c with phase }) fun _ => rfl).rows := hc'
  obtain ⟨x, hx, rfl⟩ := mem_modify.mp hmem
  split
  · next hkey =>
    obtain ⟨hmem, hkey'⟩ := find?_eq_some_iff.mp hc
    rw [Table.eq_of_key_eq hx hmem (hkey.trans hkey'.symm)]
    exact .inr rfl
  · exact .inl hx

theorem mem_finish {newJti : String} {c' : RefreshInFlight}
    (hc' : c' ∈ (s.finish newJti).calls.rows) :
    c' ∈ s.calls.rows ∧ c'.call.newJti ≠ newJti := mem_erase.mp hc'

theorem login (h : RotationInv s) {userId sessionId jti : String} {context : SessionRequestContext}
    {startedAt : Int} {order : List UserSession} (hnew : s.IsNewJti jti)
    (hstep : s.login cfg userId sessionId jti context now startedAt order = some s') :
    RotationInv s' := by
  obtain ⟨sessions, hcreate, rfl⟩ := Option.map_eq_some_iff.mp hstep
  obtain ⟨inserted, hinsert, hr⟩ := createSessionWithActiveLimit_spec hcreate
  have htokens := h.tokens.insert (i := ⟨issueTokens cfg userId jti now, sessionId⟩) hnew.1 hinsert
    rfl rfl rfl rfl
  refine ⟨htokens.onlyRevokes hr (htokens.ok.onlyRevokes hr) (fun _ hi => hi) rfl rfl, ?_⟩
  intro c hc
  refine (h.calls c hc).mono ?_ (fun i hi => mem_append_left _ hi)
    (fun g hg => mem_append_left _ hg) ?_
  · intro row hrow
    refine hr.keepsRows row ?_
    rw [(insertSession?_spec hinsert).1]
    exact mem_append_left _ hrow
  · intro g hg
    rcases mem_append.mp hg with hg | hg
    · exact .inl hg
    · rw [mem_singleton.mp hg]
      refine .inr fun he => ?_
      have hfree := find?_eq_none_iff.mp hnew.2
      exact hfree (List.mem_map.mpr ⟨c, hc, he.symm⟩)

theorem begin (h : RotationInv s) {call : RefreshCall} (hstep : s.begin call = some s') :
    RotationInv s' := by
  unfold RotationSystem.begin at hstep
  split at hstep
  · next hguard =>
    obtain ⟨hpresented, hnew⟩ := hguard
    split at hstep
    · cases hstep
      refine h.onlyRevokes (refl _) h.tokens.ok (fun _ hi => hi) rfl rfl ?_
      intro c hc
      rcases mem_upsert.mp hc with rfl | ⟨hc, -⟩
      · refine .inr ⟨List.mem_map.mp hpresented, fun g hg => hnew.1 g (h.tokens.given g hg), ?_, ?_⟩
        · intro session hsession
          simp only at hsession
          split at hsession
          · next found hfound =>
            cases hsession
            exact ⟨session, (getSessionByJtiAndUserId_spec hfound).1, rfl, rfl⟩
          · cases hsession
        · intro session byGrace token hphase
          simp only at hphase
          split at hphase
          · cases hphase
          · cases hphase
      · exact .inl hc
    · cases hstep
      exact h
  · cases hstep

theorem fallback (h : RotationInv s) (hc : s.calls.find? c.call.newJti = some c)
    (hstep : s.fallback cfg c = some s') : RotationInv s' := by
  unfold RotationSystem.fallback at hstep
  split at hstep
  · split at hstep
    · next hlatest =>
      split at hstep
      · next session hsession =>
        cases hstep
        refine h.onlyRevokes (refl _) h.tokens.ok (fun _ hi => hi) rfl rfl ?_
        intro c' hc'
        rcases mem_advance hc' hc with hc' | rfl
        · exact .inl hc'
        · refine .inr ((h.calls c (mem_of_find? hc)).advance ?_ ?_)
          · rintro _ ⟨⟩
            obtain ⟨hsome, -⟩ := Option.filter_eq_some_iff.mp hsession
            rw [hsome] at hlatest
            exact ⟨session, (mem_activeSessions.mp hlatest.1).1, rfl, rfl⟩
          · rintro _ _ _ ⟨⟩
      · cases hstep
        have hr : OnlyRevokes s.auth.sessions (revokeSessionsByUserId s.auth.sessions
            c.call.token.sub (iso c.call.now)).2 := onlyRevokes_revokeWhere _ _ _
        exact h.onlyRevokes hr (h.tokens.ok.onlyRevokes hr) (fun _ hi => hi) rfl rfl
          fun c' hc' => .inl (mem_finish hc').1
    · cases hstep
  · cases hstep

theorem verifySessionIntegrity_state (cfg : RefreshConfig) (a : AuthState) (session : UserSession)
    (call : RefreshCall) :
    OnlyRevokes a.sessions (verifySessionIntegrity cfg a session call).2.sessions ∧
      (verifySessionIntegrity cfg a session call).2.issued = a.issued := by
  have hsame : ∀ {b}, b = a ∨ b = a.countReuse cfg call →
      b.sessions = a.sessions ∧ b.issued = a.issued := by
    rintro b (rfl | rfl)
    · exact ⟨rfl, rfl⟩
    · exact ⟨rfl, rfl⟩
  rcases verifySessionIntegrity_cases cfg a session call with
    ⟨b, heq, hp⟩ | ⟨b, hb, heq⟩ | ⟨b, hb, heq⟩
  · obtain ⟨hsessions, hissued⟩ := hsame hp.same_or_counted
    rw [heq]
    exact ⟨hsessions.symm ▸ refl _, hissued⟩
  · obtain ⟨hsessions, hissued⟩ := hsame hb
    rw [heq]
    refine ⟨?_, hissued⟩
    rw [← hsessions]
    exact onlyRevokes_revokeWhere _ _ _
  · obtain ⟨hsessions, hissued⟩ := hsame hb
    rw [heq]
    exact ⟨hsessions.symm ▸ refl _, hissued⟩

section

variable (h : RotationInv s)
include h

section

variable (hc : s.calls.find? c.call.newJti = some c)
include hc

theorem check (hstep : s.check cfg c = some s') : RotationInv s' := by
  unfold RotationSystem.check at hstep
  split at hstep
  · next session hphase =>
    obtain ⟨hr, hissued⟩ := verifySessionIntegrity_state cfg s.auth session c.call
    simp only at hstep
    split at hstep
    · next auth hverify =>
      rw [hverify] at hr hissued
      cases hstep
      have hok : auth.Ok := (h.tokens.ok.onlyRevokes hr).of_eq rfl hissued
      refine h.onlyRevokes hr hok (fun i hi => hissued.symm ▸ hi) rfl rfl ?_
      intro c' hc'
      rcases mem_advance hc' hc with hc' | rfl
      · exact .inl hc'
      · have hcall := (h.calls c (mem_of_find? hc)).mono hr.keepsRows
          (fun i hi => hissued.symm ▸ hi) (fun g hg => hg) (fun g hg => .inl hg)
        refine .inr (hcall.advance ?_ ?_)
        · rintro _ ⟨⟩
          exact hcall.session session (by rw [hphase]; rfl)
        · rintro _ _ _ ⟨⟩
    · next auth hverify =>
      rw [hverify] at hr hissued
      cases hstep
      have hok : auth.Ok := (h.tokens.ok.onlyRevokes hr).of_eq rfl hissued
      exact h.onlyRevokes hr hok (fun i hi => hissued.symm ▸ hi) rfl rfl
        fun c' hc' => .inl (mem_finish hc').1
  · cases hstep

theorem issue (hstep : s.issue cfg c now = some s') : RotationInv s' := by
  unfold RotationSystem.issue at hstep
  split at hstep
  · next session byGrace hphase =>
    split at hstep
    · cases hstep
      exact h.onlyRevokes (refl _) h.tokens.ok (fun _ hi => hi) rfl rfl
        fun c' hc' => .inl (mem_finish hc').1
    · split at hstep
      · next hnew =>
        cases hstep
        have hcall := h.calls c (mem_of_find? hc)
        obtain ⟨row, hrow, hid, huser⟩ := hcall.session session (by rw [hphase]; rfl)
        have hok := h.tokens.ok.issue
          (i := ⟨issueTokens cfg session.userId c.call.newJti now, session.sessionId⟩)
          hnew hrow hid huser
        refine h.onlyRevokes (refl _) hok
          (fun i hi => mem_append_left _ hi) rfl rfl ?_
        intro c' hc'
        rcases mem_advance hc' hc with hc' | rfl
        · exact .inl hc'
        · refine .inr ⟨hcall.presented, hcall.fresh, ?_, ?_⟩
          · rintro _ ⟨⟩
            exact ⟨row, hrow, hid, huser⟩
          · rintro _ _ _ ⟨⟩
            exact ⟨mem_append_right _ (mem_singleton_self _), rfl⟩
      · cases hstep
  · cases hstep

theorem rotate
    (hcurrent : ∀ session byGrace token, c.phase = .issued session byGrace token →
      ∀ row ∈ s.auth.sessions.rows, row.sessionId = session.sessionId →
      row.refreshTokenHash = .sha256 c.call.token)
    (hstep : s.rotate cfg c now = some s') : RotationInv s' := by
  unfold RotationSystem.rotate at hstep
  split at hstep
  · next session byGrace token hphase =>
    have hcall := h.calls c (mem_of_find? hc)
    obtain ⟨hissued, hjti⟩ := hcall.issued session byGrace token hphase
    split at hstep
    · next sessions hrotate =>
      cases hstep
      have hfresh : ∀ g ∈ s.given, g.token ≠ token := fun g hg he =>
        hcall.fresh g hg ((congrArg RefreshToken.jti he).trans hjti)
      refine ⟨h.tokens.rotate hissued hfresh rfl hrotate hcall.presented
        (hcurrent session byGrace token hphase) rfl byGrace _, ?_⟩
      intro c' hc'
      obtain ⟨hc', hne⟩ := mem_finish hc'
      refine (h.calls c' hc').mono ?_ (fun _ hi => hi) (fun g hg => mem_append_left _ hg) ?_
      · intro row hrow
        refine ⟨_, (mem_rotateSessionWithLock hrotate).mpr ⟨row, hrow, rfl⟩, ?_, ?_⟩
        · split
          · rfl
          · rfl
        · split
          · rfl
          · rfl
      · intro g hg
        rcases mem_append.mp hg with hg | hg
        · exact .inl hg
        · rw [mem_singleton.mp hg]
          exact .inr fun he => hne (he.symm.trans hjti)
    · cases hstep
      exact h.onlyRevokes (refl _) h.tokens.ok (fun _ hi => hi) rfl rfl
        fun c' hc' => .inl (mem_finish hc').1
  · cases hstep

end

theorem step {a : RotationAction} (hcurrent : RotatesPresented s a)
    (hstep : s.step cfg a = some s') : RotationInv s' := by
  cases a with
  | login userId sessionId jti context now startedAt order =>
    simp only [RotationSystem.step] at hstep
    split at hstep
    · next hnew => exact h.login hnew hstep
    · cases hstep
  | begin call => exact h.begin hstep
  | fallback newJti =>
    obtain ⟨c, hc, hnext⟩ := Option.bind_eq_some_iff.mp hstep
    obtain rfl := key_of_find? hc
    exact h.fallback hc hnext
  | check newJti =>
    obtain ⟨c, hc, hnext⟩ := Option.bind_eq_some_iff.mp hstep
    obtain rfl := key_of_find? hc
    exact h.check hc hnext
  | issue newJti now =>
    obtain ⟨c, hc, hnext⟩ := Option.bind_eq_some_iff.mp hstep
    obtain rfl := key_of_find? hc
    exact h.issue hc hnext
  | rotate newJti now =>
    obtain ⟨c, hc, hnext⟩ := Option.bind_eq_some_iff.mp hstep
    obtain rfl := key_of_find? hc
    exact h.rotate hc (hcurrent c hc) hnext
  | revoke revocation now =>
    cases hstep
    exact h.withSessions (revocation.onlyRevokes _ _ _)
  | revokeExcept userId keep now =>
    cases hstep
    exact h.withSessions (onlyRevokes_revokeSessionsExcept _ _ _ _)
  | revokeExpired now =>
    cases hstep
    exact h.withSessions (onlyRevokes_revokeExpiredSessions _ _)

end

end RotationInv

/-- **Refreshes that overlap lose no token if each writes over what it has presented.** In every
interleaving of any number of calls, step by step, with logins and revocations: if each rotation
finds the token its call has presented still stored, then every token is exchanged at most once, and
one that a client holds is stored by its session until it is exchanged or the session revoked. -/
theorem refreshes_lose_no_token (cfg : RefreshConfig) (as : List RotationAction)
    (hcurrent : Along (RotationSystem.step cfg) RotatesPresented RotationSystem.start as) :
    Always (RotationSystem.step cfg) NoTokenLost RotationSystem.start as := by
  intro pre s hpre hs
  have hinv : RotationInv s := (hcurrent.of_prefix hpre).invariant
    (fun _ _ _ h hc hstep => h.step hc hstep) hs RotationInv.start
  exact hinv.tokens.noTokenLost

/-- Two refreshes after one another: the token of the first is the one the second presents. -/
theorem refreshes_lose_no_token_in_turn :
    let before := adasSession "s1" "j1" 0
    Always (RotationSystem.step sampleConfig) NoTokenLost RotationSystem.start
      [.login "ada" "s1" "j1" sampleDevice 0 0 [before],
        .begin (adasRefresh (adasToken "j1" 0) 5000 before "j2"), .check "j2", .issue "j2" 5000,
        .rotate "j2" 5001, .begin (adasRefresh (adasToken "j2" 5000) 60000 before "j3"),
        .check "j3", .issue "j3" 60000, .rotate "j3" 60001] :=
  refreshes_lose_no_token sampleConfig _ (by decide +kernel)

/-- Two calls read the session before either rotates it: both exchange the token, and what the first
was given is gone. -/
theorem both_rotations_go_through :
    let before := adasSession "s1" "j1" 0
    let call (newJti : String) := adasRefresh (adasToken "j1" 0) 5000 before newJti
    ¬ Always (RotationSystem.step sampleConfig) NoTokenLost RotationSystem.start
      [.login "ada" "s1" "j1" sampleDevice 0 0 [before], .begin (call "j2"), .begin (call "j3"),
        .check "j2", .check "j3", .issue "j2" 5000, .issue "j3" 5000, .rotate "j2" 5001,
        .rotate "j3" 5002] := by
  intro before call h
  obtain ⟨s, hkept, htwice⟩ :=
    h.read (fun s => timesExchanged s.exchanges (adasToken "j1" 0) false) 2 (by decide +kernel)
  have honce := hkept.once (adasToken "j1" 0) false
  rw [htwice] at honce
  exact absurd honce (by decide)

end QuizBackend.Auth
