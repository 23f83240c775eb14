import QuizBackend.Lib.Table

/-!
# `user_sessions` and its repository (`UserSessionRepository`)

One row for each session of a user: the `jti` and the hash of the refresh token that is current,
the device it was last seen on, and when it expires. A session ends by its expiry or by
`revoked_at`; the lookups want both not to have happened (`UserSession.isActive`), the writers ask
for less. `rotateSessionWithLock` goes by the session id alone, a revocation takes in whatever is
not revoked yet.

Instants are microseconds, the resolution of the column defaults; an ISO string of the application
is one of them. A refresh token is what it claims and its hash is a constructor: no two tokens have
one hash.
-/

namespace QuizBackend.Auth

open Lib

/-! ## Rows -/

structure RefreshToken where
  sub : String
  jti : String
  iat : Int
  exp : Int
  deriving DecidableEq

inductive TokenHash where
  | sha256 (token : RefreshToken)
  deriving DecidableEq

structure UserSession where
  sessionId : String
  jti : String
  userId : String
  refreshTokenHash : TokenHash
  deviceBrowser : Option String
  deviceOs : Option String
  deviceType : String
  ipAddress : Option String
  expiresAt : Int
  createdAt : Int
  lastUsedAt : Int
  revokedAt : Option Int
  deriving DecidableEq

abbrev UserSessions := Table String UserSession (·.sessionId)

def UserSession.isActive (row : UserSession) (nowIso : Int) : Bool :=
  row.revokedAt.isNone && decide (nowIso < row.expiresAt)

variable {nowIso : Int}

theorem UserSession.isActive_iff {row : UserSession} :
    row.isActive nowIso = true ↔ row.revokedAt = none ∧ nowIso < row.expiresAt := by
  simp [UserSession.isActive]

/-! ## Lookups -/

def getSessionByJtiAndUserId (t : UserSessions) (jti userId : String) (nowIso : Int) :
    Option UserSession :=
  t.rows.find? fun row => decide (row.jti = jti) && decide (row.userId = userId) &&
    row.isActive nowIso

def findSessionByIdAndUserId (t : UserSessions) (sessionId userId : String) (nowIso : Int) :
    Option UserSession :=
  t.rows.find? fun row => decide (row.sessionId = sessionId) && decide (row.userId = userId) &&
    row.isActive nowIso

def activeSessions (t : UserSessions) (userId : String) (nowIso : Int) : List UserSession :=
  t.rows.filter fun row => decide (row.userId = userId) && row.isActive nowIso

def UserSession.usedNoLater (row other : UserSession) : Prop :=
  row.lastUsedAt < other.lastUsedAt ∨
    row.lastUsedAt = other.lastUsedAt ∧ row.createdAt ≤ other.createdAt

instance (row other : UserSession) : Decidable (row.usedNoLater other) :=
  inferInstanceAs (Decidable (_ ∨ _))

/-- What `findLatestActiveSessionByUserId` may answer: a session that none was used after. Sessions
of one instant come in any order. -/
def IsLatestActiveSession (t : UserSessions) (userId : String) (nowIso : Int) :
    Option UserSession → Prop
  | some row => row ∈ activeSessions t userId nowIso ∧
      ∀ other ∈ activeSessions t userId nowIso, other.usedNoLater row
  | none => activeSessions t userId nowIso = []

instance (t : UserSessions) (userId : String) (nowIso : Int) (result : Option UserSession) :
    Decidable (IsLatestActiveSession t userId nowIso result) :=
  match result with
  | some _ => inferInstanceAs (Decidable (_ ∧ _))
  | none => inferInstanceAs (Decidable (_ = _))

theorem getSessionByJtiAndUserId_spec {t : UserSessions} {jti userId : String} {row : UserSession}
    (h : getSessionByJtiAndUserId t jti userId nowIso = some row) :
    row ∈ t.rows ∧ row.jti = jti ∧ row.userId = userId ∧ row.isActive nowIso = true := by
  have hp := List.find?_some h
  simp only [Bool.and_eq_true, decide_eq_true_eq] at hp
  exact ⟨List.mem_of_find?_eq_some h, hp.1.1, hp.1.2, hp.2⟩

theorem findSessionByIdAndUserId_spec {t : UserSessions} {sessionId userId : String}
    {row : UserSession} (h : findSessionByIdAndUserId t sessionId userId nowIso = some row) :
    row ∈ t.rows ∧ row.sessionId = sessionId ∧ row.userId = userId ∧ row.isActive nowIso = true := by
  have hp := List.find?_some h
  simp only [Bool.and_eq_true, decide_eq_true_eq] at hp
  exact ⟨List.mem_of_find?_eq_some h, hp.1.1, hp.1.2, hp.2⟩

theorem mem_activeSessions {t : UserSessions} {userId : String} {row : UserSession} :
    row ∈ activeSessions t userId nowIso ↔
      row ∈ t.rows ∧ row.userId = userId ∧ row.isActive nowIso = true := by
  simp [activeSessions, List.mem_filter]

/-! ## Revocations -/

def UserSession.revoke (nowIso : Int) (row : UserSession) : UserSession :=
  { row with revokedAt := some nowIso, lastUsedAt := nowIso }

section

variable (t : UserSessions)

/-- The `UPDATE` of a revocation, with what it returns. -/
def revokeWhere (p : UserSession → Bool) (nowIso : Int) :
    List UserSession × UserSessions :=
  (t.rows.filter fun row => p row && row.revokedAt.isNone,
    t.update (fun row => if p row && row.revokedAt.isNone then row.revoke nowIso else row)
      fun row => by split <;> rfl)

def revokeSessionsByUserId (userId : String) (nowIso : Int) :
    List UserSession × UserSessions :=
  revokeWhere t (fun row => decide (row.userId = userId)) nowIso

def revokeOtherSessionsByUserId (userId sessionId : String) (nowIso : Int) :
    List UserSession × UserSessions :=
  revokeWhere t (fun row => decide (row.userId = userId) && decide (row.sessionId ≠ sessionId))
    nowIso

def revokeSessionById (sessionId : String) (nowIso : Int) :
    List UserSession × UserSessions :=
  revokeWhere t (fun row => decide (row.sessionId = sessionId)) nowIso

def revokeSessionByJti (jti : String) (nowIso : Int) :
    List UserSession × UserSessions :=
  revokeWhere t (fun row => decide (row.jti = jti)) nowIso

def revokeSessionByRefreshTokenHash (hash : TokenHash) (nowIso : Int) :
    List UserSession × UserSessions :=
  revokeWhere t (fun row => decide (row.refreshTokenHash = hash)) nowIso

/-- `revokeExpiredSessions`: `last_used_at` is left as it is. -/
def revokeExpiredSessions (nowIso : Int) : UserSessions :=
  t.update (fun row => if decide (row.expiresAt < nowIso) && row.revokedAt.isNone then
      { row with revokedAt := some nowIso } else row)
    fun row => by split <;> rfl

/-- What a new password or a deleted account does to the sessions of its user, but for the one that
is kept: `last_used_at` is left as it is here too. -/
def revokeSessionsExcept (userId : String) (keep : Option String) (nowIso : Int) :
    UserSessions :=
  t.update (fun row =>
      if decide (row.userId = userId) && decide (some row.sessionId ≠ keep) && row.revokedAt.isNone
      then { row with revokedAt := some nowIso } else row)
    fun row => by split <;> rfl

end

/-! ## Writers of active sessions -/

structure SessionData where
  jti : String
  refreshTokenHash : TokenHash
  ipAddress : Option String
  deviceBrowser : Option String
  deviceOs : Option String
  deviceType : String
  expiresAt : Int

/-- The row a session begins with; both defaults are the transaction's start. -/
def newSession (userId sessionId : String) (data : SessionData) (startedAt : Int) : UserSession where
  sessionId := sessionId
  jti := data.jti
  userId := userId
  refreshTokenHash := data.refreshTokenHash
  deviceBrowser := data.deviceBrowser
  deviceOs := data.deviceOs
  deviceType := data.deviceType
  ipAddress := data.ipAddress
  expiresAt := data.expiresAt
  createdAt := startedAt
  lastUsedAt := startedAt
  revokedAt := none

/-- The `INSERT`, under `uq_user_sessions_jti` and the primary key. -/
def insertSession? (t : UserSessions) (row : UserSession) : Option UserSessions :=
  if t.rows.any fun other => decide (other.jti = row.jti) then none else t.insert? row

def UserSession.rotate (data : SessionData) (lastUsedAt : Int) (row : UserSession) : UserSession :=
  { row with
    jti := data.jti
    refreshTokenHash := data.refreshTokenHash
    ipAddress := data.ipAddress
    deviceBrowser := data.deviceBrowser
    deviceOs := data.deviceOs
    deviceType := data.deviceType
    expiresAt := data.expiresAt
    lastUsedAt := lastUsedAt }

/-- The `UPDATE` of `rotateSessionWithLock`: by the session id, whatever state the session is in.
It fails when another row has the `jti`. -/
def rotateSessionWithLock (t : UserSessions) (sessionId : String) (data : SessionData)
    (lastUsedAt : Int) : Option UserSessions :=
  if t.rows.any fun other => decide (other.jti = data.jti) && decide (other.sessionId ≠ sessionId)
  then none
  else some (t.modify sessionId (UserSession.rotate data lastUsedAt) fun _ => rfl)

/-- The active sessions in the order of the eviction: the least recently used first, and those of
one instant in any order. -/
def IsEvictionOrder (t : UserSessions) (userId : String) (nowIso : Int) (order : List UserSession) :
    Prop :=
  order.Perm (activeSessions t userId nowIso) ∧ order.Pairwise UserSession.usedNoLater

instance (t : UserSessions) (userId : String) (nowIso : Int) (order : List UserSession) :
    Decidable (IsEvictionOrder t userId nowIso order) := inferInstanceAs (Decidable (_ ∧ _))

/-- `sessionIdsToRevoke`: what there is more than the limit, from the front. -/
def sessionIdsToRevoke (order : List UserSession) (maxActiveSessionsPerUser : Nat) : List String :=
  (order.take (order.length - maxActiveSessionsPerUser)).map (·.sessionId)

/-- The last `UPDATE` of `createSessionWithActiveLimit`; it does not ask again whether they are
active. -/
def evict (t : UserSessions) (sessionIds : List String) (nowIso : Int) : UserSessions :=
  t.update (fun row => if row.sessionId ∈ sessionIds then row.revoke nowIso else row)
    fun row => by split <;> rfl

/-- `createSessionWithActiveLimit` when nothing comes in between: `row` is what is inserted. -/
def createSessionWithActiveLimit (t : UserSessions) (row : UserSession) (nowIso : Int)
    (maxActiveSessionsPerUser : Nat) (order : List UserSession) : Option UserSessions :=
  match insertSession? t row with
  | none => none
  | some t =>
    if IsEvictionOrder t row.userId nowIso order then
      if order.length ≤ maxActiveSessionsPerUser then some t
      else some (evict t (sessionIdsToRevoke order maxActiveSessionsPerUser) nowIso)
    else none

/-! ## What a revocation can do to a row -/

/-- The row as it was, or revoked. -/
def UserSession.RevokedFrom (row row' : UserSession) : Prop :=
  row' = row ∨ ∃ revokedAt lastUsedAt,
    row' = { row with revokedAt := some revokedAt, lastUsedAt := lastUsedAt }

namespace UserSession.RevokedFrom

variable {row row' : UserSession}

section

variable (h : row.RevokedFrom row')
include h

theorem sessionId_eq : row'.sessionId = row.sessionId := by
  rcases h with rfl | ⟨_, _, rfl⟩ <;> rfl

theorem userId_eq : row'.userId = row.userId := by
  rcases h with rfl | ⟨_, _, rfl⟩ <;> rfl

theorem jti_eq : row'.jti = row.jti := by
  rcases h with rfl | ⟨_, _, rfl⟩ <;> rfl

theorem refreshTokenHash_eq :
    row'.refreshTokenHash = row.refreshTokenHash := by
  rcases h with rfl | ⟨_, _, rfl⟩ <;> rfl

theorem eq_of_unrevoked (hn : row'.revokedAt = none) : row' = row := by
  rcases h with rfl | ⟨_, _, rfl⟩
  · rfl
  · cases hn

theorem revoked (hr : row.revokedAt.isSome) : row'.revokedAt.isSome := by
  rcases h with rfl | ⟨_, _, rfl⟩
  · exact hr
  · rfl

end

end UserSession.RevokedFrom

/-- Rows are revoked, and nothing else happens to them. -/
def OnlyRevokes (t t' : UserSessions) : Prop :=
  ∃ f, ∃ hf : ∀ row, (f row).sessionId = row.sessionId,
    t' = t.update f hf ∧ ∀ row : UserSession, row.RevokedFrom (f row)

namespace OnlyRevokes

variable {t t' : UserSessions}

theorem of_update {f : UserSession → UserSession} (hf : ∀ row, (f row).sessionId = row.sessionId)
    (h : ∀ row : UserSession, row.RevokedFrom (f row)) : OnlyRevokes t (t.update f hf) :=
  ⟨f, hf, rfl, h⟩

theorem refl (t : UserSessions) : OnlyRevokes t t := by
  refine ⟨id, fun _ => rfl, ?_, fun _ => .inl rfl⟩
  show t = ⟨t.rows.map id, _⟩
  simp only [List.map_id_fun, id_eq]

theorem of_mem (h : OnlyRevokes t t') {row' : UserSession} (hrow : row' ∈ t'.rows) :
    ∃ row ∈ t.rows, row.RevokedFrom row' := by
  obtain ⟨f, hf, rfl, hrevoked⟩ := h
  obtain ⟨row, hmem, rfl⟩ := List.mem_map.mp hrow
  exact ⟨row, hmem, hrevoked row⟩

theorem mem (h : OnlyRevokes t t') {row : UserSession} (hrow : row ∈ t.rows) :
    ∃ row' ∈ t'.rows, row.RevokedFrom row' := by
  obtain ⟨f, hf, rfl, hrevoked⟩ := h
  exact ⟨f row, List.mem_map_of_mem hrow, hrevoked row⟩

theorem mem_of_unrevoked (h : OnlyRevokes t t') {row : UserSession} (hrow : row ∈ t'.rows)
    (hn : row.revokedAt = none) : row ∈ t.rows := by
  obtain ⟨before, hbefore, hfrom⟩ := h.of_mem hrow
  rw [hfrom.eq_of_unrevoked hn]
  exact hbefore

end OnlyRevokes

section

variable (t : UserSessions)

theorem onlyRevokes_revokeWhere (p : UserSession → Bool) (nowIso : Int) :
    OnlyRevokes t (revokeWhere t p nowIso).2 := by
  refine OnlyRevokes.of_update (fun row => by split <;> rfl) ?_
  intro row
  split
  · exact .inr ⟨nowIso, nowIso, rfl⟩
  · exact .inl rfl

theorem onlyRevokes_revokeExpiredSessions (nowIso : Int) :
    OnlyRevokes t (revokeExpiredSessions t nowIso) := by
  refine OnlyRevokes.of_update (fun row => by split <;> rfl) ?_
  intro row
  split
  · exact .inr ⟨nowIso, row.lastUsedAt, rfl⟩
  · exact .inl rfl

theorem onlyRevokes_revokeSessionsExcept (userId : String) (keep : Option String)
    (nowIso : Int) : OnlyRevokes t (revokeSessionsExcept t userId keep nowIso) := by
  refine OnlyRevokes.of_update (fun row => by split <;> rfl) ?_
  intro row
  split
  · exact .inr ⟨nowIso, row.lastUsedAt, rfl⟩
  · exact .inl rfl

theorem onlyRevokes_evict (sessionIds : List String) (nowIso : Int) :
    OnlyRevokes t (evict t sessionIds nowIso) := by
  refine OnlyRevokes.of_update (fun row => by split <;> rfl) ?_
  intro row
  split
  · exact .inr ⟨nowIso, nowIso, rfl⟩
  · exact .inl rfl

end

/-! ## What the other writers do -/

theorem insertSession?_spec {t t' : UserSessions} {row : UserSession}
    (h : insertSession? t row = some t') :
    t'.rows = t.rows ++ [row] ∧ (∀ other ∈ t.rows, other.jti ≠ row.jti) ∧
      ∀ other ∈ t.rows, other.sessionId ≠ row.sessionId := by
  unfold insertSession? at h
  split at h
  · cases h
  · next hjti =>
    rw [List.any_eq_true] at hjti
    refine ⟨Table.rows_of_insert? h, ?_, ?_⟩
    · intro other hother he
      exact hjti ⟨other, hother, decide_eq_true he⟩
    · intro other hother he
      have hfree := Table.find?_eq_none_iff.mp (Table.find?_of_insert? h)
      exact hfree (List.mem_map.mpr ⟨other, hother, he⟩)

theorem createSessionWithActiveLimit_spec {t t' : UserSessions} {row : UserSession}
    {maxActiveSessionsPerUser : Nat} {order : List UserSession}
    (h : createSessionWithActiveLimit t row nowIso maxActiveSessionsPerUser order = some t') :
    ∃ inserted, insertSession? t row = some inserted ∧ OnlyRevokes inserted t' := by
  unfold createSessionWithActiveLimit at h
  split at h
  · cases h
  · next inserted hinsert =>
    split at h
    · split at h
      · cases h
        exact ⟨t', hinsert, OnlyRevokes.refl t'⟩
      · cases h
        exact ⟨inserted, hinsert, onlyRevokes_evict _ _ _⟩
    · cases h

theorem mem_rotateSessionWithLock {t t' : UserSessions} {sessionId : String} {data : SessionData}
    {lastUsedAt : Int} (h : rotateSessionWithLock t sessionId data lastUsedAt = some t')
    {row : UserSession} : row ∈ t'.rows ↔ ∃ before ∈ t.rows,
      (if before.sessionId = sessionId then before.rotate data lastUsedAt else before) = row := by
  unfold rotateSessionWithLock at h
  split at h
  · cases h
  · cases h
    exact Table.mem_modify

theorem revoked_of_revokeSessionsByUserId {t : UserSessions} {userId : String} {row : UserSession}
    (hrow : row ∈ (revokeSessionsByUserId t userId nowIso).2.rows) (huser : row.userId = userId) :
    row.revokedAt.isSome := by
  obtain ⟨before, hbefore, rfl⟩ := List.mem_map.mp hrow
  split
  · rfl
  · next hn =>
    rw [if_neg hn] at huser
    simp only [huser, decide_true, Bool.true_and, Option.isNone_iff_eq_none] at hn
    exact Option.isSome_iff_ne_none.mpr hn

end QuizBackend.Auth
