import QuizBackend.Auth.Sessions
import QuizBackend.Lib.Newest
import QuizBackend.Lib.Run

/-!
# Changing and resetting passwords

Three requests write passwords and what goes with them.

* `requestPasswordReset` revokes the user's reset tokens and inserts a new one, in a transaction
  without a lock. Its `UPDATE` sees what was committed before it.
* `resetPassword` looks the token up twice, hashing the password in between, and then takes the
  user's advisory lock, looks once more, sets the password, marks the token used and revokes the
  user's sessions.
* `changePassword` reads the credentials, checks the new password against them and the history, and
  then, under the same lock, archives the hash it has read, prunes the history, sets the password
  and revokes the user's other sessions.

A step is a statement or a transaction that the lock keeps together; only the two transactions that
others can come in between are taken apart, `requestUpdate` from `requestCommit` and `resetValidate`
from `resetCommit`. That an `UPDATE` waits for another one that has the row takes interleavings away
and adds none, and is left out. A hash is the password and the salt that was drawn for it, and no
salt is drawn twice. The accounts are there from the start, as registration leaves them, and are not
deleted here.
-/

namespace QuizBackend.Auth

open Lib Table

/-! ## Tables -/

/-- What bcrypt makes of a password and a salt. -/
structure PasswordHash where
  password : String
  salt : String
  deriving DecidableEq

def PasswordHash.verify (hash : PasswordHash) (password : String) : Bool :=
  decide (hash.password = password)

/-- A `passwordHash` of `none` is the marker of an account made by OAuth, which no password
verifies against. -/
structure UserCredentials where
  userId : String
  passwordHash : Option PasswordHash
  passwordChangedAt : Option Int
  deriving DecidableEq

/-- A row of `password_reset_tokens`; a token is known by its hash. -/
structure PasswordResetToken where
  userId : String
  tokenHash : String
  expiresAt : Int
  usedAt : Option Int
  revokedAt : Option Int
  isActive : Bool
  deriving DecidableEq

/-- A row of `password_history`. -/
structure PasswordHistoryEntry where
  historyId : String
  userId : String
  passwordHash : PasswordHash
  createdAt : Int

/-- The tables that the requests read and write. -/
structure PasswordDb where
  users : Table String UserCredentials (·.userId)
  tokens : Table String PasswordResetToken (·.tokenHash)
  history : Table String PasswordHistoryEntry (·.historyId)
  sessions : UserSessions

/-- The `UPDATE` of `users`, which does not look at the hash that it replaces. -/
def setPassword (users : Table String UserCredentials (·.userId)) (userId : String)
    (passwordHash : PasswordHash) (nowIso : Int) : Table String UserCredentials (·.userId) :=
  users.modify userId
    (fun user => { user with passwordHash := some passwordHash, passwordChangedAt := some nowIso })
    fun _ => rfl

/-- `createUserWithPasswordHistory` has archived the hash that an account was registered with; an
account made by OAuth has none. -/
def registrationEntries (users : List UserCredentials) : List PasswordHistoryEntry :=
  users.filterMap fun user =>
    user.passwordHash.map fun hash => ⟨user.userId, user.userId, hash, 0⟩

theorem registrationEntries_sublist (users : List UserCredentials) :
    ((registrationEntries users).map (·.historyId)).Sublist (users.map (·.userId)) := by
  induction users with
  | nil => exact List.Sublist.refl _
  | cons user users ih =>
    unfold registrationEntries at ih ⊢
    cases hhash : user.passwordHash with
    | none =>
      rw [List.filterMap_cons_none (by rw [hhash]; rfl)]
      exact ih.cons _
    | some hash =>
      rw [List.filterMap_cons_some (by rw [hhash]; rfl)]
      exact ih.cons_cons _

/-! ## Reset tokens -/

section

variable (token : PasswordResetToken)

/-- `isActive` and `isNull(usedAt)`: what a request revokes. -/
def PasswordResetToken.isOpen : Bool :=
  token.isActive && token.usedAt.isNone

/-- The `WHERE` of `findActivePasswordResetTokenByHash`. -/
def PasswordResetToken.isUsable (nowIso : Int) : Bool :=
  token.isActive && decide (nowIso < token.expiresAt) && token.usedAt.isNone &&
    token.revokedAt.isNone

/-- The `WHERE` of the second look, under the lock: `revokedAt` is not asked for. -/
def PasswordResetToken.isValid (nowIso : Int) : Bool :=
  token.isActive && decide (nowIso < token.expiresAt) && token.usedAt.isNone

end

/-- `findActivePasswordResetTokenByHash`: the user of the token. -/
def findActivePasswordResetTokenByHash (db : PasswordDb) (tokenHash : String) (nowIso : Int) :
    Option String :=
  match db.tokens.find? tokenHash with
  | some token =>
    if token.isUsable nowIso ∧ (db.users.find? token.userId).isSome then some token.userId else none
  | none => none

/-- The tokens that the `UPDATE` of a request takes in. -/
def openTokens (db : PasswordDb) (userId : String) : List String :=
  (db.tokens.rows.filter fun token => decide (token.userId = userId) && token.isOpen).map
    (·.tokenHash)

/-- `{ revokedAt: nowIso, isActive: false }`, of the tokens the `UPDATE` has read; a row that was
written meanwhile is looked at again. -/
def revokeTokens (tokens : Table String PasswordResetToken (·.tokenHash)) (read : List String)
    (nowIso : Int) : Table String PasswordResetToken (·.tokenHash) :=
  tokens.update (fun token =>
      if token.tokenHash ∈ read ∧ token.isOpen then
        { token with revokedAt := some nowIso, isActive := false }
      else token)
    fun token => by split <;> rfl

def newResetToken (userId tokenHash : String) (expiresAt : Int) : PasswordResetToken :=
  ⟨userId, tokenHash, expiresAt, none, none, true⟩

section

variable (db : PasswordDb)

/-- The writes of `consumePasswordResetTokenAndResetPassword`. -/
def resetPassword (tokenHash userId : String) (passwordHash : PasswordHash)
    (nowIso : Int) : PasswordDb where
  users := setPassword db.users userId passwordHash nowIso
  tokens := db.tokens.modify tokenHash
    (fun token =>
      if token.userId = userId ∧ token.isActive then
        { token with usedAt := some nowIso, isActive := false }
      else token)
    fun token => by split <;> rfl
  history := db.history
  sessions := revokeSessionsExcept db.sessions userId none nowIso

/-! ## The history -/

/-- The user's entries, `ORDER BY created_at DESC`. -/
def entriesOf (userId : String) : List PasswordHistoryEntry :=
  newestFirst (·.createdAt) (db.history.rows.filter fun entry => decide (entry.userId = userId))

def getRecentPasswordHashes (userId : String) (count : Nat) :
    List PasswordHash :=
  ((entriesOf db userId).take count).map (·.passwordHash)

/-- The reuse check of `changePassword`. -/
def isInHistory (userId newPassword : String) (maxPasswordHistorySize : Nat) :
    Bool :=
  (getRecentPasswordHashes db userId maxPasswordHistorySize).any (·.verify newPassword)

def archive (entry : PasswordHistoryEntry) : Option PasswordDb :=
  (db.history.insert? entry).map fun history => { db with history }

def prune (userId : String) (maxHistorySize : Nat) : PasswordDb :=
  let idsToDelete := ((entriesOf db userId).drop maxHistorySize).map (·.historyId)
  { db with history := db.history.deleteWhere fun entry => decide (entry.historyId ∈ idsToDelete) }

/-- Under the lock: archive, prune, set the password, revoke the other sessions. -/
def changePasswordAndRevokeOtherSessions (historyId userId : String)
    (passwordHash previousPasswordHash : PasswordHash) (currentSessionId : String) (nowIso : Int)
    (maxHistorySize : Nat) : Option PasswordDb :=
  (archive db ⟨historyId, userId, previousPasswordHash, nowIso⟩).map fun db =>
    { prune db userId maxHistorySize with
      users := setPassword db.users userId passwordHash nowIso
      sessions := revokeSessionsExcept db.sessions userId (some currentSessionId) nowIso }

end

/-! ## Requests in flight -/

/-- `requestPasswordReset` in its transaction, with the tokens its `UPDATE` has read. -/
structure ResetRequest where
  userId : String
  tokenHash : String
  expiresAt : Int
  nowIso : Int
  read : Option (List String)

/-- How far a call of `resetPassword` has got, with the hash it has computed. -/
inductive ResetPhase where
  | begun
  | found (hash : PasswordHash)
  | located (hash : PasswordHash) (userId : String)
  | validated (hash : PasswordHash) (userId : String)
  deriving DecidableEq

def ResetPhase.lock : ResetPhase → Option String
  | .validated _ userId => some userId
  | _ => none

structure ResetCall where
  callId : String
  tokenHash : String
  newPassword : String
  nowIso : Int
  phase : ResetPhase
  deriving DecidableEq

/-- How far a call of `changePassword` has got: it has read the credentials, found the new password
unused, and hashed it. -/
inductive ChangePhase where
  | read
  | checked
  | prepared (nowIso : Int) (hash : PasswordHash)
  deriving DecidableEq

structure ChangeCall where
  callId : String
  userId : String
  newPassword : String
  currentSessionId : String
  credentials : PasswordHash
  phase : ChangePhase
  deriving DecidableEq

structure ResetDone where
  tokenHash : String
  userId : String
  committedAt : Int

/-- The tables, the requests in flight, the time; and what has happened: the tokens in the order
their requests were committed, the resets, the hashes that were replaced (the latest first), and the
salts that were drawn. -/
structure PasswordSystem where
  db : PasswordDb
  requests : Table String ResetRequest (·.tokenHash)
  resets : Table String ResetCall (·.callId)
  changes : Table String ChangeCall (·.callId)
  clock : Int
  requested : List (String × String)
  done : List ResetDone
  former : List (String × PasswordHash)
  salts : List String

inductive PasswordAction where
  | requestBegin (userId tokenHash : String) (expiresAt : Int)
  | requestUpdate (tokenHash : String)
  | requestCommit (tokenHash : String)
  | resetBegin (callId tokenHash newPassword : String)
  | resetFind (callId salt : String)
  | resetLocate (callId : String)
  | resetValidate (callId : String)
  | resetCommit (callId : String)
  | resetAbort (callId : String)
  | changeBegin (callId userId currentPassword newPassword currentSessionId : String)
  | changeCheck (callId : String)
  | changePrepare (callId salt : String)
  | changeCommit (callId : String)
  | login (row : UserSession)

variable {c : ResetCall}

namespace PasswordSystem

def start (users : Table String UserCredentials (·.userId)) : PasswordSystem where
  db :=
    { users, tokens := empty _, sessions := empty _
      history :=
        { rows := registrationEntries users.rows
          nodup := (registrationEntries_sublist users.rows).nodup users.nodup } }
  requests := empty _
  resets := empty _
  changes := empty _
  clock := 0
  requested := []
  done := []
  former := []
  salts := (registrationEntries users.rows).map (·.passwordHash.salt)

/-- A reset holds the row of the user. -/
def IsLocked (s : PasswordSystem) (userId : String) : Prop :=
  ∃ c ∈ s.resets.rows, c.phase.lock = some userId

instance (s : PasswordSystem) (userId : String) : Decidable (s.IsLocked userId) :=
  inferInstanceAs (Decidable (∃ c ∈ s.resets.rows, _))

section

variable (s : PasswordSystem)

def currentHash (userId : String) : Option PasswordHash :=
  (s.db.users.find? userId).bind (·.passwordHash)

def replaced (userId : String) : List (String × PasswordHash) :=
  (s.currentHash userId).toList.map (userId, ·)

def advanceReset (callId : String) (phase : Option ResetPhase) :
    PasswordSystem :=
  match phase with
  | some phase =>
    { s with resets := s.resets.modify callId (fun c => { c with phase }) fun _ => rfl }
  | none => { s with resets := s.resets.erase callId }

def advanceChange (callId : String) (phase : Option ChangePhase) :
    PasswordSystem :=
  match phase with
  | some phase =>
    { s with changes := s.changes.modify callId (fun c => { c with phase }) fun _ => rfl }
  | none => { s with changes := s.changes.erase callId }

def requestBegin (userId tokenHash : String) (expiresAt : Int) :
    Option PasswordSystem :=
  if (s.db.users.find? userId).isSome ∧ s.db.tokens.find? tokenHash = none then
    (s.requests.insert? ⟨userId, tokenHash, expiresAt, s.clock, none⟩).map fun requests =>
      { s with requests }
  else none

def requestUpdate (r : ResetRequest) : Option PasswordSystem :=
  if r.read = none then
    some { s with
      requests := s.requests.modify r.tokenHash
        (fun r => { r with read := some (openTokens s.db r.userId) }) fun _ => rfl }
  else none

def requestCommit (r : ResetRequest) : Option PasswordSystem :=
  match r.read with
  | some read =>
    ((revokeTokens s.db.tokens read r.nowIso).insert?
      (newResetToken r.userId r.tokenHash r.expiresAt)).map fun tokens =>
        { s with
          db := { s.db with tokens }
          requests := s.requests.erase r.tokenHash
          requested := s.requested ++ [(r.userId, r.tokenHash)] }
  | none => none

section

variable (c : ResetCall)

def resetFind (salt : String) : Option PasswordSystem :=
  match c.phase with
  | .begun =>
    match findActivePasswordResetTokenByHash s.db c.tokenHash c.nowIso with
    | some _ =>
      if salt ∈ s.salts then none
      else some { s.advanceReset c.callId (some (.found ⟨c.newPassword, salt⟩)) with
        salts := s.salts ++ [salt] }
    | none => some (s.advanceReset c.callId none)
  | _ => none

def resetLocate : Option PasswordSystem :=
  match c.phase with
  | .found hash =>
    some (s.advanceReset c.callId
      ((findActivePasswordResetTokenByHash s.db c.tokenHash c.nowIso).map (.located hash)))
  | _ => none

def resetValidate : Option PasswordSystem :=
  match c.phase with
  | .located hash userId =>
    if s.IsLocked userId then none
    else some (s.advanceReset c.callId
      (if (s.db.tokens.find? c.tokenHash).any (·.isValid c.nowIso) then
        some (.validated hash userId) else none))
  | _ => none

def resetCommit : Option PasswordSystem :=
  match c.phase with
  | .validated hash userId =>
    some { s.advanceReset c.callId none with
      db := resetPassword s.db c.tokenHash userId hash c.nowIso
      done := s.done ++ [⟨c.tokenHash, userId, s.clock⟩]
      former := s.replaced userId ++ s.former }
  | _ => none

end

def changeBegin
    (callId userId currentPassword newPassword currentSessionId : String) : Option PasswordSystem :=
  match s.currentHash userId with
  | some hash =>
    if hash.verify currentPassword ∧ ¬ hash.verify newPassword then
      (s.changes.insert? ⟨callId, userId, newPassword, currentSessionId, hash, .read⟩).map
        fun changes => { s with changes }
    else some s
  | none => some s

end

def changeCheck (maxPasswordHistorySize : Nat) (s : PasswordSystem) (c : ChangeCall) :
    Option PasswordSystem :=
  match c.phase with
  | .read =>
    some (s.advanceChange c.callId
      (if isInHistory s.db c.userId c.newPassword maxPasswordHistorySize then none
        else some .checked))
  | _ => none

def changePrepare (s : PasswordSystem) (c : ChangeCall) (salt : String) : Option PasswordSystem :=
  match c.phase with
  | .checked =>
    if salt ∈ s.salts then none
    else some { s.advanceChange c.callId (some (.prepared s.clock ⟨c.newPassword, salt⟩)) with
      salts := s.salts ++ [salt] }
  | _ => none

section

variable (maxPasswordHistorySize : Nat)

def changeCommit (s : PasswordSystem) (c : ChangeCall) :
    Option PasswordSystem :=
  match c.phase with
  | .prepared nowIso hash =>
    if s.IsLocked c.userId then none
    else
      (changePasswordAndRevokeOtherSessions s.db c.callId c.userId hash c.credentials
        c.currentSessionId nowIso maxPasswordHistorySize).map fun db =>
          { s.advanceChange c.callId none with
            db
            former := s.replaced c.userId ++ s.former }
  | _ => none

def run (s : PasswordSystem) : PasswordAction → Option PasswordSystem
  | .requestBegin userId tokenHash expiresAt => s.requestBegin userId tokenHash expiresAt
  | .requestUpdate tokenHash => (s.requests.find? tokenHash).bind s.requestUpdate
  | .requestCommit tokenHash => (s.requests.find? tokenHash).bind s.requestCommit
  | .resetBegin callId tokenHash newPassword =>
    (s.resets.insert? ⟨callId, tokenHash, newPassword, s.clock, .begun⟩).map fun resets =>
      { s with resets }
  | .resetFind callId salt => (s.resets.find? callId).bind fun c => s.resetFind c salt
  | .resetLocate callId => (s.resets.find? callId).bind s.resetLocate
  | .resetValidate callId => (s.resets.find? callId).bind s.resetValidate
  | .resetCommit callId => (s.resets.find? callId).bind s.resetCommit
  | .resetAbort callId => some (s.advanceReset callId none)
  | .changeBegin callId userId currentPassword newPassword currentSessionId =>
    s.changeBegin callId userId currentPassword newPassword currentSessionId
  | .changeCheck callId =>
    (s.changes.find? callId).bind (s.changeCheck maxPasswordHistorySize)
  | .changePrepare callId salt => (s.changes.find? callId).bind fun c => s.changePrepare c salt
  | .changeCommit callId =>
    (s.changes.find? callId).bind (s.changeCommit maxPasswordHistorySize)
  | .login row =>
    if s.IsLocked row.userId then none
    else (insertSession? s.db.sessions row).map fun sessions =>
      { s with db := { s.db with sessions } }

def step (s : PasswordSystem) (a : Int × PasswordAction) :
    Option PasswordSystem :=
  if s.clock ≤ a.1 then run maxPasswordHistorySize { s with clock := a.1 } a.2 else none

end

/-! ## What steps write -/

theorem advanceReset_spec {s : PasswordSystem} (hc : c ∈ s.resets.rows) (phase : Option ResetPhase) :
    ∃ resets, s.advanceReset c.callId phase = { s with resets } ∧
      ∀ c' ∈ resets.rows, c' ∈ s.resets.rows ∧ c'.callId ≠ c.callId ∨
        ∃ p, phase = some p ∧ c' = { c with phase := p } := by
  cases phase with
  | none => exact ⟨_, rfl, fun c' hc' => .inl (mem_erase.mp hc')⟩
  | some p =>
    refine ⟨_, rfl, fun c' hc' => ?_⟩
    obtain ⟨x, hx, rfl⟩ := mem_modify.mp hc'
    by_cases hkey : x.callId = c.callId
    · obtain rfl := eq_of_key_eq hx hc hkey
      exact .inr ⟨p, rfl, if_pos rfl⟩
    · rw [if_neg hkey]
      exact .inl ⟨hx, hkey⟩

theorem advanceChange_spec {s : PasswordSystem} {c : ChangeCall} (hc : c ∈ s.changes.rows)
    (phase : Option ChangePhase) :
    ∃ changes, s.advanceChange c.callId phase = { s with changes } ∧
      ∀ c' ∈ changes.rows, c' ∈ s.changes.rows ∧ c'.callId ≠ c.callId ∨
        ∃ p, phase = some p ∧ c' = { c with phase := p } := by
  cases phase with
  | none => exact ⟨_, rfl, fun c' hc' => .inl (mem_erase.mp hc')⟩
  | some p =>
    refine ⟨_, rfl, fun c' hc' => ?_⟩
    obtain ⟨x, hx, rfl⟩ := mem_modify.mp hc'
    by_cases hkey : x.callId = c.callId
    · obtain rfl := eq_of_key_eq hx hc hkey
      exact .inr ⟨p, rfl, if_pos rfl⟩
    · rw [if_neg hkey]
      exact .inl ⟨hx, hkey⟩

section Quiet

variable {s s' : PasswordSystem} {maxPasswordHistorySize : Nat}

theorem advanceReset_eq (s : PasswordSystem) (callId : String) (phase : Option ResetPhase) :
    ∃ resets, s.advanceReset callId phase = { s with resets } := by
  cases phase <;> exact ⟨_, rfl⟩

theorem advanceChange_eq (s : PasswordSystem) (callId : String) (phase : Option ChangePhase) :
    ∃ changes, s.advanceChange callId phase = { s with changes } := by
  cases phase <;> exact ⟨_, rfl⟩

theorem resetFind_eq {salt : String} (hstep : s.resetFind c salt = some s') :
    ∃ resets salts, s' = { s with resets, salts } := by
  unfold resetFind at hstep
  split at hstep
  · split at hstep
    · split at hstep
      · cases hstep
      · cases hstep
        exact ⟨_, _, rfl⟩
    · cases hstep
      exact ⟨_, _, rfl⟩
  · cases hstep

theorem resetLocate_eq (hstep : s.resetLocate c = some s') :
    ∃ resets salts, s' = { s with resets, salts } := by
  unfold resetLocate at hstep
  split at hstep
  · cases hstep
    obtain ⟨resets, hadvance⟩ := advanceReset_eq s c.callId _
    exact ⟨_, _, hadvance⟩
  · cases hstep

theorem resetValidate_eq (hstep : s.resetValidate c = some s') :
    ∃ resets salts, s' = { s with resets, salts } := by
  unfold resetValidate at hstep
  split at hstep
  · split at hstep
    · cases hstep
    · cases hstep
      obtain ⟨resets, hadvance⟩ := advanceReset_eq s c.callId _
      exact ⟨_, _, hadvance⟩
  · cases hstep

theorem requestCommit_eq {r : ResetRequest} (hstep : s.requestCommit r = some s') :
    ∃ tokens, s' = { s with
      db := { s.db with tokens }
      requests := s.requests.erase r.tokenHash
      requested := s.requested ++ [(r.userId, r.tokenHash)] } := by
  unfold requestCommit at hstep
  split at hstep
  · obtain ⟨tokens, -, rfl⟩ := Option.map_eq_some_iff.mp hstep
    exact ⟨tokens, rfl⟩
  · cases hstep

theorem quiet_run {a : PasswordAction} (hstep : s.run maxPasswordHistorySize a = some s')
    (hrequest : ∀ tokenHash, a ≠ .requestCommit tokenHash)
    (hreset : ∀ callId, a ≠ .resetCommit callId) (hchange : ∀ callId, a ≠ .changeCommit callId) :
    ∃ sessions requests resets changes salts,
      s' = { s with db := { s.db with sessions }, requests, resets, changes, salts } := by
  cases a with
  | requestBegin userId tokenHash expiresAt =>
    simp only [run, requestBegin] at hstep
    split at hstep
    · obtain ⟨requests, -, rfl⟩ := Option.map_eq_some_iff.mp hstep
      exact ⟨_, _, _, _, _, rfl⟩
    · cases hstep
  | requestUpdate tokenHash =>
    obtain ⟨r, -, hnext⟩ := Option.bind_eq_some_iff.mp hstep
    unfold requestUpdate at hnext
    split at hnext
    · cases hnext
      exact ⟨_, _, _, _, _, rfl⟩
    · cases hnext
  | requestCommit tokenHash => exact absurd rfl (hrequest tokenHash)
  | resetBegin callId tokenHash newPassword =>
    obtain ⟨resets, -, rfl⟩ := Option.map_eq_some_iff.mp hstep
    exact ⟨_, _, _, _, _, rfl⟩
  | resetFind callId salt =>
    obtain ⟨c, -, hnext⟩ := Option.bind_eq_some_iff.mp hstep
    obtain ⟨resets, salts, rfl⟩ := resetFind_eq hnext
    exact ⟨_, _, _, _, _, rfl⟩
  | resetLocate callId =>
    obtain ⟨c, -, hnext⟩ := Option.bind_eq_some_iff.mp hstep
    obtain ⟨resets, salts, rfl⟩ := resetLocate_eq hnext
    exact ⟨_, _, _, _, _, rfl⟩
  | resetValidate callId =>
    obtain ⟨c, -, hnext⟩ := Option.bind_eq_some_iff.mp hstep
    obtain ⟨resets, salts, rfl⟩ := resetValidate_eq hnext
    exact ⟨_, _, _, _, _, rfl⟩
  | resetCommit callId => exact absurd rfl (hreset callId)
  | resetAbort callId =>
    cases hstep
    exact ⟨_, _, _, _, _, rfl⟩
  | changeBegin callId userId currentPassword newPassword currentSessionId =>
    simp only [run, changeBegin] at hstep
    split at hstep
    · split at hstep
      · obtain ⟨changes, -, rfl⟩ := Option.map_eq_some_iff.mp hstep
        exact ⟨_, _, _, _, _, rfl⟩
      · cases hstep
        exact ⟨_, _, _, _, _, rfl⟩
    · cases hstep
      exact ⟨_, _, _, _, _, rfl⟩
  | changeCheck callId =>
    obtain ⟨c, -, hnext⟩ := Option.bind_eq_some_iff.mp hstep
    unfold changeCheck at hnext
    split at hnext
    · cases hnext
      obtain ⟨changes, hadvance⟩ := advanceChange_eq s c.callId _
      exact ⟨_, _, _, _, _, hadvance⟩
    · cases hnext
  | changePrepare callId salt =>
    obtain ⟨c, -, hnext⟩ := Option.bind_eq_some_iff.mp hstep
    unfold changePrepare at hnext
    split at hnext
    · split at hnext
      · cases hnext
      · cases hnext
        exact ⟨_, _, _, _, _, rfl⟩
    · cases hnext
  | changeCommit callId => exact absurd rfl (hchange callId)
  | login row =>
    simp only [run] at hstep
    split at hstep
    · cases hstep
    · obtain ⟨sessions, -, rfl⟩ := Option.map_eq_some_iff.mp hstep
      exact ⟨_, _, _, _, _, rfl⟩

end Quiet

end PasswordSystem

def adasUsers : Table String UserCredentials (·.userId) :=
  ⟨[⟨"ada", some ⟨"first", "salt"⟩, none⟩], by decide⟩

end QuizBackend.Auth
