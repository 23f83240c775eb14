import QuizBackend.Auth.DenyList

/-!
# How many sessions a user has (`createSessionWithActiveLimit`)

A session is created in a transaction that takes the user's advisory lock, inserts the row, reads
the active sessions in the order they were last used, and revokes what there is more than the limit.
Rotations, revocations and the expiry cleanup run beside it, a rotation under another lock key.

Three things should hold, and one of them does: a revoked session never becomes active again, since
nobody writes `revoked_at` back. The other two rest on times that are not what they are taken for.

* `created_at` and `last_used_at` of the new row are the start of its transaction, which may lie
  long before the lock is granted. Sessions that came in meanwhile are the more recent ones then,
  and the new session is evicted by its own transaction.
* `rotateSessionWithLock` asks for no more than the session id. A session that has expired, and that
  the cleanup has not revoked yet, is alive again with the new `expires_at`, beside as many others as
  there may be.

Both are in `session_limit_broken`. Where neither happens, and nobody takes longer to commit than
the session lasts, the limit holds after each commit and every session that was created is active
then (`session_limit_holds`). The invariant counts what is left of a creation that has read but not
committed: the sessions it is not about to revoke, and its own.
-/

namespace QuizBackend.Auth

open Lib Table UserSession
open List (countP_append countP_map countP_mono_left not_mem_nil)

/-! ## Creations in flight -/

/-- A transaction of `createSessionWithActiveLimit`: the row it inserts, the `nowIso` it was called
with, and the active sessions once it has read them, which is under the user's lock. -/
structure Creation where
  row : UserSession
  nowIso : Int
  order : Option (List UserSession)
  deriving DecidableEq

structure LimitSystem where
  sessions : UserSessions
  creations : Table String Creation (·.row.sessionId)
  clock : Int

open LimitSystem

def LimitSystem.start : LimitSystem := ⟨empty _, empty _, 0⟩

inductive LimitAction where
  | begin (userId sessionId : String) (data : SessionData) (startedAt nowIso : Int)
  | select (sessionId : String) (order : List UserSession)
  | commit (sessionId : String)
  | abort (sessionId : String)
  | rotate (sessionId : String) (data : SessionData) (lastUsedAt : Int)
  | revoke (revocation : Revocation) (nowIso : Int)
  | revokeExcept (userId : String) (keep : Option String) (nowIso : Int)
  | revokeExpired (nowIso : Int)

namespace LimitSystem

def IsLocked (s : LimitSystem) (userId : String) : Prop :=
  ∃ c ∈ s.creations.rows, c.row.userId = userId ∧ c.order.isSome

instance (s : LimitSystem) (userId : String) : Decidable (s.IsLocked userId) :=
  inferInstanceAs (Decidable (∃ c ∈ s.creations.rows, _))

def begin (s : LimitSystem) (maxActiveSessionsPerUser : Nat) (userId sessionId : String)
    (data : SessionData) (startedAt nowIso : Int) : Option LimitSystem :=
  if maxActiveSessionsPerUser = 0 then some s
  else if nowIso ≤ s.clock then
    (s.creations.insert? ⟨newSession userId sessionId data startedAt, nowIso, none⟩).map
      fun creations => { s with creations }
  else none

/-- What is read is the committed rows and the own one, in an order that the query may give. -/
def select (s : LimitSystem) (c : Creation) (order : List UserSession) : Option LimitSystem :=
  if c.order = none ∧ ¬ s.IsLocked c.row.userId then
    match insertSession? s.sessions c.row with
    | some sessions =>
      if IsEvictionOrder sessions c.row.userId c.nowIso order then
        some { s with
          creations := s.creations.modify c.row.sessionId
            (fun c => { c with order := some order }) fun _ => rfl }
      else none
    | none => none
  else none

def commit (s : LimitSystem) (maxActiveSessionsPerUser : Nat) (c : Creation) :
    Option LimitSystem :=
  match c.order, insertSession? s.sessions c.row with
  | some order, some sessions =>
    some { s with
      sessions := evict sessions (sessionIdsToRevoke order maxActiveSessionsPerUser) c.nowIso
      creations := s.creations.erase c.row.sessionId }
  | _, _ => none

def run (maxActiveSessionsPerUser : Nat) (s : LimitSystem) : LimitAction → Option LimitSystem
  | .begin userId sessionId data startedAt nowIso =>
    s.begin maxActiveSessionsPerUser userId sessionId data startedAt nowIso
  | .select sessionId order => (s.creations.find? sessionId).bind fun c => s.select c order
  | .commit sessionId =>
    (s.creations.find? sessionId).bind (s.commit maxActiveSessionsPerUser)
  | .abort sessionId => some { s with creations := s.creations.erase sessionId }
  | .rotate sessionId data lastUsedAt =>
    (rotateSessionWithLock s.sessions sessionId data lastUsedAt).map fun sessions =>
      { s with sessions }
  | .revoke revocation nowIso => some { s with sessions := (revocation.run s.sessions nowIso 0).1 }
  | .revokeExcept userId keep nowIso =>
    some { s with sessions := revokeSessionsExcept s.sessions userId keep nowIso }
  | .revokeExpired nowIso => some { s with sessions := revokeExpiredSessions s.sessions nowIso }

def step (maxActiveSessionsPerUser : Nat) (s : LimitSystem) (a : Int × LimitAction) :
    Option LimitSystem :=
  if s.clock ≤ a.1 then run maxActiveSessionsPerUser { s with clock := a.1 } a.2 else none

end LimitSystem

/-! ## What is asked -/

/-- No user has more active sessions than the limit. -/
def WithinLimit (maxActiveSessionsPerUser : Nat) (s : LimitSystem) : Prop :=
  ∀ userId, (activeSessions s.sessions userId s.clock).length ≤ maxActiveSessionsPerUser

/-- No session comes back, and one that is created is active. -/
structure KeepsSessions (s : LimitSystem) (a : Int × LimitAction) (s' : LimitSystem) : Prop where
  revoked : ∀ row ∈ s.sessions.rows, row.revokedAt.isSome → ∀ row' ∈ s'.sessions.rows,
    row'.sessionId = row.sessionId → row'.revokedAt.isSome
  created : ∀ sessionId, a.2 = .commit sessionId → ∀ c, s.creations.find? sessionId = some c →
    c.row ∈ activeSessions s'.sessions c.row.userId s'.clock

def isKept (userId : String) (now : Int) (sessionIds : List String) (row : UserSession) : Bool :=
  decide (row.userId = userId) && row.isActive now && decide (row.sessionId ∉ sessionIds)

def keptAfter (s : LimitSystem) (maxActiveSessionsPerUser : Nat) (now : Int) (c : Creation) : Nat :=
  match c.order with
  | some order => (s.sessions.rows ++ [c.row]).countP
      (isKept c.row.userId now (sessionIdsToRevoke order maxActiveSessionsPerUser))
  | none => 0

/-- One more active session of the user is within the limit, now and after the creations that have
read the sessions. -/
def HasRoom (s : LimitSystem) (maxActiveSessionsPerUser : Nat) (now : Int) (userId : String) :
    Prop :=
  (activeSessions s.sessions userId now).length < maxActiveSessionsPerUser ∧
    ∀ c ∈ s.creations.rows, c.row.userId = userId →
      keptAfter s maxActiveSessionsPerUser now c < maxActiveSessionsPerUser

def readAfter (order : List UserSession) (row : UserSession) : List UserSession :=
  (order.dropWhile fun other => decide (other ≠ row)).tail

/-- The new session is among the most recent ones when they are read, and has not expired when the
creation commits; and a rotation that brings an expired session back finds room for it. -/
def SessionsInTime (maxActiveSessionsPerUser : Nat) (s : LimitSystem) (a : Int × LimitAction) :
    Prop :=
  match a.2 with
  | .select sessionId order => ∀ c, s.creations.find? sessionId = some c → c.row ∈ order →
      (readAfter order c.row).length < maxActiveSessionsPerUser
  | .commit sessionId => ∀ c, s.creations.find? sessionId = some c → a.1 < c.row.expiresAt
  | .rotate sessionId data _ => a.1 < data.expiresAt → ∀ row, s.sessions.find? sessionId = some row →
      row.revokedAt = none → row.expiresAt ≤ a.1 →
        HasRoom s maxActiveSessionsPerUser a.1 row.userId
  | _ => True

instance (s : LimitSystem) (maxActiveSessionsPerUser : Nat) (now : Int) (userId : String) :
    Decidable (HasRoom s maxActiveSessionsPerUser now userId) :=
  inferInstanceAs (Decidable (_ ∧ ∀ c ∈ s.creations.rows, _))

instance (maxActiveSessionsPerUser : Nat) (s : LimitSystem) (a : Int × LimitAction) :
    Decidable (SessionsInTime maxActiveSessionsPerUser s a) :=
  match a with
  | (_, .select sessionId order) => decidableOfFind (s.creations.find? sessionId) fun c =>
      c.row ∈ order → (readAfter order c.row).length < maxActiveSessionsPerUser
  | (now, .commit sessionId) => decidableOfFind (s.creations.find? sessionId) fun c =>
      now < c.row.expiresAt
  | (now, .rotate sessionId data _) =>
    let _ := decidableOfFind (s.sessions.find? sessionId) fun row => row.revokedAt = none →
      row.expiresAt ≤ now → HasRoom s maxActiveSessionsPerUser now row.userId
    inferInstanceAs (Decidable (now < data.expiresAt → _))
  | (_, .begin ..) | (_, .abort _) | (_, .revoke ..) | (_, .revokeExcept ..)
  | (_, .revokeExpired _) => .isTrue trivial

/-! ## Counting sessions -/

theorem isKept_nil (userId : String) (now : Int) (row : UserSession) :
    isKept userId now [] row = (decide (row.userId = userId) && row.isActive now) := by
  simp [isKept]

theorem length_activeSessions (t : UserSessions) (userId : String) (now : Int) :
    (activeSessions t userId now).length = t.rows.countP (isKept userId now []) := by
  rw [activeSessions, ← List.countP_eq_length_filter]
  exact List.countP_congr fun row _ => by rw [isKept_nil]

variable {now lastUsedAt : Int} {sessionIds : List String} {row : UserSession} {t t' : UserSessions}
  {sessionId : String} {data : SessionData} {c : Creation}

theorem isKept_of_le {userId : String} {now' : Int} (h : now ≤ now')
    (hk : isKept userId now' sessionIds row = true) : isKept userId now sessionIds row = true := by
  simp only [isKept, Bool.and_eq_true, decide_eq_true_eq, isActive_iff] at hk ⊢
  exact ⟨⟨hk.1.1, hk.1.2.1, by omega⟩, hk.2⟩

theorem isKept_of_revokedFrom {userId : String} {row' : UserSession} (h : row.RevokedFrom row')
    (hk : isKept userId now sessionIds row' = true) : isKept userId now sessionIds row = true := by
  have hunrevoked : row'.revokedAt = none := by
    simp only [isKept, Bool.and_eq_true, isActive_iff] at hk
    exact hk.1.2.1
  rw [← h.eq_of_unrevoked hunrevoked]
  exact hk

theorem OnlyRevokes.countP_le (h : OnlyRevokes t t') (userId : String) (now : Int)
    (sessionIds : List String) :
    t'.rows.countP (isKept userId now sessionIds) ≤ t.rows.countP (isKept userId now sessionIds) := by
  obtain ⟨f, hf, rfl, hrevoked⟩ := h
  show (t.rows.map f).countP _ ≤ _
  rw [countP_map]
  exact countP_mono_left fun row _ hk => isKept_of_revokedFrom (hrevoked row) hk

theorem countP_rotate_le (h : rotateSessionWithLock t sessionId data lastUsedAt = some t')
    {userId : String}
    (halive : ∀ row ∈ t.rows, row.sessionId = sessionId → row.revokedAt = none →
      now < data.expiresAt → now < row.expiresAt ∨ row.userId ≠ userId) :
    t'.rows.countP (isKept userId now sessionIds) ≤ t.rows.countP (isKept userId now sessionIds) := by
  unfold rotateSessionWithLock at h
  split at h
  · cases h
  · cases h
    show (t.rows.map _).countP _ ≤ _
    rw [countP_map]
    refine countP_mono_left fun row hrow hk => ?_
    rw [Function.comp_apply] at hk
    split at hk
    · next hid =>
      simp only [isKept, Bool.and_eq_true, decide_eq_true_eq, isActive_iff] at hk ⊢
      obtain ⟨⟨huser, hunrevoked, hexpires⟩, hkeep⟩ := hk
      exact ⟨⟨huser, hunrevoked,
        (halive row hrow hid hunrevoked hexpires).resolve_right fun hne => hne huser⟩, hkeep⟩
    · exact hk

theorem countP_rotate_le_succ (h : rotateSessionWithLock t sessionId data lastUsedAt = some t')
    (hrow : t.find? sessionId = some row) (userId : String) (now : Int) (sessionIds : List String) :
    t'.rows.countP (isKept userId now sessionIds)
      ≤ t.rows.countP (isKept userId now sessionIds) + 1 := by
  unfold rotateSessionWithLock at h
  split at h
  · cases h
  · cases h
    have hcount : (t.modify sessionId (rotate data lastUsedAt) fun _ => rfl).rows.countP
          (isKept userId now sessionIds) + (if isKept userId now sessionIds row then 1 else 0)
        = t.rows.countP (isKept userId now sessionIds) +
          (if isKept userId now sessionIds (row.rotate data lastUsedAt) then 1 else 0) :=
      countP_modify _ hrow
    split at hcount
    · split at hcount
      · omega
      · omega
    · split at hcount
      · omega
      · omega

/-! ## What is revoked stays so -/

def StaysRevoked (t t' : UserSessions) : Prop :=
  ∀ row ∈ t.rows, row.revokedAt.isSome → ∀ row' ∈ t'.rows, row'.sessionId = row.sessionId →
    row'.revokedAt.isSome

theorem StaysRevoked.refl (t : UserSessions) : StaysRevoked t t := by
  intro row hrow hrevoked row' hrow' hid
  rw [eq_of_key_eq hrow' hrow hid]
  exact hrevoked

theorem OnlyRevokes.staysRevoked (h : OnlyRevokes t t') : StaysRevoked t t' := by
  intro row hrow hrevoked row' hrow' hid
  obtain ⟨before, hbefore, hfrom⟩ := h.of_mem hrow'
  obtain rfl := eq_of_key_eq hbefore hrow (hfrom.sessionId_eq.symm.trans hid)
  exact hfrom.revoked hrevoked

theorem staysRevoked_rotate (h : rotateSessionWithLock t sessionId data lastUsedAt = some t') :
    StaysRevoked t t' := by
  intro row hrow hrevoked row' hrow' hid
  obtain ⟨before, hbefore, rfl⟩ := (mem_rotateSessionWithLock h).mp hrow'
  split at hid
  · next heq =>
    obtain rfl := eq_of_key_eq hbefore hrow hid
    rw [if_pos heq]
    exact hrevoked
  · next hne =>
    obtain rfl := eq_of_key_eq hbefore hrow hid
    rw [if_neg hne]
    exact hrevoked

theorem staysRevoked_insert {inserted : UserSessions} (h : insertSession? t row = some inserted)
    (hr : OnlyRevokes inserted t') : StaysRevoked t t' := by
  intro old hold hrevoked row' hrow' hid
  refine hr.staysRevoked old ?_ hrevoked row' hrow' hid
  rw [(insertSession?_spec h).1]
  exact List.mem_append_left _ hold

/-! ## What a creation leaves -/

theorem length_le_readAfter {order : List UserSession} {k : Nat} (h : row ∈ order.take k) :
    order.length ≤ (readAfter order row).length + k := by
  induction order generalizing k with
  | nil => exact Nat.zero_le _
  | cons other rest ih =>
    cases k with
    | zero => cases h
    | succ k =>
      by_cases he : other = row
      · have hafter : readAfter (other :: rest) row = rest := by simp [readAfter, he]
        rw [hafter, List.length_cons]
        omega
      · have hafter : readAfter (other :: rest) row = readAfter rest row := by
          simp [readAfter, he]
        have hrest : row ∈ rest.take k := by
          rw [List.take_succ_cons] at h
          exact (List.mem_cons.mp h).resolve_left fun heq => he heq.symm
        have hle := ih hrest
        rw [hafter, List.length_cons]
        omega

section Select

variable {sessions : UserSessions} {userId : String} {nowIso : Int} {order : List UserSession}
  {maxActiveSessionsPerUser : Nat}

/-- **What is left of the sessions that were read is within the limit.** -/
theorem countP_isKept_le (h : IsEvictionOrder sessions userId nowIso order) (hnow : nowIso ≤ now) :
    sessions.rows.countP (isKept userId now
      (sessionIdsToRevoke order maxActiveSessionsPerUser)) ≤ maxActiveSessionsPerUser := by
  have htime : sessions.rows.countP (isKept userId now
        (sessionIdsToRevoke order maxActiveSessionsPerUser))
      ≤ sessions.rows.countP (isKept userId nowIso
        (sessionIdsToRevoke order maxActiveSessionsPerUser)) :=
    countP_mono_left fun row _ hk => isKept_of_le hnow hk
  -- the sessions that are kept are those of `order` whose id is not among the ones to revoke
  let keep (row : UserSession) : Bool :=
    decide (row.sessionId ∉ sessionIdsToRevoke order maxActiveSessionsPerUser)
  have hread : sessions.rows.countP (isKept userId nowIso
        (sessionIdsToRevoke order maxActiveSessionsPerUser)) = order.countP keep := by
    rw [h.1.countP_eq, activeSessions, List.countP_filter]
    refine List.countP_congr fun row _ => ?_
    simp only [isKept, Bool.and_eq_true]
    exact and_comm
  have hfirst : (order.take (order.length - maxActiveSessionsPerUser)).countP keep = 0 := by
    refine List.countP_eq_zero.mpr fun row hrow => ?_
    simp only [keep, decide_eq_true_eq, Decidable.not_not]
    exact List.mem_map_of_mem hrow
  have hsplit : order.countP keep
      ≤ (order.drop (order.length - maxActiveSessionsPerUser)).length := by
    calc order.countP keep
        = (order.take (order.length - maxActiveSessionsPerUser) ++
            order.drop (order.length - maxActiveSessionsPerUser)).countP keep := by
          rw [List.take_append_drop]
      _ = (order.drop (order.length - maxActiveSessionsPerUser)).countP keep := by
          rw [countP_append, hfirst, Nat.zero_add]
      _ ≤ _ := List.countP_le_length
  rw [List.length_drop] at hsplit
  omega

theorem not_mem_sessionIdsToRevoke (h : IsEvictionOrder sessions userId nowIso order)
    (hrow : row ∈ sessions.rows)
    (hlate : row ∈ order → (readAfter order row).length < maxActiveSessionsPerUser) :
    row.sessionId ∉ sessionIdsToRevoke order maxActiveSessionsPerUser := by
  intro hmem
  obtain ⟨other, hother, hid⟩ := List.mem_map.mp hmem
  have horder : other ∈ order := List.mem_of_mem_take hother
  obtain rfl := eq_of_key_eq (mem_activeSessions.mp (h.1.mem_iff.mp horder)).1 hrow hid
  have hle := length_le_readAfter hother
  have hlt := hlate horder
  have hpos : 0 < order.length - maxActiveSessionsPerUser := by
    rcases Nat.eq_zero_or_pos (order.length - maxActiveSessionsPerUser) with hzero | hpos
    · rw [hzero] at hother
      cases hother
    · exact hpos
  omega

end Select

/-! ## The invariant -/

structure LimitInv (maxActiveSessionsPerUser : Nat) (s : LimitSystem) : Prop where
  within : ∀ userId, s.sessions.rows.countP (isKept userId s.clock []) ≤ maxActiveSessionsPerUser
  begun : ∀ c ∈ s.creations.rows, c.nowIso ≤ s.clock ∧ c.row.revokedAt = none
  kept : ∀ c ∈ s.creations.rows,
    keptAfter s maxActiveSessionsPerUser s.clock c ≤ maxActiveSessionsPerUser
  alone : ∀ c ∈ s.creations.rows, ∀ c' ∈ s.creations.rows, c.row.userId = c'.row.userId →
    c.order.isSome → c'.order.isSome → c = c'
  chosen : ∀ c ∈ s.creations.rows, ∀ order, c.order = some order →
    c.row.sessionId ∉ sessionIdsToRevoke order maxActiveSessionsPerUser

namespace LimitInv

variable {maxActiveSessionsPerUser : Nat} {s s' : LimitSystem}

theorem start (maxActiveSessionsPerUser : Nat) :
    LimitInv maxActiveSessionsPerUser start where
  within _ := Nat.zero_le _
  begun _ hc := absurd hc not_mem_nil
  kept _ hc := absurd hc not_mem_nil
  alone _ hc := absurd hc not_mem_nil
  chosen _ hc := absurd hc not_mem_nil

section

variable (h : LimitInv maxActiveSessionsPerUser s)
include h

theorem withinLimit :
    WithinLimit maxActiveSessionsPerUser s := by
  intro userId
  rw [length_activeSessions]
  exact h.within userId

theorem tick (hnow : s.clock ≤ now) :
    LimitInv maxActiveSessionsPerUser { s with clock := now } where
  within userId := Nat.le_trans
    (countP_mono_left fun row _ hk => isKept_of_le hnow hk) (h.within userId)
  begun c hc := by
    obtain ⟨hbegun, hunrevoked⟩ := h.begun c hc
    exact ⟨Int.le_trans hbegun hnow, hunrevoked⟩
  kept c hc := by
    refine Nat.le_trans ?_ (h.kept c hc)
    unfold keptAfter
    cases c.order with
    | none => exact Nat.le_refl _
    | some order => exact countP_mono_left fun row _ hk => isKept_of_le hnow hk
  alone := h.alone
  chosen := h.chosen

theorem withSessions {sessions : UserSessions}
    (hle : ∀ userId sessionIds, sessions.rows.countP (isKept userId s.clock sessionIds)
      ≤ s.sessions.rows.countP (isKept userId s.clock sessionIds)) :
    LimitInv maxActiveSessionsPerUser { s with sessions } where
  within userId := Nat.le_trans (hle userId []) (h.within userId)
  begun := h.begun
  kept c hc := by
    refine Nat.le_trans ?_ (h.kept c hc)
    unfold keptAfter
    cases c.order with
    | none => exact Nat.le_refl _
    | some order =>
      simp only [countP_append]
      exact Nat.add_le_add_right (hle _ _) _
  alone := h.alone
  chosen := h.chosen

theorem onlyRevokes {sessions : UserSessions}
    (hr : OnlyRevokes s.sessions sessions) :
    LimitInv maxActiveSessionsPerUser { s with sessions } :=
  h.withSessions fun userId sessionIds => hr.countP_le userId s.clock sessionIds

theorem withCreations {creations : Table String Creation (·.row.sessionId)}
    (hsub : ∀ c ∈ creations.rows, c ∈ s.creations.rows ∨
      c.order = none ∧ c.nowIso ≤ s.clock ∧ c.row.revokedAt = none) :
    LimitInv maxActiveSessionsPerUser { s with creations } where
  within := h.within
  begun c hc := by
    rcases hsub c hc with hc | ⟨-, hbegun⟩
    · exact h.begun c hc
    · exact hbegun
  kept c hc := by
    rcases hsub c hc with hc | ⟨hnone, -⟩
    · exact h.kept c hc
    · unfold keptAfter
      rw [hnone]
      exact Nat.zero_le _
  alone c hc c' hc' huser hsome hsome' := by
    rcases hsub c hc with hc | ⟨hnone, -⟩
    · rcases hsub c' hc' with hc' | ⟨hnone, -⟩
      · exact h.alone c hc c' hc' huser hsome hsome'
      · rw [hnone] at hsome'
        cases hsome'
    · rw [hnone] at hsome
      cases hsome
  chosen c hc order horder := by
    rcases hsub c hc with hc | ⟨hnone, -⟩
    · exact h.chosen c hc order horder
    · rw [hnone] at horder
      cases horder

theorem rotate
    (hroom : s.clock < data.expiresAt → ∀ row, s.sessions.find? sessionId = some row →
      row.revokedAt = none → row.expiresAt ≤ s.clock →
      HasRoom s maxActiveSessionsPerUser s.clock row.userId)
    {sessions : UserSessions}
    (hrotate : rotateSessionWithLock s.sessions sessionId data lastUsedAt = some sessions) :
    LimitInv maxActiveSessionsPerUser { s with sessions } := by
  by_cases hrevives : ∃ row, s.sessions.find? sessionId = some row ∧ row.revokedAt = none ∧
      row.expiresAt ≤ s.clock ∧ s.clock < data.expiresAt
  · -- the session comes back: one more for its user, for whom there is room
    obtain ⟨row, hrow, hunrevoked, hexpired, hfuture⟩ := hrevives
    obtain ⟨hnow, hpending⟩ := hroom hfuture row hrow hunrevoked hexpired
    rw [length_activeSessions] at hnow
    have hone := fun userId sessionIds =>
      countP_rotate_le_succ hrotate hrow userId s.clock sessionIds
    have hothers : ∀ userId sessionIds, row.userId ≠ userId →
        sessions.rows.countP (isKept userId s.clock sessionIds)
          ≤ s.sessions.rows.countP (isKept userId s.clock sessionIds) := by
      intro userId sessionIds hne
      refine countP_rotate_le hrotate ?_
      intro other hother hid _ _
      obtain ⟨hmem, hid'⟩ := find?_eq_some_iff.mp hrow
      rw [eq_of_key_eq hother hmem (hid.trans hid'.symm)]
      exact .inr hne
    refine ⟨?_, h.begun, ?_, h.alone, h.chosen⟩
    · intro userId
      by_cases huser : row.userId = userId
      · rw [← huser]
        exact Nat.le_trans (hone row.userId []) hnow
      · exact Nat.le_trans (hothers userId [] huser) (h.within userId)
    · intro c hc
      have hkept := h.kept c hc
      have hlt := hpending c hc
      unfold keptAfter at hkept hlt ⊢
      cases horder : c.order with
      | none => exact Nat.zero_le _
      | some order =>
        rw [horder] at hkept hlt
        simp only [countP_append] at hkept hlt ⊢
        by_cases huser : row.userId = c.row.userId
        · have hmore := hone c.row.userId (sessionIdsToRevoke order maxActiveSessionsPerUser)
          have hless := hlt huser.symm
          omega
        · have hsame := hothers c.row.userId (sessionIdsToRevoke order maxActiveSessionsPerUser) huser
          omega
  · refine h.withSessions fun userId sessionIds => countP_rotate_le hrotate ?_
    intro row hrow hid hunrevoked hfuture
    refine .inl (Int.not_le.mp fun hexpired => hrevives ?_)
    exact ⟨row, find?_eq_some_iff.mpr ⟨hrow, hid⟩, hunrevoked, hexpired, hfuture⟩

end

theorem mem_select {c' : Creation} {order : List UserSession}
    (hc : s.creations.find? c.row.sessionId = some c)
    (hc' : c' ∈ (s.creations.modify c.row.sessionId (fun c => { c with order := some order }) fun _ => rfl).rows) :
    (c' ∈ s.creations.rows ∧ c'.row.sessionId ≠ c.row.sessionId) ∨
      c' = { c with order := some order } := by
  obtain ⟨x, hx, rfl⟩ := mem_modify.mp hc'
  by_cases hid : x.row.sessionId = c.row.sessionId
  · rw [if_pos hid]
    rw [eq_of_key_eq hx (mem_of_find? hc) hid]
    exact .inr rfl
  · rw [if_neg hid]
    exact .inl ⟨hx, hid⟩

theorem select (h : LimitInv maxActiveSessionsPerUser s)
    (hc : s.creations.find? c.row.sessionId = some c) {order : List UserSession}
    (hlate : c.row ∈ order → (readAfter order c.row).length < maxActiveSessionsPerUser)
    (hstep : s.select c order = some s') : LimitInv maxActiveSessionsPerUser s' := by
  unfold LimitSystem.select at hstep
  split at hstep
  · next hlock =>
    split at hstep
    · next sessions hinsert =>
      split at hstep
      · next horder =>
        cases hstep
        have hrows := (insertSession?_spec hinsert).1
        have hmem := mem_of_find? hc
        have hfree : ∀ c' ∈ s.creations.rows, c'.row.userId = c.row.userId →
            ¬ c'.order.isSome := fun c' hc' huser hsome => hlock.2 ⟨c', hc', huser, hsome⟩
        refine ⟨h.within, ?_, ?_, ?_, ?_⟩
        · intro c' hc'
          rcases mem_select hc hc' with ⟨hc', -⟩ | rfl
          · exact h.begun c' hc'
          · exact h.begun c hmem
        · intro c' hc'
          rcases mem_select hc hc' with ⟨hc', -⟩ | rfl
          · exact h.kept c' hc'
          · show (s.sessions.rows ++ [c.row]).countP _ ≤ _
            rw [← hrows]
            exact countP_isKept_le horder (h.begun c hmem).1
        · intro c₁ hc₁ c₂ hc₂ huser hsome₁ hsome₂
          rcases mem_select hc hc₁ with ⟨hc₁, -⟩ | rfl
          · rcases mem_select hc hc₂ with ⟨hc₂, -⟩ | rfl
            · exact h.alone c₁ hc₁ c₂ hc₂ huser hsome₁ hsome₂
            · exact absurd hsome₁ (hfree c₁ hc₁ huser)
          · rcases mem_select hc hc₂ with ⟨hc₂, -⟩ | rfl
            · exact absurd hsome₂ (hfree c₂ hc₂ huser.symm)
            · rfl
        · intro c' hc' read hread
          rcases mem_select hc hc' with ⟨hc', -⟩ | rfl
          · exact h.chosen c' hc' read hread
          · cases hread
            refine not_mem_sessionIdsToRevoke horder ?_ hlate
            rw [hrows]
            exact List.mem_append_right _ (List.mem_singleton_self _)
      · cases hstep
    · cases hstep
  · cases hstep

theorem isKept_of_evict {userId : String} {ids : List String} {nowIso : Int}
    (h : isKept userId now sessionIds (if row.sessionId ∈ ids then row.revoke nowIso else row) = true) :
    isKept userId now sessionIds row = true ∧ row.sessionId ∉ ids := by
  split at h
  · simp [isKept, isActive, revoke] at h
  · next hid => exact ⟨h, hid⟩

section

variable (h : LimitInv maxActiveSessionsPerUser s)
include h

theorem commit (hc : s.creations.find? c.row.sessionId = some c)
    (hstep : s.commit maxActiveSessionsPerUser c = some s') :
    LimitInv maxActiveSessionsPerUser s' := by
  unfold LimitSystem.commit at hstep
  split at hstep
  · next order sessions horder hinsert =>
    cases hstep
    have hrows := (insertSession?_spec hinsert).1
    have hmem := mem_of_find? hc
    have hkept := h.kept c hmem
    simp only [keptAfter, horder] at hkept
    have hcount : ∀ userId sessionIds, (evict sessions (sessionIdsToRevoke order
          maxActiveSessionsPerUser) c.nowIso).rows.countP (isKept userId s.clock sessionIds)
        ≤ (s.sessions.rows ++ [c.row]).countP fun row => isKept userId s.clock sessionIds row &&
            decide (row.sessionId ∉ sessionIdsToRevoke order maxActiveSessionsPerUser) := by
      intro userId sessionIds
      rw [← hrows]
      show (sessions.rows.map _).countP _ ≤ _
      rw [countP_map]
      refine countP_mono_left fun row _ hk => ?_
      obtain ⟨hkeep, hid⟩ := isKept_of_evict hk
      rw [hkeep, Bool.true_and]
      exact decide_eq_true hid
    -- nobody else has more sessions than before
    have hothers : ∀ userId sessionIds, c.row.userId ≠ userId →
        (evict sessions (sessionIdsToRevoke order maxActiveSessionsPerUser) c.nowIso).rows.countP
            (isKept userId s.clock sessionIds)
          ≤ s.sessions.rows.countP (isKept userId s.clock sessionIds) := by
      intro userId sessionIds hne
      refine Nat.le_trans (hcount userId sessionIds) ?_
      rw [countP_append]
      have hown : [c.row].countP (fun row => isKept userId s.clock sessionIds row &&
          decide (row.sessionId ∉ sessionIdsToRevoke order maxActiveSessionsPerUser)) = 0 := by
        refine List.countP_eq_zero.mpr fun row hrow => ?_
        rw [List.mem_singleton.mp hrow]
        simp [isKept, hne]
      rw [hown, Nat.add_zero]
      exact countP_mono_left fun row _ hk => (Bool.and_eq_true_iff.mp hk).1
    refine ⟨?_, ?_, ?_, ?_, ?_⟩
    · intro userId
      by_cases huser : c.row.userId = userId
      · rw [← huser]
        refine Nat.le_trans (hcount c.row.userId []) (Nat.le_trans ?_ hkept)
        refine countP_mono_left fun row _ hk => ?_
        simp only [isKept, Bool.and_eq_true] at hk ⊢
        exact ⟨hk.1.1, hk.2⟩
      · exact Nat.le_trans (hothers userId [] huser) (h.within userId)
    · intro c' hc'
      exact h.begun c' (mem_erase.mp hc').1
    · intro c' hc'
      obtain ⟨hmem', hne⟩ := mem_erase.mp hc'
      have hkept' := h.kept c' hmem'
      unfold keptAfter at hkept' ⊢
      cases horder' : c'.order with
      | none => exact Nat.zero_le _
      | some order' =>
        rw [horder'] at hkept'
        simp only [countP_append] at hkept' ⊢
        have huser : c.row.userId ≠ c'.row.userId := by
          intro huser
          have hsame := h.alone c hmem c' hmem' huser (by rw [horder]; rfl) (by rw [horder']; rfl)
          exact hne (congrArg (·.row.sessionId) hsame).symm
        have hle := hothers c'.row.userId (sessionIdsToRevoke order' maxActiveSessionsPerUser) huser
        omega
    · intro c₁ hc₁ c₂ hc₂
      exact h.alone c₁ (mem_erase.mp hc₁).1 c₂ (mem_erase.mp hc₂).1
    · intro c' hc'
      exact h.chosen c' (mem_erase.mp hc').1
  · cases hstep

theorem begin {userId : String} {startedAt nowIso : Int}
    (hstep : s.begin maxActiveSessionsPerUser userId sessionId data startedAt nowIso = some s') :
    LimitInv maxActiveSessionsPerUser s' := by
  unfold LimitSystem.begin at hstep
  split at hstep
  · cases hstep
    exact h
  · split at hstep
    · next hnow =>
      obtain ⟨creations, hinsert, rfl⟩ := Option.map_eq_some_iff.mp hstep
      refine h.withCreations ?_
      intro c hc
      rw [rows_of_insert? hinsert] at hc
      rcases List.mem_append.mp hc with hc | hc
      · exact .inl hc
      · rw [List.mem_singleton.mp hc]
        exact .inr ⟨rfl, hnow, rfl⟩
    · cases hstep

theorem run {a : LimitAction}
    (hintime : SessionsInTime maxActiveSessionsPerUser s (s.clock, a))
    (hstep : s.run maxActiveSessionsPerUser a = some s') :
    LimitInv maxActiveSessionsPerUser s' := by
  cases a with
  | begin userId sessionId data startedAt nowIso => exact h.begin hstep
  | select sessionId order =>
    obtain ⟨c, hc, hnext⟩ := Option.bind_eq_some_iff.mp hstep
    obtain rfl := key_of_find? hc
    exact h.select hc (hintime c hc) hnext
  | commit sessionId =>
    obtain ⟨c, hc, hnext⟩ := Option.bind_eq_some_iff.mp hstep
    obtain rfl := key_of_find? hc
    exact h.commit hc hnext
  | abort sessionId =>
    cases hstep
    exact h.withCreations fun c hc => .inl (mem_erase.mp hc).1
  | rotate sessionId data lastUsedAt =>
    obtain ⟨sessions, hrotate, rfl⟩ := Option.map_eq_some_iff.mp hstep
    exact h.rotate hintime hrotate
  | revoke revocation nowIso =>
    cases hstep
    exact h.onlyRevokes (revocation.onlyRevokes _ _ _)
  | revokeExcept userId keep nowIso =>
    cases hstep
    exact h.onlyRevokes (onlyRevokes_revokeSessionsExcept _ _ _ _)
  | revokeExpired nowIso =>
    cases hstep
    exact h.onlyRevokes (onlyRevokes_revokeExpiredSessions _ _)

theorem step {a : Int × LimitAction}
    (hintime : SessionsInTime maxActiveSessionsPerUser s a)
    (hstep : s.step maxActiveSessionsPerUser a = some s') :
    LimitInv maxActiveSessionsPerUser s' := by
  unfold LimitSystem.step at hstep
  split at hstep
  · next hclock =>
    exact (h.tick hclock).run (s := { s with clock := a.1 }) hintime hstep
  · cases hstep

end

end LimitInv

/-! ## Every run -/

section Step

variable {maxActiveSessionsPerUser : Nat} {s s' : LimitSystem}

theorem LimitSystem.run_staysRevoked {a : LimitAction}
    (hstep : s.run maxActiveSessionsPerUser a = some s') : StaysRevoked s.sessions s'.sessions := by
  cases a with
  | begin userId sessionId data startedAt nowIso =>
    simp only [run, begin] at hstep
    split at hstep
    · cases hstep
      exact StaysRevoked.refl _
    · split at hstep
      · obtain ⟨creations, -, rfl⟩ := Option.map_eq_some_iff.mp hstep
        exact StaysRevoked.refl _
      · cases hstep
  | select sessionId order =>
    obtain ⟨c, -, hnext⟩ := Option.bind_eq_some_iff.mp hstep
    unfold select at hnext
    split at hnext
    · split at hnext
      · split at hnext
        · cases hnext
          exact StaysRevoked.refl _
        · cases hnext
      · cases hnext
    · cases hnext
  | commit sessionId =>
    obtain ⟨c, -, hnext⟩ := Option.bind_eq_some_iff.mp hstep
    unfold commit at hnext
    split at hnext
    · next order sessions _ hinsert =>
      cases hnext
      exact staysRevoked_insert hinsert (onlyRevokes_evict _ _ _)
    · cases hnext
  | abort sessionId =>
    cases hstep
    exact StaysRevoked.refl _
  | rotate sessionId data lastUsedAt =>
    obtain ⟨sessions, hrotate, rfl⟩ := Option.map_eq_some_iff.mp hstep
    exact staysRevoked_rotate hrotate
  | revoke revocation nowIso =>
    cases hstep
    exact (revocation.onlyRevokes _ _ _).staysRevoked
  | revokeExcept userId keep nowIso =>
    cases hstep
    exact (onlyRevokes_revokeSessionsExcept _ _ _ _).staysRevoked
  | revokeExpired nowIso =>
    cases hstep
    exact (onlyRevokes_revokeExpiredSessions _ _).staysRevoked

theorem LimitInv.created (h : LimitInv maxActiveSessionsPerUser s) (hc : c ∈ s.creations.rows)
    (hfuture : s.clock < c.row.expiresAt) (hstep : s.commit maxActiveSessionsPerUser c = some s') :
    c.row ∈ activeSessions s'.sessions c.row.userId s'.clock := by
  unfold LimitSystem.commit at hstep
  split at hstep
  · next order sessions horder hinsert =>
    cases hstep
    refine mem_activeSessions.mpr ⟨?_, rfl, isActive_iff.mpr ⟨(h.begun c hc).2, hfuture⟩⟩
    have hmem : c.row ∈ sessions.rows := by
      rw [(insertSession?_spec hinsert).1]
      exact List.mem_append_right _ (List.mem_singleton_self _)
    refine List.mem_map.mpr ⟨c.row, hmem, ?_⟩
    rw [if_neg (h.chosen c hc order horder)]
  · cases hstep

theorem LimitInv.keepsSessions (h : LimitInv maxActiveSessionsPerUser s) {a : Int × LimitAction}
    (hintime : SessionsInTime maxActiveSessionsPerUser s a)
    (hstep : s.step maxActiveSessionsPerUser a = some s') : KeepsSessions s a s' := by
  unfold LimitSystem.step at hstep
  split at hstep
  · next hclock =>
    have hrevoked := run_staysRevoked hstep
    refine ⟨hrevoked, ?_⟩
    intro sessionId ha c hc
    unfold SessionsInTime at hintime
    rw [ha] at hstep hintime
    have htick := h.tick hclock
    simp only [LimitSystem.run, hc, Option.bind_some] at hstep
    exact htick.created (mem_of_find? hc) (hintime c hc) hstep
  · cases hstep

end Step

/-- **The session limit holds where sessions are in time.** In every interleaving of creations,
rotations, revocations and cleanups at times that do not decrease: if every new session is among the
most recent ones when they are read and is committed before it expires, and no rotation brings an
expired session back beyond the limit, then nobody ever has more active sessions than the limit, and
each created session is active when its creation commits. What is revoked stays revoked. -/
theorem session_limit_holds (maxActiveSessionsPerUser : Nat) (as : List (Int × LimitAction))
    (hintime : Along (LimitSystem.step maxActiveSessionsPerUser)
      (SessionsInTime maxActiveSessionsPerUser) LimitSystem.start as) :
    Always (LimitSystem.step maxActiveSessionsPerUser) (WithinLimit maxActiveSessionsPerUser)
        LimitSystem.start as ∧
      EachStep (LimitSystem.step maxActiveSessionsPerUser) KeepsSessions LimitSystem.start as := by
  have hinv : ∀ pre s, pre <+: as → exec (LimitSystem.step maxActiveSessionsPerUser)
      LimitSystem.start pre = some s → LimitInv maxActiveSessionsPerUser s :=
    fun pre s hpre hs => (hintime.of_prefix hpre).invariant
      (fun _ _ _ h hc hstep => h.step hc hstep) hs (LimitInv.start _)
  refine ⟨fun pre s hpre hs => (hinv pre s hpre hs).withinLimit, ?_⟩
  intro pre a s s' hpre hs hstep
  have hprefix : pre <+: as := (List.prefix_append pre [a]).trans hpre
  exact (hinv pre s hprefix hs).keepsSessions (along_iff.mp hintime pre a hpre s hs) hstep

def adasData (jti : String) (expiresAt : Int) : SessionData :=
  ⟨jti, .sha256 ⟨"ada", jti, 0, 1000⟩, none, none, none, "desktop", expiresAt⟩

/-- With room for one session, the second takes the place of the first, and is rotated. -/
theorem session_limit_holds_one :
    let first := newSession "ada" "s1" (adasData "j1" 900) 0
    let second := newSession "ada" "s2" (adasData "j2" 900) 10
    let as : List (Int × LimitAction) :=
      [(0, .begin "ada" "s1" (adasData "j1" 900) 0 0), (1, .select "s1" [first]),
        (2, .commit "s1"), (10, .begin "ada" "s2" (adasData "j2" 900) 10 10),
        (11, .select "s2" [first, second]), (12, .commit "s2"),
        (13, .rotate "s2" (adasData "j3" 950) 13)]
    Always (LimitSystem.step 1) (WithinLimit 1) LimitSystem.start as ∧
      EachStep (LimitSystem.step 1) KeepsSessions LimitSystem.start as :=
  session_limit_holds 1 _ (by decide +kernel)

/-- Room for one session, twice. A creation whose transaction started first gets the lock last: its
session is the older one, and is not active when it commits. And a session that has expired is
rotated after another one has come in: there are two. -/
theorem session_limit_broken :
    let first := newSession "ada" "s1" (adasData "j1" 900) 0
    let second := newSession "ada" "s2" (adasData "j2" 900) 10
    ¬ EachStep (LimitSystem.step 1) KeepsSessions LimitSystem.start
        [(0, .begin "ada" "s1" (adasData "j1" 900) 0 0),
          (10, .begin "ada" "s2" (adasData "j2" 900) 10 10), (11, .select "s2" [second]),
          (12, .commit "s2"), (13, .select "s1" [first, second]), (14, .commit "s1")] ∧
      ¬ Always (LimitSystem.step 1) (WithinLimit 1) LimitSystem.start
        [(0, .begin "ada" "s1" (adasData "j1" 5) 0 0),
          (1, .select "s1" [newSession "ada" "s1" (adasData "j1" 5) 0]), (2, .commit "s1"),
          (10, .begin "ada" "s2" (adasData "j2" 900) 10 10), (11, .select "s2" [second]),
          (12, .commit "s2"), (13, .rotate "s1" (adasData "j3" 950) 4)] := by
  intro first second
  constructor
  · intro h
    obtain ⟨m, t, hok, hfound, hactive⟩ := h.read
      [(0, .begin "ada" "s1" (adasData "j1" 900) 0 0),
        (10, .begin "ada" "s2" (adasData "j2" 900) 10 10), (11, .select "s2" [second]),
        (12, .commit "s2"), (13, .select "s1" [first, second])] _ (List.prefix_refl _)
      (fun m => m.creations.find? "s1") (some ⟨first, 0, some [first, second]⟩)
      (fun t => activeSessions t.sessions "ada" t.clock) [second]
      (by decide +kernel) (by decide +kernel)
    have hmem : first ∈ activeSessions t.sessions "ada" t.clock := hok.created "s1" rfl _ hfound
    rw [hactive] at hmem
    exact absurd hmem (by decide)
  · intro h
    obtain ⟨t, hwithin, htwo⟩ := h.read (fun t => (activeSessions t.sessions "ada" t.clock).length) 2
      (by decide +kernel)
    have hone := hwithin "ada"
    rw [htwo] at hone
    exact absurd hone (by decide)

end QuizBackend.Auth
