import QuizBackend.Lib.UniqueTable
import QuizBackend.Lib.Calendar
import QuizBackend.Outbox.Events

/-!
# The badge ledger

`user_badges` has a row for every badge a user was given. Revoking sets `revoked_at`, so that rows
that were revoked stay, and a partial unique index allows each user one row of a badge that is not.

Three transactions write the table: `awardBadge` inserts a row, `revokeBadge` takes out the one that
counts, `restoreBadge` puts the revoked ones back. Each of them announces what it did in
`outbox_events`, with `ON CONFLICT DO NOTHING` on the idempotency key of the event. The three
payloads are written by hand where they are inserted; `AchievementWrite` has them side by side.
-/

namespace QuizBackend.Achievement

open Lib Outbox

/-! ## Tables -/

structure Badge where
  badgeId : String
  slug : String
  type : String
  category : String
  name : String
  isActive : Bool
  isHidden : Bool
  version : String
  validFrom : Option Int
  validUntil : Option Int
  deriving DecidableEq

structure UserBadge where
  userBadgeId : String
  userId : String
  badgeId : String
  earnedAt : Int
  badgeVersion : String
  progress : JsonValue
  metadata : JsonValue
  expiresAt : Option Int
  revokedAt : Option Int
  revocationReason : Option String
  deriving DecidableEq

/-- The entry of a row in `uq_user_badges_user_badge_active`. -/
def UserBadge.activeEntry (row : UserBadge) : Option (String × String) :=
  if row.revokedAt.isNone then some (row.userId, row.badgeId) else none

open UserBadge

abbrev UserBadges :=
  UniqueTable String (String × String) UserBadge (·.userBadgeId) activeEntry

structure AchievementDb where
  users : List String
  badges : Table String Badge (·.badgeId)
  userBadges : UserBadges
  outbox : OutboxEvents

structure Drawn where
  userBadgeId : String
  eventId : String
  now : Int

inductive DbError where
  | uniqueViolation
  | foreignKeyViolation

def DbError.message : DbError → String
  | .uniqueViolation =>
    "duplicate key value violates unique constraint \"uq_user_badges_user_badge_active\""
  | .foreignKeyViolation =>
    "insert or update on table \"user_badges\" violates foreign key constraint"

def UserBadge.isOf (userId badgeId : String) (row : UserBadge) : Bool :=
  row.userId == userId && row.badgeId == badgeId

def hasBadge (db : AchievementDb) (userId badgeId : String) : Bool :=
  (db.userBadges.rows.countP fun row => row.isOf userId badgeId && row.revokedAt.isNone) > 0

/-! ## Events -/

inductive AchievementWrite where
  | awarded (userId badgeId : String) (metadata : Option JsonValue)
  | revoked (userId badgeId badgeSlug reason : String)
  | restored (userId badgeId badgeSlug restoredBy : String)

namespace AchievementWrite

def eventType : AchievementWrite → String
  | .awarded .. => "achievement.awarded"
  | .revoked .. => "badge.revoked"
  | .restored .. => "badge.restored"

def userId : AchievementWrite → String
  | .awarded userId .. | .revoked userId .. | .restored userId .. => userId

/-- The object literal of the insert; `JSON.stringify` leaves out a member that is undefined. -/
def payload (nowIso : Int) : AchievementWrite → List (String × JsonValue)
  | .awarded userId badgeId metadata =>
    [("userId", .str userId), ("badgeId", .str badgeId)] ++
      (metadata.map fun m => ("metadata", m)).toList
  | .revoked userId badgeId badgeSlug reason =>
    [("userId", .str userId), ("badgeId", .str badgeId), ("badgeSlug", .str badgeSlug),
      ("revokedAt", .str (toISOString nowIso)), ("reason", .str reason)]
  | .restored userId badgeId badgeSlug restoredBy =>
    [("userId", .str userId), ("badgeId", .str badgeId), ("badgeSlug", .str badgeSlug),
      ("restoredAt", .str (toISOString nowIso)), ("restoredBy", .str restoredBy)]

def idempotencyKey (nowIso : Int) : AchievementWrite → String
  | .awarded userId badgeId _ => s!"achievement:awarded:{userId}:{badgeId}"
  | .revoked userId badgeId .. => s!"achievement:revoked:{userId}:{badgeId}:{toISOString nowIso}"
  | .restored userId badgeId .. => s!"achievement:restored:{userId}:{badgeId}:{toISOString nowIso}"

def newEvent (drawn : Drawn) (nowIso : Int) (w : AchievementWrite) : NewEvent :=
  { eventId := drawn.eventId, aggregateType := "Achievement", eventType := w.eventType,
    payload := w.payload nowIso, createdAt := nowIso, nextAttemptAt := drawn.now,
    idempotencyKey := some (w.idempotencyKey nowIso), correlationId := none }

end AchievementWrite

/-! ## The three transactions -/

structure AwardParams where
  userId : String
  badgeId : String
  badgeVersion : Option String
  earnedAt : Option Int
  progress : Option JsonValue
  metadata : Option JsonValue
  expiresAt : Option Int

def AwardParams.row (p : AwardParams) (drawn : Drawn) (nowIso : Int) : UserBadge :=
  { userBadgeId := drawn.userBadgeId, userId := p.userId, badgeId := p.badgeId,
    earnedAt := p.earnedAt.getD nowIso, badgeVersion := p.badgeVersion.getD "1.0.0",
    progress := p.progress.getD (.raw "\x7b\x7d"), metadata := p.metadata.getD (.raw "\x7b\x7d"),
    expiresAt := p.expiresAt, revokedAt := none, revocationReason := none }

/-- `UserAchievementRepository.awardBadge`. A unique violation is caught inside the transaction, which
the database rolls back all the same; no row is the answer then. -/
def awardBadge (db : AchievementDb) (drawn : Drawn) (nowIso : Int) (p : AwardParams) :
    Except DbError (Option UserBadge × AchievementDb) :=
  match db.userBadges.insert? (p.row drawn nowIso) with
  | none => .ok (none, db)
  | some userBadges =>
    if (db.badges.find? p.badgeId).isSome ∧ p.userId ∈ db.users then
      .ok (some (p.row drawn nowIso), { db with
        userBadges
        outbox := insertEvent db.outbox
          ((AchievementWrite.awarded p.userId p.badgeId p.metadata).newEvent drawn nowIso) })
    else .error .foreignKeyViolation

structure RevokedBadgeRecord where
  userBadgeId : String
  userId : String
  badgeId : String
  badgeSlug : String
  badgeName : String
  revokedAt : Int
  revocationReason : String

def AchievementDb.badgeSlug (db : AchievementDb) (badgeId : String) : String :=
  ((db.badges.find? badgeId).map (·.slug)).getD ""

def AchievementDb.badgeName (db : AchievementDb) (badgeId : String) : String :=
  ((db.badges.find? badgeId).map (·.name)).getD ""

/-- `SET revoked_at, revocation_reason WHERE … revoked_at IS NULL`. -/
def UserBadge.revoke (userId badgeId reason : String) (nowIso : Int) (row : UserBadge) :
    UserBadge :=
  if row.isOf userId badgeId ∧ row.revokedAt.isNone then
    { row with revokedAt := some nowIso, revocationReason := some reason }
  else row

/-- `SET revoked_at = NULL, revocation_reason = NULL WHERE … revoked_at IS NOT NULL`. -/
def UserBadge.restore (userId badgeId : String) (row : UserBadge) : UserBadge :=
  if row.isOf userId badgeId ∧ row.revokedAt.isSome then
    { row with revokedAt := none, revocationReason := none }
  else row

def revokeBadge (db : AchievementDb) (drawn : Drawn) (nowIso : Int)
    (userId badgeId reason : String) :
    Except DbError (Option RevokedBadgeRecord × AchievementDb) :=
  match db.userBadges.update? (revoke userId badgeId reason nowIso) with
  | none => .error .uniqueViolation
  | some userBadges =>
    -- `returning()` has the rows the `WHERE` has matched
    match db.userBadges.rows.find? fun row => row.isOf userId badgeId && row.revokedAt.isNone with
    | none => .ok (none, db)
    | some revokedRow =>
      .ok (some ⟨revokedRow.userBadgeId, userId, badgeId, db.badgeSlug badgeId,
          db.badgeName badgeId, nowIso, reason⟩,
        { db with
          userBadges
          outbox := insertEvent db.outbox ((AchievementWrite.revoked userId badgeId
            (db.badgeSlug badgeId) reason).newEvent drawn nowIso) })

/-- `UserAchievementRepository.restoreBadge`. Its `UPDATE` takes every revoked row of the pair. The
answer has no time any more: the row it is read from has just been restored. -/
def restoreBadge (db : AchievementDb) (drawn : Drawn) (nowIso : Int)
    (userId badgeId restoredBy : String) :
    Except DbError (Option RevokedBadgeRecord × AchievementDb) :=
  match db.userBadges.update? (restore userId badgeId) with
  | none => .error .uniqueViolation
  | some userBadges =>
    match db.userBadges.rows.find? fun row => row.isOf userId badgeId && row.revokedAt.isSome with
    | none => .ok (none, db)
    | some restoredRow =>
      .ok (some ⟨restoredRow.userBadgeId, userId, badgeId, db.badgeSlug badgeId,
          db.badgeName badgeId, 0, ""⟩,
        { db with
          userBadges
          outbox := insertEvent db.outbox ((AchievementWrite.restored userId badgeId
            (db.badgeSlug badgeId) restoredBy).newEvent drawn nowIso) })

/-! ## What they do to the rows -/

section Lemmas

variable {db : AchievementDb} {userId badgeId : String}

theorem UserBadge.isOf_iff {row : UserBadge} :
    row.isOf userId badgeId = true ↔ row.userId = userId ∧ row.badgeId = badgeId := by
  simp [isOf]

theorem UserBadge.activeEntry_eq_some_iff {row : UserBadge} :
    row.activeEntry = some (userId, badgeId) ↔
      row.isOf userId badgeId = true ∧ row.revokedAt = none := by
  unfold activeEntry
  rw [isOf_iff, ← Option.isNone_iff_eq_none]
  split
  · next h => simp [h]
  · next h => simp [h]

theorem hasBadge_iff :
    hasBadge db userId badgeId = true ↔
      ∃ row ∈ db.userBadges.rows, row.isOf userId badgeId = true ∧ row.revokedAt = none := by
  simp [hasBadge, List.countP_pos_iff]

@[simp] theorem UserBadge.userBadgeId_revoke (reason : String) (nowIso : Int) (row : UserBadge) :
    (row.revoke userId badgeId reason nowIso).userBadgeId = row.userBadgeId := by
  unfold revoke
  split <;> rfl

@[simp] theorem UserBadge.userBadgeId_restore (row : UserBadge) :
    (row.restore userId badgeId).userBadgeId = row.userBadgeId := by
  unfold restore
  split <;> rfl

@[simp] theorem UserBadge.isOf_restore (row : UserBadge) (u b : String) :
    (row.restore userId badgeId).isOf u b = row.isOf u b := by
  unfold restore
  split <;> rfl

@[simp] theorem UserBadge.isOf_revoke (reason : String) (nowIso : Int) (row : UserBadge)
    (u b : String) : (row.revoke userId badgeId reason nowIso).isOf u b = row.isOf u b := by
  unfold revoke
  split <;> rfl

theorem update?_revoke (db : AchievementDb) (userId badgeId reason : String) (nowIso : Int) :
    ∃ t, db.userBadges.update? (revoke userId badgeId reason nowIso) = some t := by
  refine UniqueTable.update?_isSome (userBadgeId_revoke reason nowIso) ?_
  intro row entry hentry
  unfold revoke at hentry
  split at hentry
  · cases hentry
  · exact hentry

end Lemmas

end QuizBackend.Achievement
