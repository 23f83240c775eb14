import QuizBackend.Achievement.Badges
import QuizBackend.Lib.Run
import QuizBackend.Lib.Text
import QuizBackend.Outbox.Isolation

/-!
# Awards, revocations and restorations

Three requests change who holds a badge: one awards it, one revokes it, and `reverseRevocation` gives
it back. Each looks with `hasBadge` whether the user holds the badge, and then writes in a
transaction of its own; what it has seen may be over by then. The processors of the outbox run
beside them.

A badge should be held once, an undone revocation should bring back the row that was revoked last,
and every change should be announced once. The first is the partial unique index. The other two
break on what stays in the tables.

* A badge that was revoked, awarded again and revoked again has two revoked rows. `restoreBadge`
  takes them both, which the index refuses, so that the badge cannot be given back any more.
* The key of an award has only the user and the badge in it. As long as the event of an award has not
  been processed, a second award of the badge, after a revocation, is not announced. The keys of the
  others have the time in them, but two changes may fall into one millisecond.

Where no badge is revoked a second time while a revoked row is there, and no event with the key of a
change waits to be processed, all of it holds, and nowhere else (`badge_ledger_iff`).
-/

namespace QuizBackend.Achievement

open Lib Outbox UserBadge UniqueTable

/-! ## The services -/

structure RevocationRequest where
  userId : String
  badgeId : String
  reason : String
  revokedBy : String

def minReasonLength : Nat := 10

def defaultRevokedBy : String := "unknown"

def validateRequest (request : RevocationRequest) : Option String :=
  let trimmedReason := trim request.reason
  if request.userId = "" then some "userId is required"
  else if request.badgeId = "" then some "badgeId is required"
  else if utf16Length trimmedReason = 0 then some "reason is required"
  else if utf16Length trimmedReason < minReasonLength then
    some s!"reason must be at least {minReasonLength} characters"
  else if request.revokedBy = "" then some "revokedBy is required"
  else none

structure RevocationRecord where
  userBadgeId : String
  userId : String
  badgeId : String
  badgeSlug : String
  revokedAt : Int
  revokedBy : String
  reason : String
  reversedAt : Option Int
  reversedBy : Option String
  reversedReason : Option String

structure RevocationResult where
  success : Bool
  revocation : Option RevocationRecord
  error : Option String

def RevocationResult.failed (error : String) : RevocationResult := ⟨false, none, some error⟩

def finishRevocation (db : AchievementDb) (drawn : Drawn) (nowIso : Int)
    (request : RevocationRequest) : RevocationResult × AchievementDb :=
  match revokeBadge db drawn nowIso request.userId request.badgeId request.reason with
  | .error e => (.failed e.message, db)
  | .ok (none, db) => (.failed "Badge not found or already revoked", db)
  | .ok (some revoked, db) =>
    (⟨true, some ⟨revoked.userBadgeId, revoked.userId, revoked.badgeId, revoked.badgeSlug,
      revoked.revokedAt, request.revokedBy, revoked.revocationReason, none, none, none⟩, none⟩, db)

/-- The rest of `reverseRevocation`, once the badge is not held. -/
def finishReversal (db : AchievementDb) (drawn : Drawn) (nowIso restoredAt : Int)
    (userId badgeId reversedByAdmin reason : String) : RevocationResult × AchievementDb :=
  match restoreBadge db drawn nowIso userId badgeId reversedByAdmin with
  | .error e => (.failed e.message, db)
  | .ok (none, db) => (.failed "No revoked record found", db)
  | .ok (some restored, db) =>
    (⟨true, some ⟨restored.userBadgeId, userId, badgeId, restored.badgeSlug, restored.revokedAt,
      defaultRevokedBy, "Original revocation", some restoredAt, some reversedByAdmin,
      some reason⟩, none⟩, db)

/-- `BadgeRevocationService.reverseRevocation`, when nothing comes between its two statements. -/
def reverseRevocation (db : AchievementDb) (drawn : Drawn) (nowIso restoredAt : Int)
    (userId badgeId reversedByAdmin reason : String) : RevocationResult × AchievementDb :=
  if hasBadge db userId badgeId then (.failed "Badge is not revoked", db)
  else finishReversal db drawn nowIso restoredAt userId badgeId reversedByAdmin reason

/-! ## Requests as steps -/

inductive BadgeRequest where
  | award (params : AwardParams)
  | revoke (request : RevocationRequest)
  | reverse (userId badgeId reversedByAdmin reason : String)

/-- Where a request is: before `hasBadge`, after it, and in its transaction, with the time it has
read. -/
inductive BadgePhase where
  | begun
  | checked
  | started (nowIso : Int)

structure BadgeCall where
  callId : String
  request : BadgeRequest
  phase : BadgePhase

structure LedgerSystem where
  db : AchievementDb
  calls : Table String BadgeCall (·.callId)
  answers : List (String × RevocationResult)
  jobs : List Job
  processedInRun : List String
  sent : List (String × NotificationSent)

open LedgerSystem

inductive LedgerAction where
  | begin (callId : String) (request : BadgeRequest)
  | check (callId : String)
  | start (callId : String) (nowIso : Int)
  | commit (callId : String) (drawn : Drawn) (restoredAt : Int)
  | abort (callId : String)
  | outbox (a : Action)

def BadgeRequest.badge : BadgeRequest → String × String
  | .award params => (params.userId, params.badgeId)
  | .revoke request => (request.userId, request.badgeId)
  | .reverse userId badgeId _ _ => (userId, badgeId)

/-- What a request answers when `hasBadge` does not let it go on; an award has nothing to say. -/
def BadgeRequest.refusal (held : Bool) : BadgeRequest → Option (Option RevocationResult)
  | .award _ => if held then some none else none
  | .revoke _ =>
    if held then none else some (some (.failed "Badge not found or already revoked"))
  | .reverse .. => if held then some (some (.failed "Badge is not revoked")) else none

def BadgeRequest.finish (db : AchievementDb) (drawn : Drawn) (nowIso restoredAt : Int) :
    BadgeRequest → Option RevocationResult × AchievementDb
  | .award params =>
    match awardBadge db drawn nowIso params with
    | .error _ => (none, db)
    | .ok (_, db) => (none, db)
  | .revoke request =>
    let (result, db) := finishRevocation db drawn nowIso request
    (some result, db)
  | .reverse userId badgeId reversedByAdmin reason =>
    let (result, db) :=
      finishReversal db drawn nowIso restoredAt userId badgeId reversedByAdmin reason
    (some result, db)

namespace LedgerSystem

def start (users : List String) (badges : Table String Badge (·.badgeId)) (outbox : OutboxEvents) :
    LedgerSystem :=
  ⟨⟨users, badges, .empty _ _, outbox⟩, .empty _, [], [], [], []⟩

section

variable (s : LedgerSystem)

def answer (callId : String) (result : Option RevocationResult) :
    LedgerSystem :=
  { s with
    calls := s.calls.erase callId
    answers := s.answers ++ (result.map fun r => (callId, r)).toList }

def advance (callId : String) (phase : BadgePhase) : LedgerSystem :=
  { s with calls := s.calls.modify callId (fun c => { c with phase }) fun _ => rfl }

/-- `revokeBadge` begins with the validation of its request, which reads nothing. -/
def begin (callId : String) (request : BadgeRequest) : Option LedgerSystem :=
  (s.calls.insert? ⟨callId, request, .begun⟩).map fun calls =>
    match request with
    | .revoke r =>
      match validateRequest r with
      | some error => { s with answers := s.answers ++ [(callId, .failed error)] }
      | none => { s with calls }
    | _ => { s with calls }

def check (c : BadgeCall) : Option LedgerSystem :=
  match c.phase with
  | .begun =>
    match c.request.refusal (hasBadge s.db c.request.badge.1 c.request.badge.2) with
    | some result => some (s.answer c.callId result)
    | none => some (s.advance c.callId .checked)
  | _ => none

def startWrite (c : BadgeCall) (nowIso : Int) : Option LedgerSystem :=
  match c.phase with
  | .checked => some (s.advance c.callId (.started nowIso))
  | _ => none

def commit (c : BadgeCall) (drawn : Drawn) (restoredAt : Int) :
    Option LedgerSystem :=
  match c.phase with
  | .started nowIso =>
    if (s.db.userBadges.find? drawn.userBadgeId).isNone ∧
        (s.db.outbox.find? drawn.eventId).isNone then
      let (result, db) := c.request.finish s.db drawn nowIso restoredAt
      some { s.answer c.callId result with db }
    else none
  | _ => none

end

def outboxStep (config : OutboxConfig) (s : LedgerSystem) (a : Action) : Option LedgerSystem :=
  (System.step config ⟨s.db.outbox, s.jobs, s.processedInRun, s.sent⟩ a).map fun o =>
    { s with
      db := { s.db with outbox := o.events }
      jobs := o.jobs
      processedInRun := o.processedInRun
      sent := o.sent }

def step (config : OutboxConfig) (s : LedgerSystem) : LedgerAction → Option LedgerSystem
  | .begin callId request => s.begin callId request
  | .check callId => (s.calls.find? callId).bind s.check
  | .start callId nowIso => (s.calls.find? callId).bind fun c => s.startWrite c nowIso
  | .commit callId drawn restoredAt =>
    (s.calls.find? callId).bind fun c => s.commit c drawn restoredAt
  | .abort callId => some { s with calls := s.calls.erase callId }
  | .outbox a => s.outboxStep config a

end LedgerSystem

/-! ## What should hold -/

/-- A user holds a badge at most once. -/
def HeldOnce (db : AchievementDb) : Prop :=
  ∀ row ∈ db.userBadges.rows, ∀ row' ∈ db.userBadges.rows, row.userId = row'.userId →
    row.badgeId = row'.badgeId → row.revokedAt = none → row'.revokedAt = none → row = row'

/-- Where a user does not hold a badge that was revoked, `reverseRevocation` gives it back: it brings
back the row that was revoked last and changes no other. -/
def Reversible (db : AchievementDb) : Prop :=
  ∀ userId badgeId, hasBadge db userId badgeId = false →
    (∃ row ∈ db.userBadges.rows, row.isOf userId badgeId = true ∧ row.revokedAt.isSome) →
    ∀ drawn nowIso restoredAt reversedByAdmin reason,
      ∃ last ∈ db.userBadges.rows, last.isOf userId badgeId = true ∧
        (∃ t, last.revokedAt = some t ∧ ∀ other ∈ db.userBadges.rows,
          other.isOf userId badgeId = true → ∀ t', other.revokedAt = some t' → t' ≤ t) ∧
        ∃ result db', reverseRevocation db drawn nowIso restoredAt userId badgeId reversedByAdmin
            reason = (result, db') ∧ result.success = true ∧
          db'.userBadges.rows = db.userBadges.rows.map fun row =>
            if row = last then { row with revokedAt := none, revocationReason := none } else row

structure LedgerOk (s : LedgerSystem) : Prop where
  once : HeldOnce s.db
  reversible : Reversible s.db

/-- Every change of the ledger has its event. -/
def Announced (s : LedgerSystem) (_ : LedgerAction) (s' : LedgerSystem) : Prop :=
  s'.db.userBadges.rows ≠ s.db.userBadges.rows →
    ∃ event, event.aggregateType = "Achievement" ∧
      s'.db.outbox.rows = s.db.outbox.rows ++ [event]

def KeyFree (db : AchievementDb) (nowIso : Int) (w : AchievementWrite) : Prop :=
  keyTaken db.outbox (some (w.idempotencyKey nowIso)) = false

instance (db : AchievementDb) (nowIso : Int) (w : AchievementWrite) :
    Decidable (KeyFree db nowIso w) := inferInstanceAs (Decidable (_ = _))

namespace BadgeRequest

def Changes (db : AchievementDb) : BadgeRequest → Prop
  | .award params => hasBadge db params.userId params.badgeId = false ∧
      (db.badges.find? params.badgeId).isSome ∧ params.userId ∈ db.users
  | .revoke request => hasBadge db request.userId request.badgeId = true
  | .reverse userId badgeId _ _ => hasBadge db userId badgeId = false ∧
      ∃ row ∈ db.userBadges.rows, row.isOf userId badgeId = true

instance (db : AchievementDb) (r : BadgeRequest) : Decidable (r.Changes db) :=
  match r with
  | .award _ => inferInstanceAs (Decidable (_ ∧ _))
  | .revoke _ => inferInstanceAs (Decidable (_ = _))
  | .reverse .. => inferInstanceAs (Decidable (_ ∧ _))

def write (db : AchievementDb) : BadgeRequest → AchievementWrite
  | .award params => .awarded params.userId params.badgeId params.metadata
  | .revoke request =>
    .revoked request.userId request.badgeId (db.badgeSlug request.badgeId) request.reason
  | .reverse userId badgeId reversedByAdmin _ =>
    .restored userId badgeId (db.badgeSlug badgeId) reversedByAdmin

def RevokesOnce (db : AchievementDb) : BadgeRequest → Prop
  | .revoke request => ∀ row ∈ db.userBadges.rows,
    row.isOf request.userId request.badgeId = true → row.revokedAt = none
  | _ => True

instance (db : AchievementDb) (r : BadgeRequest) : Decidable (r.RevokesOnce db) :=
  match r with
  | .revoke request => inferInstanceAs (Decidable (∀ row ∈ db.userBadges.rows,
      row.isOf request.userId request.badgeId = true → row.revokedAt = none))
  | .award _ | .reverse .. => .isTrue trivial

def InOrder (db : AchievementDb) (nowIso : Int) (r : BadgeRequest) : Prop :=
  r.Changes db → KeyFree db nowIso (r.write db) ∧ r.RevokesOnce db

instance (db : AchievementDb) (nowIso : Int) (r : BadgeRequest) :
    Decidable (r.InOrder db nowIso) := inferInstanceAs (Decidable (_ → _ ∧ _))

end BadgeRequest

/-- Where the ledger does hold: when a transaction is about to change it, no event with the key of
the change waits in the outbox, and a badge that is revoked has no revoked row. -/
def ChangesInOrder (s : LedgerSystem) : LedgerAction → Prop
  | .commit callId _ _ => ∀ c, s.calls.find? callId = some c →
    ∀ nowIso, c.phase = .started nowIso → c.request.InOrder s.db nowIso
  | _ => True

instance (phase : BadgePhase) (p : Int → Prop) [∀ t, Decidable (p t)] :
    Decidable (∀ t, phase = .started t → p t) :=
  match phase with
  | .begun | .checked => .isTrue fun _ h => nomatch h
  | .started t => decidable_of_iff (p t) ⟨fun h _ he => by cases he; exact h, fun h => h t rfl⟩

instance (s : LedgerSystem) (a : LedgerAction) : Decidable (ChangesInOrder s a) :=
  match a with
  | .commit callId _ _ => decidableOfFind (s.calls.find? callId) fun c =>
      ∀ nowIso, c.phase = .started nowIso → c.request.InOrder s.db nowIso
  | .begin .. | .check _ | .start .. | .abort _ | .outbox _ => .isTrue trivial

/-! ## One revoked row -/

variable {row : UserBadge} {r : BadgeRequest}

section Reversal

variable {db : AchievementDb} {userId badgeId : String}

/-- A badge that is not held has one row at most. -/
def RevokedOnce (db : AchievementDb) : Prop :=
  ∀ userId badgeId, hasBadge db userId badgeId = false →
    ∀ row ∈ db.userBadges.rows, ∀ row' ∈ db.userBadges.rows,
      row.isOf userId badgeId = true → row'.isOf userId badgeId = true → row = row'

theorem heldOnce (db : AchievementDb) : HeldOnce db := by
  intro row hrow row' hrow' huser hbadge hactive hactive'
  refine eq_of_index_eq hrow hrow' (i := (row.userId, row.badgeId)) ?_ ?_
  · exact activeEntry_eq_some_iff.mpr ⟨isOf_iff.mpr ⟨rfl, rfl⟩, hactive⟩
  · exact activeEntry_eq_some_iff.mpr
      ⟨isOf_iff.mpr ⟨huser.symm, hbadge.symm⟩, hactive'⟩

theorem revoked_of_not_held (hheld : hasBadge db userId badgeId = false)
    (hrow : row ∈ db.userBadges.rows) (hof : row.isOf userId badgeId = true) :
    row.revokedAt.isSome = true := by
  rw [Option.isSome_iff_ne_none]
  intro hnone
  have hhas := hasBadge_iff.mpr ⟨row, hrow, hof, hnone⟩
  rw [hheld] at hhas
  cases hhas

theorem activeEntry_restore {entry : String × String} :
    (row.restore userId badgeId).activeEntry = some entry ↔
      row.activeEntry = some entry ∨
        row.isOf userId badgeId = true ∧ row.revokedAt.isSome ∧ entry = (userId, badgeId) := by
  obtain ⟨u, b⟩ := entry
  unfold restore
  split
  · next hmatch =>
    obtain ⟨hof, hrevoked⟩ := hmatch
    obtain ⟨rfl, rfl⟩ := isOf_iff.mp hof
    simp only [activeEntry, Option.isNone_none, if_true, Option.some.injEq,
      Option.isNone_iff_eq_none]
    constructor
    · intro h
      exact .inr ⟨hof, hrevoked, h.symm⟩
    · rintro (h | ⟨-, -, h⟩)
      · split at h
        · next hnone => simp [hnone] at hrevoked
        · cases h
      · exact h.symm
  · next hkeep =>
    refine ⟨.inl, ?_⟩
    rintro (h | ⟨hof, hrevoked, -⟩)
    · exact h
    · exact absurd ⟨hof, hrevoked⟩ hkeep

section

variable (hheld : hasBadge db userId badgeId = false)
include hheld

/-- **When a badge that is not held can be restored**: it has no two revoked rows. -/
theorem update?_restore_iff :
    (∃ t, db.userBadges.update? (restore userId badgeId) = some t) ↔
      ∀ row ∈ db.userBadges.rows, ∀ row' ∈ db.userBadges.rows,
        row.isOf userId badgeId = true → row'.isOf userId badgeId = true → row = row' := by
  rw [update?_isSome_iff userBadgeId_restore]
  constructor
  · intro h row hrow row' hrow' hof hof'
    refine h row hrow row' hrow' (userId, badgeId) ?_ ?_
    · exact activeEntry_restore.mpr (.inr ⟨hof, revoked_of_not_held hheld hrow hof, rfl⟩)
    · exact activeEntry_restore.mpr (.inr ⟨hof', revoked_of_not_held hheld hrow' hof', rfl⟩)
  · intro h row hrow row' hrow' entry hentry hentry'
    -- nothing of this badge is in the index, so an entry is there from before or restored
    have hnone : ∀ x ∈ db.userBadges.rows, x.activeEntry ≠ some (userId, badgeId) := by
      intro x hx hactive
      obtain ⟨hof, hactive⟩ := activeEntry_eq_some_iff.mp hactive
      have hrevoked := revoked_of_not_held hheld hx hof
      rw [hactive] at hrevoked
      cases hrevoked
    rcases activeEntry_restore.mp hentry with hbefore | ⟨hof, -, rfl⟩
    · rcases activeEntry_restore.mp hentry' with hbefore' | ⟨-, -, rfl⟩
      · exact eq_of_index_eq hrow hrow' hbefore hbefore'
      · exact absurd hbefore (hnone row hrow)
    · rcases activeEntry_restore.mp hentry' with hbefore' | ⟨hof', -, -⟩
      · exact absurd hbefore' (hnone row' hrow')
      · exact h row hrow row' hrow' hof hof'

/-- What becomes of the rows of a badge that is not held: the ones of this badge are all revoked. -/
theorem find?_revoked_isSome
    (hrow : row ∈ db.userBadges.rows) (hof : row.isOf userId badgeId = true) :
    ∃ found, (db.userBadges.rows.find? fun row =>
      row.isOf userId badgeId && row.revokedAt.isSome) = some found := by
  refine Option.isSome_iff_exists.mp (List.find?_isSome.mpr ⟨row, hrow, ?_⟩)
  rw [hof, revoked_of_not_held hheld hrow hof]
  rfl

theorem restoreBadge_ok (hrow : row ∈ db.userBadges.rows) (hof : row.isOf userId badgeId = true)
    (hone : ∀ row ∈ db.userBadges.rows, ∀ row' ∈ db.userBadges.rows,
      row.isOf userId badgeId = true → row'.isOf userId badgeId = true → row = row')
    (drawn : Drawn) (nowIso : Int) (restoredBy : String) :
    ∃ t record, t.rows = db.userBadges.rows.map (restore userId badgeId) ∧
      restoreBadge db drawn nowIso userId badgeId restoredBy = .ok (some record,
        { db with
          userBadges := t
          outbox := insertEvent db.outbox ((AchievementWrite.restored userId badgeId
            (db.badgeSlug badgeId) restoredBy).newEvent drawn nowIso) }) := by
  obtain ⟨t, ht⟩ := (update?_restore_iff hheld).mpr hone
  obtain ⟨found, hfound⟩ := find?_revoked_isSome hheld hrow hof
  refine ⟨t, ⟨found.userBadgeId, userId, badgeId, db.badgeSlug badgeId, db.badgeName badgeId, 0, ""⟩,
    rows_of_update? ht, ?_⟩
  unfold restoreBadge
  rw [ht, hfound]

end

theorem restoreBadge_fails (hone : ¬ ∀ row ∈ db.userBadges.rows, ∀ row' ∈ db.userBadges.rows,
      row.isOf userId badgeId = true → row'.isOf userId badgeId = true → row = row')
    (hheld : hasBadge db userId badgeId = false) (drawn : Drawn) (nowIso : Int)
    (restoredBy : String) :
    restoreBadge db drawn nowIso userId badgeId restoredBy = .error .uniqueViolation := by
  unfold restoreBadge
  cases h : db.userBadges.update? (restore userId badgeId) with
  | none => rfl
  | some t => exact absurd ((update?_restore_iff hheld).mp ⟨t, h⟩) hone

/-- **A revocation can be undone exactly where the badge was revoked once.** -/
theorem reversible_iff (db : AchievementDb) : Reversible db ↔ RevokedOnce db := by
  constructor
  · intro h userId badgeId hheld row hrow row' hrow' hof hof'
    by_contra hne
    have hrevoked := revoked_of_not_held hheld hrow hof
    obtain ⟨last, -, -, -, result, db', hreverse, hsuccess, -⟩ :=
      h userId badgeId hheld ⟨row, hrow, hof, hrevoked⟩ ⟨"", "", 0⟩ 0 0 "" ""
    have hfails := restoreBadge_fails (fun hone => hne (hone row hrow row' hrow' hof hof')) hheld
      ⟨"", "", 0⟩ 0 ""
    unfold reverseRevocation finishReversal at hreverse
    rw [if_neg (by rw [hheld]; decide), hfails] at hreverse
    obtain ⟨rfl, -⟩ := Prod.mk.inj hreverse
    cases hsuccess
  · rintro h userId badgeId hheld ⟨row, hrow, hof, hrevoked⟩ drawn nowIso restoredAt admin reason
    obtain ⟨t, ht⟩ := Option.isSome_iff_exists.mp hrevoked
    have hone := h userId badgeId hheld
    refine ⟨row, hrow, hof, ⟨t, ht, ?_⟩, ?_⟩
    · intro other hother hof' t' ht'
      rw [hone other hother row hrow hof' hof, ht, Option.some.injEq] at ht'
      exact Int.le_of_eq ht'.symm
    · obtain ⟨userBadges, record, hrows, hrestore⟩ :=
        restoreBadge_ok hheld hrow hof hone drawn nowIso admin
      unfold reverseRevocation finishReversal
      rw [if_neg (by rw [hheld]; decide), hrestore]
      refine ⟨_, _, rfl, rfl, ?_⟩
      show userBadges.rows = _
      rw [hrows]
      refine List.map_congr_left ?_
      intro other hother
      unfold restore
      by_cases hsame : other = row
      · rw [if_pos hsame, if_pos (hsame ▸ ⟨hof, hrevoked⟩)]
      · rw [if_neg hsame, if_neg fun hmatch => hsame (hone other hother row hrow hmatch.1 hof)]

end Reversal

/-! ## The transactions -/

section Transactions

variable {db : AchievementDb} {drawn : Drawn} {nowIso : Int}

theorem isOf_unique {u b u' b' : String} (h : row.isOf u b = true) (h' : row.isOf u' b' = true) :
    (u, b) = (u', b') := by
  obtain ⟨rfl, rfl⟩ := isOf_iff.mp h
  obtain ⟨rfl, rfl⟩ := isOf_iff.mp h'
  rfl

theorem map_ne_self {f : UserBadge → UserBadge} {l : List UserBadge} (hrow : row ∈ l)
    (hne : f row ≠ row) : l.map f ≠ l := by
  intro h
  have hall : l.map f = l.map id := h.trans (List.map_id l).symm
  exact hne (List.map_inj_left.mp hall row hrow)

theorem insert?_award_iff (nowIso : Int) (hfresh : db.userBadges.find? drawn.userBadgeId = none)
    (p : AwardParams) :
    (∃ t, db.userBadges.insert? (p.row drawn nowIso) = some t) ↔
      hasBadge db p.userId p.badgeId = false := by
  rw [insert?_isSome_iff (find?_eq_none_iff.mp hfresh),
    ← Bool.not_eq_true, hasBadge_iff]
  constructor
  · rintro h ⟨row, hrow, hof, hactive⟩
    exact h row hrow (p.userId, p.badgeId) rfl
      (activeEntry_eq_some_iff.mpr ⟨hof, hactive⟩)
  · intro h row hrow entry hentry hentry'
    obtain rfl : (p.userId, p.badgeId) = entry := Option.some.inj hentry
    obtain ⟨hof, hactive⟩ := activeEntry_eq_some_iff.mp hentry'
    exact h ⟨row, hrow, hof, hactive⟩

theorem restoreBadge_held {userId badgeId : String} (hheld : hasBadge db userId badgeId = true)
    {t : UserBadges}
    (ht : db.userBadges.update? (restore userId badgeId) = some t) :
    (db.userBadges.rows.find? fun row => row.isOf userId badgeId && row.revokedAt.isSome) =
      none := by
  refine List.find?_eq_none.mpr ?_
  intro row hrow hmatch
  obtain ⟨hof, hrevoked⟩ := Bool.and_eq_true_iff.mp hmatch
  obtain ⟨held, hmem, hofHeld, hactive⟩ := hasBadge_iff.mp hheld
  have hsame := (update?_isSome_iff userBadgeId_restore).mp ⟨t, ht⟩ row hrow
    held hmem (userId, badgeId) (activeEntry_restore.mpr (.inr ⟨hof, hrevoked, rfl⟩))
    (activeEntry_restore.mpr
      (.inl (activeEntry_eq_some_iff.mpr ⟨hofHeld, hactive⟩)))
  rw [hsame, hactive] at hrevoked
  cases hrevoked

namespace BadgeRequest

def rowsAfter (drawn : Drawn) (nowIso : Int) (rows : List UserBadge) :
    BadgeRequest → List UserBadge
  | .award params => rows ++ [params.row drawn nowIso]
  | .revoke request =>
    rows.map (UserBadge.revoke request.userId request.badgeId request.reason nowIso)
  | .reverse userId badgeId _ _ => rows.map (restore userId badgeId)

/-- **What a transaction does that changes something**: the rows, and the insert of its event. -/
theorem finish_of_changes (nowIso restoredAt : Int)
    (hfresh : db.userBadges.find? drawn.userBadgeId = none) (honce : RevokedOnce db)
    (h : r.Changes db) :
    ∃ t, t.rows = r.rowsAfter drawn nowIso db.userBadges.rows ∧
      (r.finish db drawn nowIso restoredAt).2 = { db with
        userBadges := t
        outbox := insertEvent db.outbox ((r.write db).newEvent drawn nowIso) } := by
  cases r with
  | award params =>
    obtain ⟨hheld, hbadge, huser⟩ := h
    obtain ⟨t, ht⟩ := (insert?_award_iff nowIso hfresh params).mpr hheld
    refine ⟨t, rows_of_insert? ht, ?_⟩
    simp only [finish, awardBadge, ht, hbadge, huser, and_self, if_true]
    rfl
  | revoke request =>
    obtain ⟨t, ht⟩ := update?_revoke db request.userId request.badgeId request.reason nowIso
    obtain ⟨row, hrow, hof, hactive⟩ := hasBadge_iff.mp h
    obtain ⟨found, hfound⟩ : ∃ found, (db.userBadges.rows.find? fun row =>
        row.isOf request.userId request.badgeId && row.revokedAt.isNone) = some found := by
      refine Option.isSome_iff_exists.mp (List.find?_isSome.mpr ⟨row, hrow, ?_⟩)
      rw [hof, hactive]
      rfl
    refine ⟨t, rows_of_update? ht, ?_⟩
    simp only [finish, finishRevocation, revokeBadge, ht, hfound]
    rfl
  | reverse userId badgeId reversedByAdmin reason =>
    obtain ⟨hheld, row, hrow, hof⟩ := h
    obtain ⟨t, record, hrows, hrestore⟩ := restoreBadge_ok hheld hrow hof (honce userId badgeId hheld)
      drawn nowIso reversedByAdmin
    refine ⟨t, hrows, ?_⟩
    simp only [finish, finishReversal, hrestore]
    rfl

theorem finish_of_not_changes (nowIso restoredAt : Int)
    (hfresh : db.userBadges.find? drawn.userBadgeId = none) (h : ¬ r.Changes db) :
    (r.finish db drawn nowIso restoredAt).2 = db := by
  cases r with
  | award params =>
    cases ht : db.userBadges.insert? (params.row drawn nowIso) with
    | none => simp only [finish, awardBadge, ht]
    | some t =>
      have hheld := (insert?_award_iff nowIso hfresh params).mp ⟨t, ht⟩
      have hrefers : ¬ ((db.badges.find? params.badgeId).isSome ∧ params.userId ∈ db.users) :=
        fun hrefers => h ⟨hheld, hrefers⟩
      simp only [finish, awardBadge, ht, if_neg hrefers]
  | revoke request =>
    obtain ⟨t, ht⟩ := update?_revoke db request.userId request.badgeId request.reason nowIso
    have hnone : (db.userBadges.rows.find? fun row =>
        row.isOf request.userId request.badgeId && row.revokedAt.isNone) = none := by
      refine List.find?_eq_none.mpr ?_
      intro row hrow hmatch
      obtain ⟨hof, hactive⟩ := Bool.and_eq_true_iff.mp hmatch
      exact h (hasBadge_iff.mpr ⟨row, hrow, hof, Option.isNone_iff_eq_none.mp hactive⟩)
    simp only [finish, finishRevocation, revokeBadge, ht, hnone]
  | reverse userId badgeId reversedByAdmin reason =>
    cases ht : db.userBadges.update? (restore userId badgeId) with
    | none => simp only [finish, finishReversal, restoreBadge, ht]
    | some t =>
      have hnone : (db.userBadges.rows.find? fun row =>
          row.isOf userId badgeId && row.revokedAt.isSome) = none := by
        cases hheld : hasBadge db userId badgeId with
        | true => exact restoreBadge_held hheld ht
        | false =>
          refine List.find?_eq_none.mpr ?_
          intro row hrow hmatch
          exact h ⟨hheld, row, hrow, (Bool.and_eq_true_iff.mp hmatch).1⟩
      simp only [finish, finishReversal, restoreBadge, ht, hnone]

end BadgeRequest

theorem RevokedOnce.of_rows {db' : AchievementDb} (h : RevokedOnce db) (userId badgeId : String)
    (hothers : ∀ u b, (u, b) ≠ (userId, badgeId) → ∀ row, row.isOf u b = true →
      (row ∈ db'.userBadges.rows ↔ row ∈ db.userBadges.rows))
    (hself : hasBadge db' userId badgeId = false → ∀ row ∈ db'.userBadges.rows,
      ∀ row' ∈ db'.userBadges.rows, row.isOf userId badgeId = true →
        row'.isOf userId badgeId = true → row = row') : RevokedOnce db' := by
  intro u b hheld row hrow row' hrow' hof hof'
  by_cases hsame : (u, b) = (userId, badgeId)
  · cases hsame
    exact hself hheld row hrow row' hrow' hof hof'
  · refine h u b ?_ row ((hothers u b hsame row hof).mp hrow) row'
      ((hothers u b hsame row' hof').mp hrow') hof hof'
    rw [← Bool.not_eq_true] at hheld ⊢
    refine fun hbefore => hheld ?_
    obtain ⟨x, hx, hofx, hactive⟩ := hasBadge_iff.mp hbefore
    exact hasBadge_iff.mpr ⟨x, (hothers u b hsame x hofx).mpr hx, hofx, hactive⟩

theorem mem_map_iff_of_other {f : UserBadge → UserBadge} {l : List UserBadge}
    {userId badgeId : String} (hof : ∀ row u b, (f row).isOf u b = row.isOf u b)
    (hkeep : ∀ row, row.isOf userId badgeId = false → f row = row) {u b : String}
    (hne : (u, b) ≠ (userId, badgeId)) (hrow : row.isOf u b = true) : row ∈ l.map f ↔ row ∈ l := by
  have hother : ∀ x : UserBadge, x.isOf u b = true → x.isOf userId badgeId = false := by
    intro x hx
    rw [← Bool.not_eq_true]
    exact fun hx' => hne (isOf_unique hx hx')
  rw [List.mem_map]
  constructor
  · rintro ⟨x, hx, rfl⟩
    rw [hof] at hrow
    rw [hkeep x (hother x hrow)]
    exact hx
  · intro hmem
    exact ⟨row, hmem, hkeep row (hother row hrow)⟩

theorem revoke_of_other {userId badgeId reason : String} (h : row.isOf userId badgeId = false) :
    row.revoke userId badgeId reason nowIso = row := by
  unfold revoke
  rw [if_neg]
  rintro ⟨hof, -⟩
  rw [h] at hof
  cases hof

theorem restore_of_other {userId badgeId : String} (h : row.isOf userId badgeId = false) :
    row.restore userId badgeId = row := by
  unfold restore
  rw [if_neg]
  rintro ⟨hof, -⟩
  rw [h] at hof
  cases hof

/-- **What a change leaves to be undone.** An award and a restoration put nothing in the way of a
reversal, a revocation does where the badge had a revoked row. -/
theorem revokedOnce_rowsAfter (honce : RevokedOnce db) (h : r.Changes db) {db' : AchievementDb}
    (hrows : db'.userBadges.rows = r.rowsAfter drawn nowIso db.userBadges.rows) :
    RevokedOnce db' ↔ r.RevokesOnce db := by
  cases r with
  | award params =>
    refine iff_of_true (honce.of_rows params.userId params.badgeId ?_ ?_)
      trivial
    · intro u b hne row hof
      rw [hrows, BadgeRequest.rowsAfter, List.mem_append, List.mem_singleton, or_iff_left]
      rintro rfl
      exact hne (isOf_unique hof (isOf_iff.mpr ⟨rfl, rfl⟩))
    · intro hheld
      have hhas : hasBadge db' params.userId params.badgeId = true := by
        refine hasBadge_iff.mpr ⟨params.row drawn nowIso, ?_, isOf_iff.mpr ⟨rfl, rfl⟩, rfl⟩
        rw [hrows]
        exact List.mem_append_right _ (List.mem_singleton_self _)
      rw [hheld] at hhas
      cases hhas
  | revoke request =>
    rw [BadgeRequest.rowsAfter] at hrows
    constructor
    · intro h' row hrow hof
      by_contra hrevoked
      -- afterwards the badge is not held, and it has this row and the one that was held
      obtain ⟨held, hheld, hofHeld, hactive⟩ := hasBadge_iff.mp h
      have hkeep : row.revoke request.userId request.badgeId request.reason nowIso = row := by
        unfold revoke
        rw [if_neg fun hmatch => hrevoked (Option.isNone_iff_eq_none.mp hmatch.2)]
      have hnotHeld : hasBadge db' request.userId request.badgeId = false := by
        rw [← Bool.not_eq_true, hasBadge_iff, hrows]
        rintro ⟨x, hx, hofx, hactivex⟩
        obtain ⟨y, hy, rfl⟩ := List.mem_map.mp hx
        unfold revoke at hactivex
        rw [isOf_revoke] at hofx
        split at hactivex
        · cases hactivex
        · next hno => exact hno ⟨hofx, Option.isNone_iff_eq_none.mpr hactivex⟩
      have hsame := h' request.userId request.badgeId hnotHeld
        (row.revoke request.userId request.badgeId request.reason nowIso)
        (hrows ▸ List.mem_map_of_mem hrow)
        (held.revoke request.userId request.badgeId request.reason nowIso)
        (hrows ▸ List.mem_map_of_mem hheld) (by rw [isOf_revoke, hof])
        (by rw [isOf_revoke, hofHeld])
      have hid := congrArg userBadgeId hsame
      rw [userBadgeId_revoke, userBadgeId_revoke] at hid
      exact hrevoked (eq_of_key_eq hrow hheld hid ▸ hactive)
    · intro hfirst
      refine honce.of_rows request.userId request.badgeId ?_ ?_
      · intro u b hne row hof
        rw [hrows]
        exact mem_map_iff_of_other (fun row u b => isOf_revoke _ _ row u b)
          (fun row => revoke_of_other) hne hof
      · intro _ row hrow row' hrow' hof hof'
        rw [hrows] at hrow hrow'
        obtain ⟨x, hx, rfl⟩ := List.mem_map.mp hrow
        obtain ⟨y, hy, rfl⟩ := List.mem_map.mp hrow'
        rw [isOf_revoke] at hof hof'
        obtain ⟨huser, hbadge⟩ := isOf_iff.mp hof
        obtain ⟨huser', hbadge'⟩ := isOf_iff.mp hof'
        rw [heldOnce db x hx y hy (huser.trans huser'.symm) (hbadge.trans hbadge'.symm)
          (hfirst x hx hof) (hfirst y hy hof')]
  | reverse userId badgeId reversedByAdmin reason =>
    rw [BadgeRequest.rowsAfter] at hrows
    obtain ⟨hheld, row, hrow, hof⟩ := h
    refine iff_of_true (honce.of_rows userId badgeId ?_ ?_) trivial
    · intro u b hne x hofx
      rw [hrows]
      exact mem_map_iff_of_other isOf_restore (fun row => restore_of_other) hne hofx
    · intro hheld'
      have hrevoked := revoked_of_not_held hheld hrow hof
      have hhas : hasBadge db' userId badgeId = true := by
        refine hasBadge_iff.mpr ⟨row.restore userId badgeId, hrows ▸ List.mem_map_of_mem hrow, ?_, ?_⟩
        · rw [isOf_restore, hof]
        · unfold restore
          rw [if_pos ⟨hof, hrevoked⟩]
      rw [hheld'] at hhas
      cases hhas

theorem rowsAfter_ne (h : r.Changes db) :
    r.rowsAfter drawn nowIso db.userBadges.rows ≠ db.userBadges.rows := by
  cases r with
  | award params =>
    intro heq
    have hlength := congrArg List.length heq
    simp [BadgeRequest.rowsAfter] at hlength
  | revoke request =>
    obtain ⟨row, hrow, hof, hactive⟩ := hasBadge_iff.mp h
    refine map_ne_self hrow ?_
    intro heq
    have hrevoked := congrArg revokedAt heq
    unfold UserBadge.revoke at hrevoked
    rw [if_pos ⟨hof, Option.isNone_iff_eq_none.mpr hactive⟩, hactive] at hrevoked
    cases hrevoked
  | reverse userId badgeId reversedByAdmin reason =>
    obtain ⟨hheld, row, hrow, hof⟩ := h
    have hrevoked := revoked_of_not_held hheld hrow hof
    refine map_ne_self hrow ?_
    intro heq
    have hactive := congrArg revokedAt heq
    unfold restore at hactive
    rw [if_pos ⟨hof, hrevoked⟩] at hactive
    rw [← hactive] at hrevoked
    cases hrevoked

theorem insertEvent_iff {outbox : OutboxEvents} (hfresh : outbox.find? drawn.eventId = none)
    (w : AchievementWrite) :
    (∃ event, event.aggregateType = "Achievement" ∧
        (insertEvent outbox (w.newEvent drawn nowIso)).rows = outbox.rows ++ [event]) ↔
      keyTaken outbox (some (w.idempotencyKey nowIso)) = false := by
  unfold insertEvent
  rw [show (w.newEvent drawn nowIso).idempotencyKey = some (w.idempotencyKey nowIso) from rfl]
  cases htaken : keyTaken outbox (some (w.idempotencyKey nowIso)) with
  | true =>
    rw [if_pos rfl]
    refine iff_of_false ?_ (by decide)
    rintro ⟨event, -, heq⟩
    have hlength := congrArg List.length heq
    simp at hlength
  | false =>
    rw [if_neg (by decide)]
    obtain ⟨t, ht⟩ := Table.insert?_isSome (t := outbox) (r := (w.newEvent drawn nowIso).row) hfresh
    rw [ht, Option.getD_some]
    exact iff_of_true ⟨_, rfl, Table.rows_of_insert? ht⟩ rfl

end Transactions

/-! ## Every run -/

section Step

variable {s s' : LedgerSystem} {config : OutboxConfig}

theorem LedgerOk.of_revokedOnce (h : RevokedOnce s.db) : LedgerOk s :=
  ⟨heldOnce s.db, (reversible_iff s.db).mpr h⟩

theorem LedgerOk.revokedOnce (h : LedgerOk s) : RevokedOnce s.db := (reversible_iff s.db).mp h.reversible

theorem LedgerOk.of_rows (h : LedgerOk s) (hrows : s'.db.userBadges = s.db.userBadges) :
    LedgerOk s' := by
  refine LedgerOk.of_revokedOnce ?_
  unfold RevokedOnce hasBadge
  rw [hrows]
  exact h.revokedOnce

/-- A commit keeps the ledger in order, and announces what it changes, if and only if its request is
in order. -/
theorem inOrder_iff (hok : LedgerOk s) {c : BadgeCall} {drawn : Drawn} {restoredAt nowIso : Int}
    (hphase : c.phase = .started nowIso) (hstep : s.commit c drawn restoredAt = some s')
    (a : LedgerAction) : c.request.InOrder s.db nowIso ↔ LedgerOk s' ∧ Announced s a s' := by
  unfold commit at hstep
  rw [hphase] at hstep
  simp only [Option.isNone_iff_eq_none] at hstep
  split at hstep
  · next hfresh =>
    cases hstep
    by_cases hchanges : c.request.Changes s.db
    · obtain ⟨t, hrows, hfinish⟩ :=
        BadgeRequest.finish_of_changes nowIso restoredAt hfresh.1 hok.revokedOnce hchanges
      have hafter : (c.request.finish s.db drawn nowIso restoredAt).2.userBadges.rows =
          c.request.rowsAfter drawn nowIso s.db.userBadges.rows := by
        rw [hfinish]
        exact hrows
      have honce := revokedOnce_rowsAfter hok.revokedOnce hchanges hafter
      unfold BadgeRequest.InOrder
      rw [forall_prop_of_true hchanges, and_comm, ← honce]
      refine Iff.and ?_ ?_
      · exact ⟨fun h => LedgerOk.of_revokedOnce h, fun h => h.revokedOnce⟩
      · unfold KeyFree Announced
        rw [hfinish, ← insertEvent_iff hfresh.2]
        refine ⟨fun h _ => h, fun h => h ?_⟩
        show t.rows ≠ s.db.userBadges.rows
        rw [hrows]
        exact rowsAfter_ne hchanges
    · have hfinish :=
        BadgeRequest.finish_of_not_changes nowIso restoredAt hfresh.1 hchanges
      refine iff_of_true (fun h => absurd h hchanges) ⟨?_, ?_⟩
      · exact hok.of_rows (by rw [hfinish])
      · intro hne
        rw [hfinish] at hne
        exact absurd rfl hne
  · cases hstep

theorem userBadges_step {a : LedgerAction} (hstep : s.step config a = some s')
    (ha : ∀ callId drawn restoredAt, a ≠ .commit callId drawn restoredAt) :
    s'.db.userBadges = s.db.userBadges := by
  cases a with
  | begin callId request =>
    obtain ⟨calls, -, rfl⟩ := Option.map_eq_some_iff.mp hstep
    cases request with
    | revoke r =>
      cases hvalid : validateRequest r <;> simp only [hvalid]
    | award params => rfl
    | reverse userId badgeId reversedByAdmin reason => rfl
  | check callId =>
    obtain ⟨c, -, hnext⟩ := Option.bind_eq_some_iff.mp hstep
    unfold check at hnext
    split at hnext
    · split at hnext <;> cases hnext <;> rfl
    · cases hnext
  | start callId nowIso =>
    obtain ⟨c, -, hnext⟩ := Option.bind_eq_some_iff.mp hstep
    unfold startWrite at hnext
    split at hnext
    · cases hnext
      rfl
    · cases hnext
  | commit callId drawn restoredAt => exact absurd rfl (ha callId drawn restoredAt)
  | abort callId =>
    cases hstep
    rfl
  | outbox a =>
    obtain ⟨o, -, rfl⟩ := Option.map_eq_some_iff.mp hstep
    rfl

theorem changesInOrder_iff (hok : LedgerOk s) {a : LedgerAction}
    (hstep : s.step config a = some s') : ChangesInOrder s a ↔ LedgerOk s' ∧ Announced s a s' := by
  have hother : (∀ callId drawn restoredAt, a ≠ .commit callId drawn restoredAt) →
      LedgerOk s' ∧ Announced s a s' := by
    intro ha
    have hrows := userBadges_step hstep ha
    exact ⟨hok.of_rows hrows, fun hne => absurd (congrArg rows hrows) hne⟩
  cases a with
  | commit callId drawn restoredAt =>
    obtain ⟨c, hc, hnext⟩ := Option.bind_eq_some_iff.mp hstep
    have hphase : ∃ nowIso, c.phase = .started nowIso := by
      unfold commit at hnext
      split at hnext
      · next nowIso hphase => exact ⟨nowIso, hphase⟩
      · cases hnext
    obtain ⟨nowIso, hphase⟩ := hphase
    have hiff := inOrder_iff hok hphase hnext (.commit callId drawn restoredAt)
    constructor
    · intro h
      exact hiff.mp (h c hc nowIso hphase)
    · intro h c' hc' nowIso' hphase'
      obtain rfl := Option.some.inj (hc.symm.trans hc')
      rw [hphase] at hphase'
      cases hphase'
      exact hiff.mpr h
  | begin callId request => exact iff_of_true trivial (hother fun _ _ _ h => nomatch h)
  | check callId => exact iff_of_true trivial (hother fun _ _ _ h => nomatch h)
  | start callId nowIso => exact iff_of_true trivial (hother fun _ _ _ h => nomatch h)
  | abort callId => exact iff_of_true trivial (hother fun _ _ _ h => nomatch h)
  | outbox a => exact iff_of_true trivial (hother fun _ _ _ h => nomatch h)

end Step

theorem ledgerOk_start (users : List String) (badges : Table String Badge (·.badgeId))
    (outbox : OutboxEvents) : LedgerOk (start users badges outbox) :=
  LedgerOk.of_revokedOnce fun _ _ _ _ hrow => absurd hrow List.not_mem_nil

/-- **The badge ledger is in order exactly where changes are.** In every interleaving of awards,
revocations, reversals and the processors of the outbox that goes through, from whatever the outbox
holds: nobody ever holds a badge twice, a badge that is not held and was revoked can be given back,
with the row that was revoked last, and every change is announced once — if and only if, whenever a
transaction changes the ledger, no event with its key waits to be processed, and a badge it revokes
has no revoked row. -/
theorem badge_ledger_iff (config : OutboxConfig) (users : List String)
    (badges : Table String Badge (·.badgeId)) (outbox : OutboxEvents) (as : List LedgerAction)
    (s : LedgerSystem)
    (hrun : exec (LedgerSystem.step config) (LedgerSystem.start users badges outbox) as = some s) :
    (Always (LedgerSystem.step config) LedgerOk (LedgerSystem.start users badges outbox) as ∧
        EachStep (LedgerSystem.step config) Announced (LedgerSystem.start users badges outbox) as) ↔
      Along (LedgerSystem.step config) ChangesInOrder (LedgerSystem.start users badges outbox) as :=
  along_iff_good (I := fun _ => True) (fun _ _ _ _ _ => trivial)
    (fun _ _ _ _ hok hstep => changesInOrder_iff hok hstep) hrun trivial
    (ledgerOk_start users badges outbox)

def badgeB1 : Badge :=
  { badgeId := "b1", slug := "first-quiz", type := "quiz", category := "quiz", name := "First quiz",
    isActive := true, isHidden := false, version := "1.0.0", validFrom := none, validUntil := none }

def oneBadge : Table String Badge (·.badgeId) := ⟨[badgeB1], List.nodup_singleton _⟩

def awardB1 : BadgeRequest := .award ⟨"ada", "b1", none, none, none, none, none⟩

def revokeB1 : BadgeRequest := .revoke ⟨"ada", "b1", "was awarded in error", "root"⟩

def wholeRequest (callId : String) (request : BadgeRequest) (nowIso : Int) : List LedgerAction :=
  [.begin callId request, .check callId, .start callId nowIso,
    .commit callId ⟨callId, callId, nowIso⟩ nowIso]

/-- Ada gets the badge, loses it and gets it back. -/
theorem badge_ledger_reversed :
    let as := wholeRequest "1" awardB1 1000 ++ wholeRequest "2" revokeB1 2000 ++
      wholeRequest "3" (.reverse "ada" "b1" "root" "it was right") 3000
    Always (LedgerSystem.step ⟨⟨8, 30⟩, true⟩) LedgerOk
        (LedgerSystem.start ["ada"] oneBadge (.empty _)) as ∧
      EachStep (LedgerSystem.step ⟨⟨8, 30⟩, true⟩) Announced
        (LedgerSystem.start ["ada"] oneBadge (.empty _)) as := by
  intro as
  obtain ⟨s, hrun⟩ : ∃ s, exec (LedgerSystem.step ⟨⟨8, 30⟩, true⟩)
      (LedgerSystem.start ["ada"] oneBadge (.empty _)) as = some s :=
    Option.isSome_iff_exists.mp (by decide +kernel)
  exact (badge_ledger_iff ⟨⟨8, 30⟩, true⟩ ["ada"] oneBadge (.empty _) as s hrun).mpr
    (by decide +kernel)

def revokedRow (userBadgeId : String) (earnedAt revokedAt : Int) : UserBadge :=
  { userBadgeId, userId := "ada", badgeId := "b1", earnedAt, badgeVersion := "1.0.0",
    progress := .raw "\x7b\x7d", metadata := .raw "\x7b\x7d", expiresAt := none,
    revokedAt := some revokedAt, revocationReason := some "was awarded in error" }

/-- After a second revocation the badge cannot be given back. A second award is not announced, as long
as the event of the first one has not been processed. -/
theorem badge_ledger_broken :
    ¬ Always (LedgerSystem.step ⟨⟨8, 30⟩, true⟩) LedgerOk
        (LedgerSystem.start ["ada"] oneBadge (.empty _))
        (wholeRequest "1" awardB1 1000 ++ wholeRequest "2" revokeB1 2000 ++
          wholeRequest "3" awardB1 3000 ++ wholeRequest "4" revokeB1 4000) ∧
      ¬ EachStep (LedgerSystem.step ⟨⟨8, 30⟩, true⟩) Announced
        (LedgerSystem.start ["ada"] oneBadge (.empty _))
        ((wholeRequest "1" awardB1 1000 ++ wholeRequest "2" revokeB1 2000 ++
          [.begin "3" awardB1, .check "3", .start "3" 3000]) ++
          [.commit "3" ⟨"3", "3", 3000⟩ 3000]) := by
  refine ⟨?_, ?_⟩
  · intro h
    obtain ⟨s, hok, hrows⟩ := h.read (fun s => s.db.userBadges.rows)
      [revokedRow "1" 1000 2000, revokedRow "3" 3000 4000] (by decide +kernel)
    have honce := hok.revokedOnce "ada" "b1"
    unfold hasBadge at honce
    rw [hrows] at honce
    exact absurd (honce (by decide) (revokedRow "1" 1000 2000) (by simp)
      (revokedRow "3" 3000 4000) (by simp) (by decide) (by decide)) (by decide)
  · intro h
    obtain ⟨m, s', hannounced, hread, hread'⟩ := h.read _ _ (List.prefix_refl _)
      (fun s => (s.db.userBadges.rows.length, s.db.outbox.rows.length)) (1, 2)
      (fun s' => (s'.db.userBadges.rows.length, s'.db.outbox.rows.length)) (2, 2)
      (by decide +kernel) (by decide +kernel)
    obtain ⟨hrows, hevents⟩ := Prod.mk.inj hread
    obtain ⟨hrows', hevents'⟩ := Prod.mk.inj hread'
    obtain ⟨event, -, hinserted⟩ := hannounced (by
      intro heq
      rw [heq, hrows] at hrows'
      cases hrows')
    rw [hinserted, List.length_append, hevents] at hevents'
    cases hevents'

end QuizBackend.Achievement
