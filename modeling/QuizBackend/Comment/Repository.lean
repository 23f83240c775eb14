import QuizBackend.Lib.ReadCommitted
import QuizBackend.Lib.Uuid

/-!
# The comment tables and the statements of `CommentRepository`

The rows of `comments`, `comment_votes` and `comment_reports`, the users and the published quizzes as
far as foreign keys and existence checks read them, and the audit rows of moderators. Each method of
the repository is a statement of `commentEngine`: what it replies, which rows it locks and which row
versions it writes. A check, a foreign key or a value out of range refuses the statement.

`getCommentByIdForUpdate` selects from `comments` left-joined with `users` and `user_profiles` and ends
in `FOR UPDATE` without `OF`. Whether PostgreSQL accepts a lock on the nullable side of an outer join is
the parameter of `commentEngine`.

What the requests read of users for display and for events is left out; it locks nothing.
-/

namespace QuizBackend.Comment

open Lib

/-! ## Rows -/

structure CommentRow where
  commentId : Uuid
  quizId : Uuid
  authorId : Uuid
  parentCommentId : Option Uuid
  body : String
  isHidden : Bool
  hiddenById : Option Uuid
  hiddenAt : Option Int
  votesCount : Int
  upvotesCount : Int
  downvotesCount : Int
  repliesCount : Int
  createdAt : Int
  updatedAt : Int
  deletedAt : Option Int
  deriving DecidableEq

open CommentRow

inductive VoteValue where
  | upvote
  | downvote
  deriving DecidableEq

structure VoteRow where
  userId : Uuid
  commentId : Uuid
  value : VoteValue
  updatedAt : Int
  deriving DecidableEq

def VoteRow.pair (v : VoteRow) : Uuid × Uuid := (v.userId, v.commentId)

inductive ReviewReportStatus where
  | reviewed
  | dismissed
  | actioned
  deriving DecidableEq

inductive ReportStatus where
  | open
  | answered (status : ReviewReportStatus)
  deriving DecidableEq

structure ReportRow where
  reportId : Uuid
  reporterId : Uuid
  commentId : Uuid
  reason : String
  details : Option String
  status : ReportStatus
  reviewedByUserId : Option Uuid
  reviewedAt : Option Int
  actionTaken : Bool
  updatedAt : Int
  deriving DecidableEq

inductive ModerationAction where
  | hideComment
  | restoreComment
  | reviewReport
  deriving DecidableEq

structure AuditRow where
  userId : Uuid
  action : ModerationAction
  targetId : Uuid
  result : Option ReviewReportStatus
  createdAt : Int
  deriving DecidableEq

abbrev Comments := Table Uuid CommentRow (·.commentId)
abbrev Votes := Table (Uuid × Uuid) VoteRow VoteRow.pair
abbrev Reports := Table Uuid ReportRow (·.reportId)

/-- The database. `users` are the users that have a row, `quizzes` the quizzes that
`getActiveQuizRecordById` finds. -/
structure Store where
  comments : Comments
  votes : Votes
  reports : Reports
  users : List Uuid
  quizzes : List Uuid
  audit : List AuditRow

inductive Write where
  | comment (row : CommentRow)
  | vote (row : VoteRow)
  | unvote (pair : Uuid × Uuid)
  | report (row : ReportRow)
  | audit (row : AuditRow)
  deriving DecidableEq

inductive RowLock where
  | comment (commentId : Uuid)
  | vote (pair : Uuid × Uuid)
  | report (reportId : Uuid)
  deriving DecidableEq

def Store.write (s : Store) : Write → Store
  | .comment row => { s with comments := s.comments.upsert row }
  | .vote row => { s with votes := s.votes.upsert row }
  | .unvote pair => { s with votes := s.votes.erase pair }
  | .report row => { s with reports := s.reports.upsert row }
  | .audit row => { s with audit := s.audit ++ [row] }

section Write

variable (s : Store)

@[simp] theorem Store.comments_write_comment (row : CommentRow) :
    (s.write (.comment row)).comments = s.comments.upsert row := rfl

@[simp] theorem Store.votes_write_vote (row : VoteRow) :
    (s.write (.vote row)).votes = s.votes.upsert row := rfl

@[simp] theorem Store.votes_write_unvote (pair : Uuid × Uuid) :
    (s.write (.unvote pair)).votes = s.votes.erase pair := rfl

end Write

/-! ## Statements -/

structure VoteCounts where
  votesCount : Int
  upvotesCount : Int
  downvotesCount : Int
  deriving DecidableEq

/-- The statements of the requests. Ids that the database draws and the clock are given with the
statement. -/
inductive Statement where
  | quizExists (quizId : Uuid)
  | getCommentByIdForUpdate (commentId : Uuid)
  | getCommentById (commentId : Uuid)
  | countReplies (parentCommentId : Uuid)
  | createComment (commentId quizId authorId : Uuid) (parentCommentId : Option Uuid) (body : String)
      (now : Int)
  | editComment (commentId authorId : Uuid) (body : String) (expectedUpdatedAt : Option Int)
      (now : Int)
  | existsForEdit (commentId : Uuid)
  | softDeleteComment (commentId authorId : Uuid) (now : Int)
  | setHiddenState (commentId : Uuid) (hidden : Bool) (moderatorId : Uuid) (now : Int)
  | incrementVoteCount (commentId : Uuid) (deltaUpvotes deltaDownvotes now : Int)
  | incrementRepliesCount (commentId : Uuid) (delta now : Int)
  | upsertVote (userId commentId : Uuid) (value : VoteValue) (now : Int)
  | removeVote (userId commentId : Uuid)
  | getUserVoteForComment (userId commentId : Uuid)
  | getAuthorForComment (commentId : Uuid)
  | getReportByIdForUpdate (reportId : Uuid)
  | reviewReport (reportId reviewerId : Uuid) (status : ReviewReportStatus) (actionTaken : Bool)
      (now : Int)
  | logInsideTx (row : AuditRow)

def Statement.isVoteIncrement : Statement → Bool
  | incrementVoteCount .. => true
  | _ => false

abbrev Statement.Reply : Statement → Type
  | quizExists _ => Bool
  | getCommentByIdForUpdate _ | getCommentById _ => Option CommentRow
  | countReplies _ => Nat
  | createComment .. => CommentRow
  | editComment .. => Option CommentRow
  | existsForEdit _ => Bool
  | softDeleteComment .. => Bool
  | setHiddenState .. => Unit
  | incrementVoteCount .. => VoteCounts
  | incrementRepliesCount .. => Unit
  | upsertVote .. | removeVote .. => Unit
  | getUserVoteForComment .. => Option VoteValue
  | getAuthorForComment _ => Option Uuid
  | getReportByIdForUpdate _ => Option ReportRow
  | reviewReport .. => Option ReportRow
  | logInsideTx _ => Unit

def isText (body : String) : Bool := body.toList.all fun c => c != '\x00'

def bodyNonblank (body : String) : Bool := body.toList.any fun c => c != ' '

def CommentRow.notDeleted (row : CommentRow) : Bool := row.deletedAt.isNone

def CommentRow.isReplyTo (parentCommentId : Uuid) (row : CommentRow) : Bool :=
  row.parentCommentId == some parentCommentId && row.notDeleted

def Store.replies (s : Store) (parentCommentId : Uuid) : Nat :=
  s.comments.rows.countP (isReplyTo parentCommentId)

def CommentRow.withVotes (row : CommentRow) (deltaUpvotes deltaDownvotes now : Int) : CommentRow :=
  { row with
    upvotesCount := max 0 (row.upvotesCount + deltaUpvotes)
    downvotesCount := max 0 (row.downvotesCount + deltaDownvotes)
    votesCount := max 0 (row.votesCount + (deltaUpvotes + deltaDownvotes))
    updatedAt := now }

def CommentRow.voteCounts (row : CommentRow) : VoteCounts :=
  ⟨row.votesCount, row.upvotesCount, row.downvotesCount⟩

/-- The sums of `incrementVoteCount` are in the range of the columns. -/
def CommentRow.votesInRange (row : CommentRow) (deltaUpvotes deltaDownvotes : Int) : Prop :=
  IsInt4 (row.upvotesCount + deltaUpvotes) ∧ IsInt4 (row.downvotesCount + deltaDownvotes) ∧
    IsInt4 (row.votesCount + (deltaUpvotes + deltaDownvotes))

instance (row : CommentRow) (deltaUpvotes deltaDownvotes : Int) :
    Decidable (row.votesInRange deltaUpvotes deltaDownvotes) :=
  inferInstanceAs (Decidable (_ ∧ _))

def CommentRow.withHidden (row : CommentRow) (hidden : Bool) (moderatorId : Uuid) (now : Int) :
    CommentRow :=
  { row with
    isHidden := hidden
    hiddenById := if hidden then some moderatorId else none
    hiddenAt := if hidden then some now else none
    updatedAt := now }

def CommentRow.withReplies (row : CommentRow) (delta now : Int) : CommentRow :=
  { row with repliesCount := row.repliesCount + delta, updatedAt := now }

def CommentRow.withDeleted (row : CommentRow) (now : Int) : CommentRow :=
  { row with deletedAt := some now, updatedAt := now }

def newComment (commentId quizId authorId : Uuid) (parentCommentId : Option Uuid) (body : String)
    (now : Int) : CommentRow :=
  { commentId, quizId, authorId, parentCommentId, body, isHidden := false, hiddenById := none,
    hiddenAt := none, votesCount := 0, upvotesCount := 0, downvotesCount := 0, repliesCount := 0,
    createdAt := now, updatedAt := now, deletedAt := none }

namespace Store

variable (s : Store)

def select {R : Type} (reply : R) : Option (Effect RowLock Write R) := some ⟨reply, [], []⟩

/-- `UPDATE comments … WHERE comment_id = commentId AND p`, which replies by the new row, if any. -/
def updateComment {R : Type} (commentId : Uuid) (p : CommentRow → Bool) (f : CommentRow → CommentRow)
    (reply : Option CommentRow → R) : Effect RowLock Write R :=
  match (s.comments.find? commentId).filter p with
  | none => ⟨reply none, [], []⟩
  | some row => ⟨reply (some (f row)), [.comment commentId], [.comment (f row)]⟩

def exec (rejectsNullableLock : Bool) :
    (q : Statement) → Option (Effect RowLock Write q.Reply)
  | .quizExists quizId => select (decide (quizId ∈ s.quizzes))
  | .getCommentByIdForUpdate commentId =>
    if rejectsNullableLock then none
    else some ⟨s.comments.find? commentId,
      if (s.comments.find? commentId).isSome then [.comment commentId] else [], []⟩
  | .getCommentById commentId => select ((s.comments.find? commentId).filter notDeleted)
  | .countReplies parentCommentId => select (s.replies parentCommentId)
  | .createComment commentId quizId authorId parentCommentId body now =>
    if isText body && bodyNonblank body && (s.comments.find? commentId).isNone &&
        parentCommentId.all fun p => (s.comments.find? p).isSome then
      let row := newComment commentId quizId authorId parentCommentId body now
      some ⟨row, [.comment commentId], [.comment row]⟩
    else none
  | .editComment commentId authorId body expectedUpdatedAt now =>
    if isText body && bodyNonblank body then
      some (s.updateComment commentId
        (fun row => row.authorId == authorId && row.notDeleted &&
          expectedUpdatedAt.all fun t => row.updatedAt == t)
        (fun row => { row with body, updatedAt := now }) id)
    else none
  | .existsForEdit commentId =>
    select ((s.comments.find? commentId).filter notDeleted).isSome
  | .softDeleteComment commentId authorId now => some <|
    s.updateComment commentId (fun row => row.authorId == authorId) (·.withDeleted now)
      Option.isSome
  | .setHiddenState commentId hidden moderatorId now =>
    if hidden && !decide (moderatorId ∈ s.users) then none
    else some (s.updateComment commentId (fun _ => true) (·.withHidden hidden moderatorId now)
      fun _ => ())
  | .incrementVoteCount commentId deltaUpvotes deltaDownvotes now =>
    if ∀ row ∈ s.comments.find? commentId, row.votesInRange deltaUpvotes deltaDownvotes then
      some (s.updateComment commentId (fun _ => true) (·.withVotes deltaUpvotes deltaDownvotes now)
        fun row => (row.map voteCounts).getD ⟨0, 0, 0⟩)
    else none
  | .incrementRepliesCount commentId delta now =>
    if ∀ row ∈ s.comments.find? commentId, IsInt4 (row.repliesCount + delta) then
      some (s.updateComment commentId (fun _ => true) (·.withReplies delta now) fun _ => ())
    else none
  | .upsertVote userId commentId value now =>
    some ⟨(), [.vote (userId, commentId)], [.vote ⟨userId, commentId, value, now⟩]⟩
  | .removeVote userId commentId =>
    some ⟨(), if (s.votes.find? (userId, commentId)).isSome then [.vote (userId, commentId)] else [],
      [.unvote (userId, commentId)]⟩
  | .getUserVoteForComment userId commentId =>
    select ((s.votes.find? (userId, commentId)).map VoteRow.value)
  | .getAuthorForComment commentId => select ((s.comments.find? commentId).map authorId)
  | .getReportByIdForUpdate reportId =>
    some ⟨s.reports.find? reportId,
      if (s.reports.find? reportId).isSome then [.report reportId] else [], []⟩
  | .reviewReport reportId reviewerId status actionTaken now => some <|
    match s.reports.find? reportId with
    | none => ⟨none, [], []⟩
    | some row =>
      let row := { row with
        status := .answered status, reviewedByUserId := some reviewerId, reviewedAt := some now,
        actionTaken, updatedAt := now }
      ⟨some row, [.report reportId], [.report row]⟩
  | .logInsideTx row =>
    -- the foreign key of `user_id`
    if row.userId ∈ s.users then some ⟨(), [], [.audit row]⟩ else none

end Store

/-- The comment database, on a PostgreSQL that does or does not refuse a lock on the nullable side of
an outer join. -/
abbrev commentEngine (rejectsNullableLock : Bool) : Engine where
  Store := Store
  Write := Write
  Lock := RowLock
  Ask := Statement
  Reply := Statement.Reply
  write := Store.write
  exec := fun s => s.exec rejectsNullableLock

instance (rejectsNullableLock : Bool) : DecidableEq (commentEngine rejectsNullableLock).Lock :=
  inferInstanceAs (DecidableEq RowLock)

/-! ## What the statements do -/

variable {now : Int} {e : Effect RowLock Write Unit}

section Statements

variable {s : Store} {rejectsNullableLock : Bool} {commentId : Uuid} {row : CommentRow}

theorem updateComment_of_find? {R : Type} {p : CommentRow → Bool} {f : CommentRow → CommentRow}
    {reply : Option CommentRow → R} (h : s.comments.find? commentId = some row)
    (hp : p row = true) :
    (s.updateComment commentId p f reply).locks = [.comment commentId] ∧
      (s.updateComment commentId p f reply).writes = [.comment (f row)] := by
  rw [Store.updateComment, h, Option.filter_some_pos hp]
  exact ⟨rfl, rfl⟩

theorem exec_incrementVoteCount {deltaUpvotes deltaDownvotes : Int}
    {e : Effect RowLock Write VoteCounts} (h : s.comments.find? commentId = some row)
    (he : s.exec rejectsNullableLock (.incrementVoteCount commentId deltaUpvotes deltaDownvotes now) = some e) :
    e.locks = [.comment commentId] ∧
      e.writes = [.comment (row.withVotes deltaUpvotes deltaDownvotes now)] := by
  simp only [Store.exec] at he
  split at he
  · obtain rfl := Option.some.inj he
    exact updateComment_of_find? h rfl
  · cases he

theorem updateComment_of_find?_none {R : Type} {p : CommentRow → Bool}
    {f : CommentRow → CommentRow} {reply : Option CommentRow → R}
    (h : s.comments.find? commentId = none) :
    (s.updateComment commentId p f reply).locks = [] ∧
      (s.updateComment commentId p f reply).writes = [] := by
  rw [Store.updateComment, h]
  exact ⟨rfl, rfl⟩

theorem exec_incrementRepliesCount_none {delta : Int} (h : s.comments.find? commentId = none)
    (he : s.exec rejectsNullableLock (.incrementRepliesCount commentId delta now) = some e) :
    e.locks = [] ∧ e.writes = [] := by
  simp only [Store.exec] at he
  split at he
  · obtain rfl := Option.some.inj he
    exact updateComment_of_find?_none h
  · cases he

theorem exec_incrementRepliesCount {delta : Int} (h : s.comments.find? commentId = some row)
    (he : s.exec rejectsNullableLock (.incrementRepliesCount commentId delta now) = some e) :
    e.locks = [.comment commentId] ∧ e.writes = [.comment (row.withReplies delta now)] := by
  simp only [Store.exec] at he
  split at he
  · obtain rfl := Option.some.inj he
    exact updateComment_of_find? h rfl
  · cases he

theorem exec_softDeleteComment {authorId : Uuid} {e : Effect RowLock Write Bool}
    (h : s.comments.find? commentId = some row) (hauthor : row.authorId = authorId)
    (he : s.exec rejectsNullableLock (.softDeleteComment commentId authorId now) = some e) :
    e.locks = [.comment commentId] ∧ e.writes = [.comment (row.withDeleted now)] := by
  obtain rfl := Option.some.inj he
  exact updateComment_of_find? h (beq_iff_eq.mpr hauthor)

theorem exec_setHiddenState {hidden : Bool} {moderatorId : Uuid}
    (h : s.comments.find? commentId = some row)
    (he : s.exec rejectsNullableLock (.setHiddenState commentId hidden moderatorId now) = some e) :
    e.locks = [.comment commentId] ∧
      e.writes = [.comment (row.withHidden hidden moderatorId now)] := by
  simp only [Store.exec] at he
  split at he
  · cases he
  · obtain rfl := Option.some.inj he
    exact updateComment_of_find? h rfl

theorem exec_createComment {quizId authorId : Uuid} {parentCommentId : Option Uuid} {body : String}
    {e : Effect RowLock Write CommentRow}
    (he : s.exec rejectsNullableLock (.createComment commentId quizId authorId parentCommentId body now) = some e) :
    s.comments.find? commentId = none ∧
      e = ⟨newComment commentId quizId authorId parentCommentId body now, [.comment commentId],
        [.comment (newComment commentId quizId authorId parentCommentId body now)]⟩ := by
  simp only [Store.exec] at he
  split at he
  · next hvalid =>
    obtain rfl := Option.some.inj he
    simp only [Bool.and_eq_true, Option.isNone_iff_eq_none] at hvalid
    exact ⟨hvalid.1.2, rfl⟩
  · cases he

theorem exec_getCommentByIdForUpdate {e : Effect RowLock Write (Option CommentRow)}
    (he : s.exec rejectsNullableLock (.getCommentByIdForUpdate commentId) = some e) :
    e = ⟨s.comments.find? commentId,
      if (s.comments.find? commentId).isSome then [.comment commentId] else [], []⟩ := by
  simp only [Store.exec] at he
  split at he
  · cases he
  · exact (Option.some.inj he).symm

theorem exec_reviewReport {reportId reviewerId : Uuid} {status : ReviewReportStatus}
    {actionTaken : Bool} {e : Effect RowLock Write (Option ReportRow)}
    (he : s.exec rejectsNullableLock (.reviewReport reportId reviewerId status actionTaken now) = some e) :
    e.writes = [] ∨ ∃ row, e.writes = [.report row] := by
  obtain rfl := Option.some.inj he
  cases s.reports.find? reportId with
  | none => exact .inl rfl
  | some row => exact .inr ⟨_, rfl⟩

end Statements

end QuizBackend.Comment
