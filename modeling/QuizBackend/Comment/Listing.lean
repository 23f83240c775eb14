import QuizBackend.Comment.Service
import QuizBackend.Lib.CursorOrder
import QuizBackend.Lib.Paging
import QuizBackend.Lib.PerKey
import Mathlib.Data.Prod.Lex
import Mathlib.Data.List.Dedup

/-!
# Lists of comments and reports

`listComments`, `listMyComments` and `listReports` of `CommentService`, with what the repository and the
scans make of them. The service asks the repository for a row more than fits on the page, and so does the
repository its scan; the scan takes its own away again, and the service its. What is left are the first
rows past the cursor.

The replies of a page of comments come from one query, mixed. `multiReplyScan` goes through them twice:
it counts the replies of each comment up to the limit, and takes as many. So each comment gets its first
replies, and the vote of the viewer is looked up for the comments and for the replies
(`lists_page_completely`).
-/

namespace QuizBackend.Comment.Listing

open Lib CommentRow

/-! ## Tables and views -/

structure UserRow where
  userId : Uuid
  username : String

structure ProfileRow where
  userId : Uuid
  displayName : Option String
  avatarUrl : Option String

structure QuizRow where
  quizId : Uuid
  title : String

structure ListedReport extends ReportRow where
  createdAt : Int

structure Db where
  comments : Comments
  votes : Votes
  reports : Table Uuid ListedReport (·.reportId)
  users : Table Uuid UserRow (·.userId)
  profiles : Table Uuid ProfileRow (·.userId)
  quizzes : Table Uuid QuizRow (·.quizId)

structure AuthorView where
  userId : Uuid
  username : String
  displayName : Option String
  avatarUrl : Option String

structure CommentView where
  id : Uuid
  quizId : Uuid
  authorId : Uuid
  author : AuthorView
  parentCommentId : Option Uuid
  body : String
  isHidden : Bool
  hiddenById : Option Uuid
  hiddenAt : Option Int
  votesCount : Int
  upvotesCount : Int
  downvotesCount : Int
  repliesCount : Int
  createdAt : Int
  updatedAt : Int
  deletedAt : Option Int

structure CommentWithRepliesView extends CommentView where
  replies : List CommentView
  userVote : Option VoteValue

structure MyCommentView where
  commentId : Uuid
  quizId : Uuid
  quizTitle : String
  body : String
  votesCount : Int
  repliesCount : Int
  createdAt : Int
  updatedAt : Int

structure CommentCursor where
  createdAt : Int
  id : Uuid

/-! ## Scans -/

def stamp (createdAt : Int) (id : Uuid) : Int ×ₗ Nat := toLex (createdAt, id.bits.toNat)

/-- `cursorDesc`, and the same condition in `reportScan`. -/
def cursorDesc (cursor : CommentCursor) (createdAt : Int) (id : Uuid) : Bool :=
  decide (createdAt < cursor.createdAt) ||
    (decide (createdAt = cursor.createdAt) && decide (id.bits.toNat < cursor.id.bits.toNat))

def commentAuthorForView (row : CommentRow) (author : AuthorView) : CommentView :=
  { id := row.commentId, quizId := row.quizId, authorId := row.authorId, author,
    parentCommentId := row.parentCommentId, body := row.body, isHidden := row.isHidden,
    hiddenById := row.hiddenById, hiddenAt := row.hiddenAt, votesCount := row.votesCount,
    upvotesCount := row.upvotesCount, downvotesCount := row.downvotesCount,
    repliesCount := row.repliesCount, createdAt := row.createdAt, updatedAt := row.updatedAt,
    deletedAt := row.deletedAt }

def trim {α : Type} (limit : Nat) (rows : List α) : List α × Bool :=
  let hasNextPage := limit < rows.length
  (if hasNextPage then rows.take limit else rows, hasNextPage)

namespace Db

variable (db : Db)

def authorView (u : UserRow) : AuthorView :=
  let profile := db.profiles.find? u.userId
  ⟨u.userId, u.username, profile.bind (·.displayName), profile.bind (·.avatarUrl)⟩

def joinAuthorsByIds (userIds : List Uuid) : List (Uuid × AuthorView) :=
  if userIds.isEmpty then []
  else (db.users.rows.filter (·.userId ∈ userIds)).map fun u => (u.userId, db.authorView u)

end Db

/-- `scanCommentAuthorForView` with `authorMap.get(row.authorId) ?? …`. -/
def viewWith (authorMap : List (Uuid × AuthorView)) (row : CommentRow) : CommentView :=
  commentAuthorForView row
    ((authorMap.lookup row.authorId).getD ⟨row.authorId, "", none, none⟩)

def isTopLevelOf (quizId : Uuid) (row : CommentRow) : Bool :=
  decide (row.quizId = quizId) && row.parentCommentId.isNone && row.notDeleted

def isBy (userId : Uuid) (row : CommentRow) : Bool :=
  decide (row.authorId = userId) && row.notDeleted

def commentStamp (row : CommentRow) : Int ×ₗ Nat := stamp row.createdAt row.commentId

def reportStamp (r : ListedReport) : Int ×ₗ Nat := stamp r.createdAt r.reportId

def hasStatus (status : Option ReportStatus) (r : ListedReport) : Bool :=
  status.all fun wanted => decide (r.status = wanted)

def oldestFirst (rows : List CommentRow) : List CommentRow :=
  rows.insertionSort fun r other => r.createdAt ≤ other.createdAt

namespace Db

variable (db : Db)

def topLevelCommentScan (quizId : Uuid) (limit : Nat) (cursor : Option CommentCursor) :
    List CommentView × Bool :=
  let rows := (descending commentStamp (db.comments.rows.filter fun row =>
    cursor.all (fun c => cursorDesc c row.createdAt row.commentId) && isTopLevelOf quizId row)).take
      (limit + 1)
  let (trimmed, hasNextPage) := trim limit rows
  let authorMap := db.joinAuthorsByIds (trimmed.map (·.authorId)).dedup
  (trimmed.map (viewWith authorMap), hasNextPage)

def replyRows (topLevelIds : List Uuid) : List CommentRow :=
  oldestFirst (db.comments.rows.filter fun row =>
    row.parentCommentId.any (· ∈ topLevelIds) && row.notDeleted)

def multiReplyScan (topLevelIds : List Uuid) (limitPerParent : Nat) : List CommentView :=
  if topLevelIds.isEmpty then []
  else
    let rows := db.replyRows topLevelIds
    if rows.isEmpty then []
    else
      -- the first loop has the counts and the authors
      let countByParent := tally parentCommentId limitPerParent rows
      let authorIds := ((counted parentCommentId limitPerParent (fun _ => 0) rows).map
        (·.authorId)).dedup
      let authorMap := db.joinAuthorsByIds authorIds
      (countdown parentCommentId countByParent rows).map (viewWith authorMap)

def paginatedCommentScan (userId : Uuid) (limit : Nat) (cursor : Option CommentCursor) :
    List MyCommentView :=
  let rows := (descending commentStamp (db.comments.rows.filter fun row =>
    cursor.all (fun c => cursorDesc c row.createdAt row.commentId) && isBy userId row)).take (limit + 1)
  (trim limit rows).1.map fun row =>
    { commentId := row.commentId, quizId := row.quizId
      quizTitle := ((db.quizzes.find? row.quizId).map (·.title)).getD ""
      body := row.body, votesCount := row.votesCount, repliesCount := row.repliesCount
      createdAt := row.createdAt, updatedAt := row.updatedAt }

def reportScan (status : Option ReportStatus) (limit : Nat) (cursor : Option CommentCursor) :
    List ListedReport × Bool :=
  let rows := (descending reportStamp (db.reports.rows.filter fun r =>
    cursor.all (fun c => cursorDesc c r.createdAt r.reportId) && hasStatus status r)).take (limit + 1)
  trim limit rows

/-! ## The repository -/

def votesOn (viewerId : Option Uuid) (commentIds : List Uuid) : List VoteRow :=
  viewerId.elim [] fun v => db.votes.rows.filter fun vote =>
    decide (vote.userId = v) && decide (vote.commentId ∈ commentIds)

end Db

/-- `userVotes.get(id) ?? null`, of a map that is filled in this order. -/
def lastVote (rows : List VoteRow) (commentId : Uuid) : Option VoteValue :=
  ((rows.filter (·.commentId = commentId)).getLast?).map (·.value)

namespace CommentRepository

variable (db : Db)

def listComments (quizId : Uuid) (limit : Nat) (cursor : Option CommentCursor)
    (viewerId : Option Uuid) : List CommentWithRepliesView :=
  let (topLevel, hasNextPage) := db.topLevelCommentScan quizId limit cursor
  let trimmedTopLevel := if hasNextPage then topLevel.take limit else topLevel
  if trimmedTopLevel.isEmpty then []
  else
    let topLevelIds := trimmedTopLevel.map (·.id)
    let repliesResult := db.multiReplyScan topLevelIds maxRepliesPerComment
    let topLevelVotes := db.votesOn viewerId topLevelIds
    let replyVotes :=
      if repliesResult.isEmpty then [] else db.votesOn viewerId (repliesResult.map (·.id))
    trimmedTopLevel.map fun comment =>
      { comment with
        replies := repliesResult.filter (·.parentCommentId = some comment.id)
        userVote := lastVote (topLevelVotes ++ replyVotes) comment.id }

def listMyComments (userId : Uuid) (limit : Nat) (cursor : Option CommentCursor) :
    List MyCommentView := db.paginatedCommentScan userId limit cursor

def listReports (status : Option ReportStatus) (limit : Nat) (cursor : Option CommentCursor) :
    List ListedReport := (db.reportScan status limit cursor).1

end CommentRepository

/-! ## The service -/

namespace CommentService

variable (db : Db)

def listComments (quizId : Uuid) (viewerId : Option Uuid) (limit : Option Nat)
    (cursor : Option CommentCursor) :
    Except Thrown (List CommentWithRepliesView × Option CommentCursor) :=
  let limit := limit.getD 20
  .ok (lookAhead (fun lastItem => ⟨lastItem.createdAt, lastItem.id⟩) limit
    (CommentRepository.listComments db quizId (limit + 1) cursor viewerId))

def listMyComments (userId : Uuid) (limit : Option Nat) (cursor : Option CommentCursor) :
    Except Thrown (List MyCommentView × Option CommentCursor) :=
  let limit := limit.getD 20
  .ok (lookAhead (fun lastItem => ⟨lastItem.createdAt, lastItem.commentId⟩) limit
    (CommentRepository.listMyComments db userId (limit + 1) cursor))

def listReports (status : Option ReportStatus) (limit : Option Nat)
    (cursor : Option CommentCursor) : Except Thrown (List ListedReport × Option CommentCursor) :=
  let limit := limit.getD 20
  .ok (lookAhead (fun lastItem => ⟨lastItem.createdAt, lastItem.reportId⟩) limit
    (CommentRepository.listReports db status (limit + 1) cursor))

end CommentService

/-! ## What the lists should have -/

namespace Db

variable (db : Db)

def view (row : CommentRow) : CommentView :=
  commentAuthorForView row
    (((db.users.find? row.authorId).map db.authorView).getD ⟨row.authorId, "", none, none⟩)

/-- The first replies to a comment that are not deleted, in the order of their creation. -/
def firstReplies (commentId : Uuid) : List CommentRow :=
  (oldestFirst (db.comments.rows.filter (isReplyTo commentId))).take maxRepliesPerComment

def fullView (viewerId : Option Uuid) (row : CommentRow) : CommentWithRepliesView :=
  { db.view row with
    replies := (db.firstReplies row.commentId).map db.view
    userVote := (viewerId.bind fun v => db.votes.find? (v, row.commentId)).map (·.value) }

def quizComments (quizId : Uuid) (viewerId : Option Uuid) : List CommentWithRepliesView :=
  (descending commentStamp (db.comments.rows.filter (isTopLevelOf quizId))).map (db.fullView viewerId)

def myView (row : CommentRow) : MyCommentView :=
  { commentId := row.commentId, quizId := row.quizId
    quizTitle := ((db.quizzes.find? row.quizId).map (·.title)).getD ""
    body := row.body, votesCount := row.votesCount, repliesCount := row.repliesCount
    createdAt := row.createdAt, updatedAt := row.updatedAt }

def myComments (userId : Uuid) : List MyCommentView :=
  (descending commentStamp (db.comments.rows.filter (isBy userId))).map db.myView

def reportsWith (status : Option ReportStatus) : List ListedReport :=
  descending reportStamp (db.reports.rows.filter (hasStatus status))

end Db

/-! ## Authors -/

section Authors

variable {db : Db}

theorem lookup_map_filter {κ ρ α : Type} [DecidableEq κ] (key : ρ → κ) (f : ρ → α) (ids : List κ)
    {id : κ} (h : id ∈ ids) (rows : List ρ) :
    ((rows.filter fun r => key r ∈ ids).map fun r => (key r, f r)).lookup id =
      (rows.find? fun r => key r = id).map f := by
  induction rows with
  | nil => rfl
  | cons r rows ih =>
    by_cases hkey : key r = id
    · simp [hkey, h]
    · have hne : (id == key r) = false := beq_false_of_ne (Ne.symm hkey)
      by_cases hmem : key r ∈ ids
      · simp [hkey, hmem, hne, List.lookup_cons, ih]
      · simp [hkey, hmem, ih]

theorem viewWith_joinAuthorsByIds {ids : List Uuid} {row : CommentRow} (h : row.authorId ∈ ids) :
    viewWith (db.joinAuthorsByIds ids) row = db.view row := by
  have hids : ids.isEmpty = false := by
    cases ids with
    | nil => cases h
    | cons id ids => rfl
  rw [viewWith, Db.joinAuthorsByIds, hids, if_neg Bool.false_ne_true,
    lookup_map_filter UserRow.userId db.authorView ids h]
  rfl

theorem map_viewWith {ids : List Uuid} {rows : List CommentRow}
    (h : ∀ row ∈ rows, row.authorId ∈ ids) :
    rows.map (viewWith (db.joinAuthorsByIds ids)) = rows.map db.view :=
  List.map_congr_left fun row hrow => viewWith_joinAuthorsByIds (h row hrow)

end Authors

/-! ## Replies and votes -/

section Replies

variable {db : Db} {topLevelIds : List Uuid} {commentId : Uuid}

theorem filter_replyRows (h : commentId ∈ topLevelIds) :
    (db.replyRows topLevelIds).filter (fun row => row.parentCommentId = some commentId) =
      oldestFirst (db.comments.rows.filter (isReplyTo commentId)) := by
  have : Std.Total fun r other : CommentRow => r.createdAt ≤ other.createdAt :=
    ⟨fun r other => Int.le_total r.createdAt other.createdAt⟩
  have : IsTrans CommentRow fun r other => r.createdAt ≤ other.createdAt :=
    ⟨fun _ _ _ h h' => Int.le_trans h h'⟩
  rw [Db.replyRows, oldestFirst, filter_insertionSort, List.filter_filter, oldestFirst]
  refine congrArg _ (List.filter_congr fun row _ => ?_)
  rw [isReplyTo, Bool.eq_iff_iff]
  by_cases hparent : row.parentCommentId = some commentId
  · simp [hparent, h]
  · simp [hparent]

theorem multiReplyScan_eq (topLevelIds : List Uuid) (limitPerParent : Nat) :
    db.multiReplyScan topLevelIds limitPerParent =
      (countdown parentCommentId
        (tally parentCommentId limitPerParent (db.replyRows topLevelIds))
          (db.replyRows topLevelIds)).map db.view := by
  have hauthors : ∀ rows : List CommentRow, ∀ row ∈ rows,
      row.authorId ∈ (rows.map (·.authorId)).dedup := fun rows row hrow =>
    List.mem_dedup.mpr (List.mem_map_of_mem hrow)
  cases topLevelIds with
  | nil =>
    have hnone : db.replyRows [] = [] := by
      rw [Db.replyRows, List.filter_eq_nil_iff.mpr (fun row _ => by simp)]
      rfl
    rw [hnone]
    rfl
  | cons id ids =>
    rw [Db.multiReplyScan, List.isEmpty_cons, if_neg Bool.false_ne_true]
    cases hempty : (db.replyRows (id :: ids)).isEmpty with
    | true =>
      rw [List.isEmpty_iff.mp hempty]
      rfl
    | false =>
      simp only [hempty, Bool.false_eq_true, if_false, countdown_tally]
      exact map_viewWith (hauthors _)

/-- **Each comment gets its first replies.** -/
theorem filter_multiReplyScan (h : commentId ∈ topLevelIds) :
    (db.multiReplyScan topLevelIds maxRepliesPerComment).filter
        (fun reply => reply.parentCommentId = some commentId) =
      (db.firstReplies commentId).map db.view := by
  rw [multiReplyScan_eq, List.filter_map]
  refine congrArg (List.map db.view) ?_
  refine (filter_countdown_tally maxRepliesPerComment (db.replyRows topLevelIds) commentId).trans ?_
  exact congrArg (List.take maxRepliesPerComment) (filter_replyRows h)

theorem filter_votesOn {v : Uuid} {commentIds : List Uuid} (h : commentId ∈ commentIds) :
    (db.votesOn (some v) commentIds).filter (·.commentId = commentId) =
      (db.votes.find? (v, commentId)).toList := by
  rw [← db.votes.filter_key_eq, Db.votesOn, Option.elim_some, List.filter_filter]
  refine List.filter_congr fun vote _ => ?_
  rw [Bool.eq_iff_iff, VoteRow.pair]
  simp only [Bool.and_eq_true, decide_eq_true_iff, Prod.mk.injEq]
  constructor
  · rintro ⟨hcomment, huser, -⟩
    exact ⟨huser, hcomment⟩
  · rintro ⟨huser, hcomment⟩
    exact ⟨hcomment, huser, hcomment ▸ h⟩

theorem filter_votesOn_of_not_mem {v : Uuid} {commentIds : List Uuid} (h : commentId ∉ commentIds) :
    (db.votesOn (some v) commentIds).filter (·.commentId = commentId) = [] := by
  rw [Db.votesOn, Option.elim_some, List.filter_filter, List.filter_eq_nil_iff]
  intro vote _ hvote
  simp only [Bool.and_eq_true, decide_eq_true_iff] at hvote
  exact h (hvote.1 ▸ hvote.2.2)

theorem votesOn_nil (viewerId : Option Uuid) : db.votesOn viewerId [] = [] := by
  cases viewerId with
  | none => rfl
  | some v => exact List.filter_eq_nil_iff.mpr fun vote _ => by simp

theorem lastVote_votesOn (viewerId : Option Uuid) (replyIds : List Uuid) (h : commentId ∈ topLevelIds) :
    lastVote (db.votesOn viewerId topLevelIds ++ db.votesOn viewerId replyIds) commentId =
      (viewerId.bind fun v => db.votes.find? (v, commentId)).map (·.value) := by
  cases viewerId with
  | none => rfl
  | some v =>
    rw [lastVote, List.filter_append, filter_votesOn h, Option.bind_some]
    by_cases hreply : commentId ∈ replyIds
    · rw [filter_votesOn hreply]
      cases db.votes.find? (v, commentId) with
      | none => rfl
      | some vote => rfl
    · rw [filter_votesOn_of_not_mem hreply, List.append_nil]
      cases db.votes.find? (v, commentId) with
      | none => rfl
      | some vote => rfl

end Replies

/-! ## Pages -/

section Pages

variable (db : Db)

theorem cursorDesc_eq (cursor : CommentCursor) (createdAt : Int) (id : Uuid) :
    cursorDesc cursor createdAt id =
      decide (stamp createdAt id < stamp cursor.createdAt cursor.id) := by
  rw [cursorDesc, Bool.eq_iff_iff, decide_eq_true_iff, stamp, stamp, Prod.Lex.toLex_lt_toLex]
  simp

theorem trim_take {α : Type} (limit : Nat) (rows : List α) :
    trim limit (rows.take (limit + 1)) = (rows.take limit, decide (limit < rows.length)) := by
  by_cases hlong : limit < rows.length
  · simp [trim, hlong, List.take_take]
  · have hall : rows.take (limit + 1) = rows := List.take_of_length_le (by omega)
    have hall' : rows.take limit = rows := List.take_of_length_le (by omega)
    simp [trim, hlong, hall, hall']

def pastRows {ρ : Type} (key : ρ → Int ×ₗ Nat) (p : ρ → Bool) (rows : List ρ)
    (cursor : Option CommentCursor) : List ρ :=
  (descending key (rows.filter p)).filter fun r =>
    cursor.all fun c => decide (key r < stamp c.createdAt c.id)

theorem descending_cursor {ρ : Type} {key : ρ → Int ×ₗ Nat} {p : ρ → Bool} {rows : List ρ}
    (createdAt : ρ → Int) (id : ρ → Uuid) (hkey : ∀ r, key r = stamp (createdAt r) (id r))
    (hnodup : ((rows.filter p).map key).Nodup) (cursor : Option CommentCursor) :
    descending key (rows.filter fun r =>
        cursor.all (fun c => cursorDesc c (createdAt r) (id r)) && p r) =
      pastRows key p rows cursor := by
  rw [pastRows, ← descending_filter hnodup, List.filter_filter]
  refine congrArg _ (List.filter_congr fun r _ => ?_)
  simp only [cursorDesc_eq, hkey]

theorem nodup_stamp {ρ : Type} {createdAt : ρ → Int} {id : ρ → Uuid} {rows : List ρ}
    (h : (rows.map id).Nodup) (p : ρ → Bool) :
    ((rows.filter p).map fun r => stamp (createdAt r) (id r)).Nodup := by
  have hpicked := h.sublist ((List.filter_sublist (p := p)).map id)
  rw [List.Nodup, List.pairwise_map] at hpicked ⊢
  refine hpicked.imp fun {r x} hne hsame => hne ?_
  have hbits : (id r).bits.toNat = (id x).bits.toNat :=
    congrArg (fun k : Int ×ₗ Nat => (ofLex k).2) hsame
  cases hr : id r with
  | mk b =>
    cases hx : id x with
    | mk b' =>
      rw [hr, hx] at hbits
      exact congrArg Uuid.mk (BitVec.eq_of_toNat_eq hbits)

theorem topLevelCommentScan_eq (quizId : Uuid) (limit : Nat) (cursor : Option CommentCursor) :
    db.topLevelCommentScan quizId limit cursor =
      (((pastRows commentStamp (isTopLevelOf quizId) db.comments.rows cursor).take limit).map db.view,
        decide (limit < (pastRows commentStamp (isTopLevelOf quizId) db.comments.rows cursor).length)) := by
  have hrows : descending commentStamp (db.comments.rows.filter fun row =>
        cursor.all (fun c => cursorDesc c row.createdAt row.commentId) && isTopLevelOf quizId row) =
      pastRows commentStamp (isTopLevelOf quizId) db.comments.rows cursor :=
    descending_cursor _ _ (fun _ => rfl) (nodup_stamp db.comments.nodup _) cursor
  rw [Db.topLevelCommentScan, hrows, trim_take]
  refine congrArg (Prod.mk · _) (map_viewWith fun row hrow => ?_)
  exact List.mem_dedup.mpr (List.mem_map_of_mem hrow)

theorem fullView_of_mem {rows : List CommentRow} {row : CommentRow} (hrow : row ∈ rows)
    (viewerId : Option Uuid) (replyIds : List Uuid) :
    ({ db.view row with
        replies := (db.multiReplyScan (rows.map (·.commentId)) maxRepliesPerComment).filter
          (·.parentCommentId = some row.commentId)
        userVote := lastVote (db.votesOn viewerId (rows.map (·.commentId)) ++
          db.votesOn viewerId replyIds) row.commentId } : CommentWithRepliesView) =
      db.fullView viewerId row := by
  have hid : row.commentId ∈ rows.map (·.commentId) := List.mem_map_of_mem hrow
  rw [filter_multiReplyScan hid, lastVote_votesOn viewerId replyIds hid]
  rfl

theorem listComments_eq (quizId : Uuid) (limit : Nat) (cursor : Option CommentCursor)
    (viewerId : Option Uuid) :
    CommentRepository.listComments db quizId limit cursor viewerId =
      ((pastRows commentStamp (isTopLevelOf quizId) db.comments.rows cursor).take limit).map
        (db.fullView viewerId) := by
  simp only [CommentRepository.listComments, topLevelCommentScan_eq]
  generalize pastRows commentStamp (isTopLevelOf quizId) db.comments.rows cursor = rows
  have htrimmed : (if decide (limit < rows.length) = true then
      ((rows.take limit).map db.view).take limit else (rows.take limit).map db.view) =
        (rows.take limit).map db.view := by
    split
    · rw [← List.map_take, List.take_take, Nat.min_self]
    · rfl
  have hreplyVotes : ∀ replies : List CommentView,
      (if replies.isEmpty = true then [] else db.votesOn viewerId (replies.map (·.id))) =
        db.votesOn viewerId (replies.map (·.id)) := fun replies => by
    cases replies with
    | nil => exact (votesOn_nil viewerId).symm
    | cons reply replies => rfl
  have hids : ((rows.take limit).map db.view).map (·.id) = (rows.take limit).map (·.commentId) := by
    rw [List.map_map]
    rfl
  rw [htrimmed, hids]
  simp only [hreplyVotes]
  cases hempty : ((rows.take limit).map db.view).isEmpty with
  | true =>
    rw [List.map_eq_nil_iff.mp (List.isEmpty_iff.mp hempty)]
    rfl
  | false =>
    rw [if_neg Bool.false_ne_true, List.map_map]
    exact List.map_congr_left fun row hrow => fullView_of_mem db hrow viewerId _

theorem paginatedCommentScan_eq (userId : Uuid) (limit : Nat) (cursor : Option CommentCursor) :
    db.paginatedCommentScan userId limit cursor =
      ((pastRows commentStamp (isBy userId) db.comments.rows cursor).take limit).map db.myView := by
  have hrows : descending commentStamp (db.comments.rows.filter fun row =>
        cursor.all (fun c => cursorDesc c row.createdAt row.commentId) && isBy userId row) =
      pastRows commentStamp (isBy userId) db.comments.rows cursor :=
    descending_cursor _ _ (fun _ => rfl) (nodup_stamp db.comments.nodup _) cursor
  rw [Db.paginatedCommentScan, hrows, trim_take]
  rfl

theorem reportScan_eq (status : Option ReportStatus) (limit : Nat) (cursor : Option CommentCursor) :
    (db.reportScan status limit cursor).1 =
      (pastRows reportStamp (hasStatus status) db.reports.rows cursor).take limit := by
  have hrows : descending reportStamp (db.reports.rows.filter fun r =>
        cursor.all (fun c => cursorDesc c r.createdAt r.reportId) && hasStatus status r) =
      pastRows reportStamp (hasStatus status) db.reports.rows cursor :=
    descending_cursor _ _ (fun _ => rfl) (nodup_stamp db.reports.nodup _) cursor
  rw [Db.reportScan, hrows, trim_take]

/-- Whoever asks for page after page, each of them made of the first rows past the cursor, is given the
whole list. -/
theorem pages_of_pastRows {ρ α : Type} (key : ρ → Int ×ₗ Nat) (p : ρ → Bool) (rows : List ρ)
    (f : ρ → α) (cursorOf : α → CommentCursor) {limit : Nat} (hlimit : 1 ≤ limit)
    (hkey : ∀ r, stamp (cursorOf (f r)).createdAt (cursorOf (f r)).id = key r)
    (hnodup : ((rows.filter p).map key).Nodup)
    {fetch : Option CommentCursor → Except Thrown (List α × Option CommentCursor)}
    (hfetch : ∀ cursor, fetch cursor =
      .ok (lookAhead cursorOf limit (((pastRows key p rows cursor).take (limit + 1)).map f))) :
    PagesInOrder fetch ((descending key (rows.filter p)).map f) := by
  let viewKey : α → Int ×ₗ Nat := fun a => stamp (cursorOf a).createdAt (cursorOf a).id
  have hviews : (descending key (rows.filter p)).map f = descending viewKey ((rows.filter p).map f) := by
    rw [← map_descending]
    exact congrArg (fun k => (descending k (rows.filter p)).map f) (funext hkey).symm
  have hrequest : fetch = request Thrown
      (fun c a => decide (viewKey a < stamp c.createdAt c.id)) cursorOf limit
        (descending viewKey ((rows.filter p).map f)) := by
    funext cursor
    rw [hfetch, request, after, ← hviews, List.filter_map, List.map_take, pastRows]
    simp only [Function.comp_def, viewKey, hkey]
  rw [hrequest, hviews]
  refine pages_descending hlimit (fun _ _ => rfl) ?_
  rw [List.map_map]
  exact (funext hkey : viewKey ∘ f = key) ▸ hnodup

end Pages

/-- **The lists page completely.** From the first page on, following the cursors until none comes, every
list is given in its order, each comment of a quiz with its first replies and the vote of the viewer. -/
theorem lists_page_completely (db : Db) (limit : Option Nat) (hlimit : 1 ≤ limit.getD 20) :
    (∀ quizId viewerId, PagesInOrder (CommentService.listComments db quizId viewerId limit)
      (db.quizComments quizId viewerId)) ∧
    (∀ userId, PagesInOrder (CommentService.listMyComments db userId limit) (db.myComments userId)) ∧
    ∀ status, PagesInOrder (CommentService.listReports db status limit) (db.reportsWith status) := by
  refine ⟨fun quizId viewerId => ?_, fun userId => ?_, fun status => ?_⟩
  · refine pages_of_pastRows commentStamp (isTopLevelOf quizId) db.comments.rows
      (db.fullView viewerId) (fun lastItem => ⟨lastItem.createdAt, lastItem.id⟩) hlimit (fun _ => rfl)
      (nodup_stamp db.comments.nodup _) fun cursor => ?_
    rw [CommentService.listComments, listComments_eq]
  · refine pages_of_pastRows commentStamp (isBy userId) db.comments.rows db.myView
      (fun lastItem => ⟨lastItem.createdAt, lastItem.commentId⟩) hlimit (fun _ => rfl)
      (nodup_stamp db.comments.nodup _) fun cursor => ?_
    rw [CommentService.listMyComments, CommentRepository.listMyComments, paginatedCommentScan_eq]
  · rw [Db.reportsWith, ← List.map_id (descending reportStamp _)]
    refine pages_of_pastRows reportStamp (hasStatus status) db.reports.rows id
      (fun lastItem => ⟨lastItem.createdAt, lastItem.reportId⟩) hlimit (fun _ => rfl)
      (nodup_stamp db.reports.nodup _) fun cursor => ?_
    rw [CommentService.listReports, CommentRepository.listReports, reportScan_eq, List.map_id]

/-- Two comments on a quiz; the older one has a reply and the vote of a viewer. -/
def twoComments : Db where
  comments := ⟨[newComment 20 7 1 none "Nice one" 5, newComment 21 7 2 none "Too short" 6,
    newComment 22 7 2 (some 20) "It is" 8], by decide⟩
  votes := ⟨[⟨3, 20, .upvote, 9⟩], by decide⟩
  reports := Table.empty _
  users := ⟨[⟨1, "ada"⟩, ⟨2, "kurt"⟩], by decide⟩
  profiles := Table.empty _
  quizzes := ⟨[⟨7, "Capitals"⟩], by decide⟩

/-- The viewer reads them one a page. -/
theorem lists_page_completely_singly :
    PagesInOrder (CommentService.listComments twoComments 7 (some 3) (some 1))
      (twoComments.quizComments 7 (some 3)) ∧
    (twoComments.quizComments 7 (some 3)).map (fun c => (c.id, c.replies.map (·.id), c.userVote)) =
      [(21, [], none), (20, [22], some .upvote)] :=
  ⟨(lists_page_completely twoComments (some 1) (Nat.le_refl 1)).1 7 (some 3), by decide⟩

end QuizBackend.Comment.Listing
