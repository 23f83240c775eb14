import QuizBackend.Comment.Repository

/-!
# `CommentService`

The requests that change comments, as programs over the statements of the repository. A statement is
issued on the handle the source gives it: the transaction's, or, where the repository method takes no
`tx`, the plain one of the pool. `countReplies` and the repository's `editComment` are of that kind.
-/

namespace QuizBackend.Comment

open Lib

/-! ## Errors -/

/-- The exceptions of the module. -/
inductive CommentError where
  | commentNotFound (commentId : Uuid)
  | forbidden
  | quizNotFound (quizId : Uuid)
  | parentCommentCrossThread
  | replyLimitExceeded (maxReplies : Nat)
  | selfVote
  | selfParent
  | conflict (message : String)
  | reportNotFound (reportId : Uuid)
  | moderatorRequired

/-- What a request throws: an exception of the module, or a plain `Error` of the repository. -/
inductive Thrown where
  | domain (e : CommentError)
  | error (message : String)

def maxRepliesPerComment : Nat := 100

inductive UserRole where
  | user
  | moderator
  | admin

/-- `assertModerator`. -/
def UserRole.canModerate : UserRole → Bool
  | user => false
  | moderator | admin => true

/-! ## Programs -/

section Programs

variable {rejectsNullableLock : Bool}

/-- A request of the module, statement by statement. -/
abbrev CommentProgram (rejectsNullableLock : Bool) (α : Type) : Type :=
  Program (commentEngine rejectsNullableLock) Thrown α

/-- A statement on the transaction's connection. -/
def inTx (q : Statement) : CommentProgram rejectsNullableLock q.Reply :=
  Program.ask (E := commentEngine rejectsNullableLock) .tx q

/-- A statement on another connection of the pool. -/
def onDb (q : Statement) : CommentProgram rejectsNullableLock q.Reply :=
  Program.ask (E := commentEngine rejectsNullableLock) .db q

/-- Throws where the condition fails. -/
def throwUnless (b : Bool) (e : CommentError) : CommentProgram rejectsNullableLock Unit :=
  Program.require b (.domain e)

/-- Throws where nothing was found. -/
def orThrow {α : Type} (o : Option α) (e : CommentError) : CommentProgram rejectsNullableLock α :=
  Program.orThrow o (.domain e)

/-- Neither hidden nor deleted. -/
def CommentRow.isVisible (row : CommentRow) : Bool := !row.isHidden && row.notDeleted

/-! ### The repository -/

namespace Repo

def exists_ (quizId : Uuid) : CommentProgram rejectsNullableLock Bool := onDb (.quizExists quizId)

def getCommentByIdForUpdate (commentId : Uuid) :
    CommentProgram rejectsNullableLock (Option CommentRow) :=
  inTx (.getCommentByIdForUpdate commentId)

def getCommentById (commentId : Uuid) : CommentProgram rejectsNullableLock (Option CommentRow) :=
  onDb (.getCommentById commentId)

/-- Counts outside the transaction that holds the parent. -/
def countReplies (parentCommentId : Uuid) : CommentProgram rejectsNullableLock Nat :=
  onDb (.countReplies parentCommentId)

def createComment (commentId quizId authorId : Uuid) (parentCommentId : Option Uuid) (body : String)
    (now : Int) : CommentProgram rejectsNullableLock CommentRow :=
  inTx (.createComment commentId quizId authorId parentCommentId body now)

def softDeleteComment (commentId authorId : Uuid) (now : Int) :
    CommentProgram rejectsNullableLock Bool :=
  inTx (.softDeleteComment commentId authorId now)

def setHiddenState (commentId : Uuid) (hidden : Bool) (moderatorId : Uuid) (now : Int) :
    CommentProgram rejectsNullableLock Unit :=
  inTx (.setHiddenState commentId hidden moderatorId now)

def incrementVoteCount (commentId : Uuid) (deltaUpvotes deltaDownvotes now : Int) :
    CommentProgram rejectsNullableLock VoteCounts :=
  inTx (.incrementVoteCount commentId deltaUpvotes deltaDownvotes now)

def incrementRepliesCount (commentId : Uuid) (delta now : Int) :
    CommentProgram rejectsNullableLock Unit :=
  inTx (.incrementRepliesCount commentId delta now)

section

variable (userId commentId : Uuid)

def upsertVote (value : VoteValue) (now : Int) :
    CommentProgram rejectsNullableLock Unit :=
  inTx (.upsertVote userId commentId value now)

def removeVote : CommentProgram rejectsNullableLock Unit :=
  inTx (.removeVote userId commentId)

def getUserVoteForComment :
    CommentProgram rejectsNullableLock (Option VoteValue) :=
  inTx (.getUserVoteForComment userId commentId)

end

/-- The one query that both kinds of callers use. -/
def getAuthorForComment (handle : Handle) (commentId : Uuid) :
    CommentProgram rejectsNullableLock (Option Uuid) :=
  Program.ask (E := commentEngine rejectsNullableLock) handle (.getAuthorForComment commentId)

def getReportByIdForUpdate (reportId : Uuid) :
    CommentProgram rejectsNullableLock (Option ReportRow) :=
  inTx (.getReportByIdForUpdate reportId)

def reviewReport (reportId reviewerId : Uuid) (status : ReviewReportStatus) (actionTaken : Bool)
    (now : Int) : CommentProgram rejectsNullableLock ReportRow := do
  let updated : Option ReportRow ←
    inTx (.reviewReport reportId reviewerId status actionTaken now)
  Program.orThrow updated (.error "Report not found")

/-- The `UPDATE` of `editComment`, which takes no `tx`. -/
def updateBody (commentId authorId : Uuid) (body : String) (expectedUpdatedAt : Option Int)
    (now : Int) : CommentProgram rejectsNullableLock (Option CommentRow) :=
  onDb (.editComment commentId authorId body expectedUpdatedAt now)

/-- Why nothing was updated. -/
def existsForEdit (commentId : Uuid) : CommentProgram rejectsNullableLock Bool :=
  onDb (.existsForEdit commentId)

/-- `commentRepository.editComment`, outside its caller's transaction. -/
def editComment (commentId authorId : Uuid) (body : String) (expectedUpdatedAt : Option Int)
    (now : Int) : CommentProgram rejectsNullableLock CommentRow := do
  let updated ← updateBody commentId authorId body expectedUpdatedAt now
  match updated with
  | some row => pure row
  | none =>
    let found ← existsForEdit commentId
    if found then .fail (.error "Comment not found or not authorized")
    else .fail (.error "Comment not found")

def logInsideTx (row : AuditRow) : CommentProgram rejectsNullableLock Unit := inTx (.logInsideTx row)

end Repo

/-! ### The service -/

/-- What `createComment` requires of the parent, under its lock. -/
def lockParent (quizId authorId parentCommentId : Uuid) :
    CommentProgram rejectsNullableLock Unit := do
  let found ← Repo.getCommentByIdForUpdate parentCommentId
  let parent ← orThrow found (.commentNotFound parentCommentId)
  throwUnless (parent.quizId == quizId) .parentCommentCrossThread
  throwUnless parent.parentCommentId.isNone .parentCommentCrossThread
  throwUnless parent.isVisible (.commentNotFound parentCommentId)
  throwUnless (parent.authorId != authorId) .selfParent
  let replyCount ← Repo.countReplies parentCommentId
  throwUnless (decide (replyCount < maxRepliesPerComment))
    (.replyLimitExceeded maxRepliesPerComment)

/-- The transaction of `createComment`. -/
def insertComment (commentId quizId authorId : Uuid) (parentCommentId : Option Uuid) (body : String)
    (now : Int) : CommentProgram rejectsNullableLock CommentRow := do
  parentCommentId.forM fun p => lockParent quizId authorId p
  let comment ← Repo.createComment commentId quizId authorId parentCommentId body now
  parentCommentId.forM fun p => Repo.incrementRepliesCount p 1 now
  let author ← Repo.getAuthorForComment .tx comment.commentId
  let _ ← orThrow author (.commentNotFound comment.commentId)
  pure comment

/-- The quiz is looked up before the transaction. -/
def createComment (commentId quizId authorId : Uuid) (parentCommentId : Option Uuid) (body : String)
    (now : Int) : CommentProgram rejectsNullableLock CommentRow := do
  let quizExists ← Repo.exists_ quizId
  throwUnless quizExists (.quizNotFound quizId)
  .transactionally (insertComment commentId quizId authorId parentCommentId body now)

def editComment (commentId authorId : Uuid) (body : String) (expectedUpdatedAt : Option Int)
    (now : Int) : CommentProgram rejectsNullableLock CommentRow :=
  .transactionally do
    let found ← Repo.getCommentByIdForUpdate commentId
    let existing ← orThrow found (.commentNotFound commentId)
    throwUnless (existing.authorId == authorId) .forbidden
    throwUnless existing.isVisible (.commentNotFound commentId)
    throwUnless (expectedUpdatedAt.all fun t => existing.updatedAt == t)
      (.conflict "Comment was modified concurrently; please refetch and retry")
    let updated ← Repo.editComment commentId authorId body expectedUpdatedAt now
    let author ← Repo.getAuthorForComment .tx updated.commentId
    let _ ← orThrow author (.commentNotFound updated.commentId)
    pure updated

/-- A reply takes itself off the count of its parent. -/
def deleteComment (commentId authorId : Uuid) (now : Int) :
    CommentProgram rejectsNullableLock Unit :=
  .transactionally do
    let found ← Repo.getCommentByIdForUpdate commentId
    let comment ← orThrow found (.commentNotFound commentId)
    throwUnless (comment.authorId == authorId) .forbidden
    if comment.notDeleted then
      let deleted ← Repo.softDeleteComment commentId authorId now
      throwUnless deleted (.commentNotFound commentId)
      comment.parentCommentId.forM fun p => Repo.incrementRepliesCount p (-1) now
    else pure ()

/-- Its share of the upvotes. -/
def VoteValue.ups : VoteValue → Int
  | upvote => 1
  | downvote => 0

/-- Its share of the downvotes. -/
def VoteValue.downs : VoteValue → Int
  | upvote => 0
  | downvote => 1

/-- The same vote again takes it back; the other one turns it. -/
def vote (userId commentId : Uuid) (value : VoteValue) (now : Int) :
    CommentProgram rejectsNullableLock VoteCounts :=
  .transactionally do
    let found ← Repo.getCommentByIdForUpdate commentId
    let comment ← orThrow found (.commentNotFound commentId)
    throwUnless comment.isVisible (.commentNotFound commentId)
    throwUnless (comment.authorId != userId) .selfVote
    let existing ← Repo.getUserVoteForComment userId commentId
    if existing = some value then
      Repo.removeVote userId commentId
      Repo.incrementVoteCount commentId (if value = .upvote then -1 else 0)
        (if value = .downvote then -1 else 0) now
    else if existing ≠ none then
      Repo.upsertVote userId commentId value now
      Repo.incrementVoteCount commentId (if value = .upvote then 1 else -1)
        (if value = .upvote then -1 else 1) now
    else
      Repo.upsertVote userId commentId value now
      Repo.incrementVoteCount commentId (if value = .upvote then 1 else 0)
        (if value = .downvote then 1 else 0) now

def removeVote (userId commentId : Uuid) (now : Int) :
    CommentProgram rejectsNullableLock (Option VoteCounts) :=
  .transactionally do
    let found ← Repo.getCommentByIdForUpdate commentId
    let comment ← orThrow found (.commentNotFound commentId)
    throwUnless comment.isVisible (.commentNotFound commentId)
    let existing ← Repo.getUserVoteForComment userId commentId
    match existing with
    | none => pure none
    | some existing =>
      let counts ← Repo.incrementVoteCount commentId (if existing = .upvote then -1 else 0)
        (if existing = .downvote then -1 else 0) now
      Repo.removeVote userId commentId
      pure (some counts)

/-- `changed` says whether the comment was not so before. -/
structure ModerationResult where
  commentId : Uuid
  isHidden : Bool
  changed : Bool

/-- The answer is read after the commit. -/
def readBack (commentId : Uuid) : CommentProgram rejectsNullableLock Unit := do
  let found ← Repo.getCommentById commentId
  let comment ← orThrow found (.commentNotFound commentId)
  let author ← Repo.getAuthorForComment .db comment.commentId
  let _ ← orThrow author (.commentNotFound comment.commentId)

def hideComment (commentId moderatorId : Uuid) (role : UserRole) (now : Int) :
    CommentProgram rejectsNullableLock ModerationResult := do
  throwUnless role.canModerate .moderatorRequired
  let wasHidden ← .transactionally do
    let found ← Repo.getCommentByIdForUpdate commentId
    let comment ← orThrow found (.commentNotFound commentId)
    throwUnless comment.notDeleted (.commentNotFound commentId)
    if comment.isHidden then pure true
    else
      Repo.setHiddenState commentId true moderatorId now
      Repo.logInsideTx ⟨moderatorId, .hideComment, commentId, none, now⟩
      pure false
  readBack commentId
  pure ⟨commentId, true, !wasHidden⟩

def restoreComment (commentId moderatorId : Uuid) (role : UserRole) (now : Int) :
    CommentProgram rejectsNullableLock ModerationResult := do
  throwUnless role.canModerate .moderatorRequired
  let wasVisible ← .transactionally do
    let found ← Repo.getCommentByIdForUpdate commentId
    let comment ← orThrow found (.commentNotFound commentId)
    if comment.isHidden then
      Repo.setHiddenState commentId false moderatorId now
      Repo.logInsideTx ⟨moderatorId, .restoreComment, commentId, none, now⟩
      pure false
    else pure true
  readBack commentId
  -- `changed: wasVisible`, where hiding answers the negation
  pure ⟨commentId, false, wasVisible⟩

def reviewReport (reportId reviewerId : Uuid) (status : ReviewReportStatus) (actionTaken : Bool)
    (now : Int) : CommentProgram rejectsNullableLock (ReportRow × ReportStatus) :=
  .transactionally do
    let found ← Repo.getReportByIdForUpdate reportId
    let previous ← orThrow found (.reportNotFound reportId)
    let updated ← Repo.reviewReport reportId reviewerId status actionTaken now
    Repo.logInsideTx ⟨reviewerId, .reviewReport, updated.commentId, some status, now⟩
    pure (updated, previous.status)

end Programs

/-! ## Requests -/

/-- The requests that change comments, with what they draw. -/
inductive Request where
  | createComment (commentId quizId authorId : Uuid) (parentCommentId : Option Uuid) (body : String)
      (now : Int)
  | editComment (commentId authorId : Uuid) (body : String) (expectedUpdatedAt : Option Int)
      (now : Int)
  | deleteComment (commentId authorId : Uuid) (now : Int)
  | vote (userId commentId : Uuid) (value : VoteValue) (now : Int)
  | removeVote (userId commentId : Uuid) (now : Int)
  | hideComment (commentId moderatorId : Uuid) (role : UserRole) (now : Int)
  | restoreComment (commentId moderatorId : Uuid) (role : UserRole) (now : Int)
  | reviewReport (reportId reviewerId : Uuid) (status : ReviewReportStatus) (actionTaken : Bool)
      (now : Int)

/-- What they answer. -/
inductive Value where
  | comment (row : CommentRow)
  | deleted
  | counts (counts : Option VoteCounts)
  | moderated (result : ModerationResult)
  | reviewed (updated : ReportRow) (previousStatus : ReportStatus)

def Request.program (rejectsNullableLock : Bool) :
    Request → CommentProgram rejectsNullableLock Value
  | .createComment commentId quizId authorId parentCommentId body now => do
    let comment ← Comment.createComment commentId quizId authorId parentCommentId body now
    pure (.comment comment)
  | .editComment commentId authorId body expectedUpdatedAt now => do
    let comment ← Comment.editComment commentId authorId body expectedUpdatedAt now
    pure (.comment comment)
  | .deleteComment commentId authorId now => do
    Comment.deleteComment commentId authorId now
    pure .deleted
  | .vote userId commentId value now => do
    let counts ← Comment.vote userId commentId value now
    pure (.counts (some counts))
  | .removeVote userId commentId now => do
    let counts ← Comment.removeVote userId commentId now
    pure (.counts counts)
  | .hideComment commentId moderatorId role now => do
    let result ← Comment.hideComment commentId moderatorId role now
    pure (.moderated result)
  | .restoreComment commentId moderatorId role now => do
    let result ← Comment.restoreComment commentId moderatorId role now
    pure (.moderated result)
  | .reviewReport reportId reviewerId status actionTaken now => do
    let (updated, previousStatus) ← Comment.reviewReport reportId reviewerId status actionTaken now
    pure (.reviewed updated previousStatus)

/-- What other modules do to the rows that comments refer to. -/
inductive Outside where
  | setQuizzes (quizzes : List Uuid)
  | setUsers (users : List Uuid)

def Outside.apply : Outside → Store → Store
  | setQuizzes quizzes, s => { s with quizzes }
  | setUsers users, s => { s with users }

abbrev CommentSystem (rejectsNullableLock : Bool) : Type :=
  TxSystem (commentEngine rejectsNullableLock) Thrown Value

abbrev CommentSystem.step (rejectsNullableLock : Bool) :
    CommentSystem rejectsNullableLock → TxAction Request Outside →
      Option (CommentSystem rejectsNullableLock) :=
  TxSystem.step (Request.program rejectsNullableLock) Outside.apply

def threeUsers : Store := ⟨Table.empty _, Table.empty _, Table.empty _, [1, 2, 3], [7], []⟩

/-! ## Rules -/

variable {q : Statement} {e : CommentError} {Q : Unit → List RowLock → List Write → Store → Prop}
  {commentId authorId moderatorId : Uuid} {now : Int}

section Rules

variable {rejectsNullableLock : Bool} {C : Contract (commentEngine rejectsNullableLock)} {α : Type}
  {locks : List RowLock} {writes : List Write} {s : Store}

theorem wp_inTx {Q : q.Reply → List RowLock → List Write → Store → Prop} :
    C.wp (inTx q) Q locks writes s ↔
      ∀ s' : Store, C.Agree locks s s' → C.inv s' →
        C.due q ((commentEngine rejectsNullableLock).writes s' writes) ∧
          ∀ e, Store.exec ((commentEngine rejectsNullableLock).writes s' writes)
            rejectsNullableLock q = some e →
              Q e.reply (locks ++ e.locks) (writes ++ e.writes) s' := Iff.rfl

theorem wp_onDb {Q : q.Reply → List RowLock → List Write → Store → Prop} :
    C.wp (onDb q) Q locks writes s ↔
      ∀ s' : Store, C.Agree locks s s' → C.inv s' → C.due q s' ∧
        ∀ e, Store.exec s' rejectsNullableLock q = some e → (∀ l ∈ e.locks, l ∉ locks) →
          C.Keeps e.locks s' ((commentEngine rejectsNullableLock).writes s' e.writes) ∧
            Q e.reply locks writes
              ((commentEngine rejectsNullableLock).writes s' e.writes) := Iff.rfl

theorem wp_throwUnless {b : Bool} :
    C.wp (throwUnless b e) Q locks writes s ↔ (b = true → Q () locks writes s) :=
  Contract.wp_require

theorem wp_orThrow {o : Option α} {Q : α → List RowLock → List Write → Store → Prop} :
    C.wp (orThrow o e) Q locks writes s ↔ ∀ a, o = some a → Q a locks writes s :=
  Contract.wp_orThrow

theorem wp_lockComment {β : Type} {f : CommentRow → CommentProgram rejectsNullableLock β}
    {Q : β → List RowLock → List Write → Store → Prop}
    (hdue : ∀ t, C.due (.getCommentByIdForUpdate commentId) t)
    (h : ∀ (s' : Store) (row : CommentRow), C.inv s' → s'.comments.find? commentId = some row →
      C.wp (f row) Q [.comment commentId] [] s') :
    C.wp (do
      let found ← Repo.getCommentByIdForUpdate commentId
      let row ← orThrow found e
      f row) Q [] [] s := by
  rw [Contract.wp_bind]
  refine wp_inTx.mpr fun s' _ hinv => ?_
  refine ⟨hdue _, fun effect heffect => ?_⟩
  obtain rfl := exec_getCommentByIdForUpdate heffect
  rw [Contract.wp_bind, wp_orThrow]
  intro row hrow
  have hfind : s'.comments.find? commentId = some row := hrow
  show C.wp (f row) Q (if (s'.comments.find? commentId).isSome then [.comment commentId] else [])
    [] s'
  rw [hfind]
  exact h s' row hinv hfind

abbrev seen (rejectsNullableLock : Bool) (s : Store) (writes : List Write) : Store :=
  (commentEngine rejectsNullableLock).writes s writes

/-- The counters of votes are the only thing that a statement relies on, the lock of a comment keeps its
row, and hiding a comment is nothing to the others. -/
structure KeepsRows (C : Contract (commentEngine rejectsNullableLock)) : Prop where
  due : ∀ (q : Statement) (t : Store), q.isVoteIncrement = false → C.due q t
  find? : ∀ {locks : List RowLock} {s t : Store} {commentId : Uuid}, C.Agree locks s t →
    RowLock.comment commentId ∈ locks → t.comments.find? commentId = s.comments.find? commentId
  of_eq : ∀ {locks : List RowLock} {s t t' : Store}, C.Keeps locks s t →
    t'.comments = t.comments → t'.votes = t.votes → C.Keeps locks s t'
  withHidden : ∀ {locks : List RowLock} {s : Store} {row : CommentRow} (hidden : Bool)
    (moderatorId : Uuid) (now : Int), C.inv s → s.comments.find? row.commentId = some row →
      RowLock.comment row.commentId ∈ locks →
        C.Keeps locks s (s.write (.comment (row.withHidden hidden moderatorId now)))

theorem wp_getUserVoteForComment {userId : Uuid}
    {Q : Option VoteValue → List RowLock → List Write → Store → Prop}
    (h : ∀ s' : Store, C.Agree locks s s' → C.inv s' →
      C.due (.getUserVoteForComment userId commentId) (seen rejectsNullableLock s' writes) ∧
      Q (((seen rejectsNullableLock s' writes).votes.find? (userId, commentId)).map
        VoteRow.value) locks writes s') :
    C.wp (Repo.getUserVoteForComment userId commentId) Q locks writes s := by
  refine wp_inTx.mpr fun s' hagree hinv => ⟨(h s' hagree hinv).1, fun e he => ?_⟩
  obtain rfl := Option.some.inj he
  show Q _ (locks ++ []) (writes ++ []) s'
  rw [List.append_nil, List.append_nil]
  exact (h s' hagree hinv).2

theorem wp_upsertVote {userId : Uuid} {value : VoteValue}
    (h : ∀ s' : Store, C.Agree locks s s' → C.inv s' →
      C.due (.upsertVote userId commentId value now) (seen rejectsNullableLock s' writes) ∧
      Q () (locks ++ [.vote (userId, commentId)])
        (writes ++ [.vote ⟨userId, commentId, value, now⟩]) s') :
    C.wp (Repo.upsertVote userId commentId value now) Q locks writes s := by
  refine wp_inTx.mpr fun s' hagree hinv => ⟨(h s' hagree hinv).1, fun e he => ?_⟩
  obtain rfl := Option.some.inj he
  exact (h s' hagree hinv).2

theorem wp_removeVote {userId : Uuid}
    (h : ∀ s' : Store, C.Agree locks s s' → C.inv s' →
      C.due (.removeVote userId commentId) (seen rejectsNullableLock s' writes) ∧ ∀ more,
      Q () (locks ++ more) (writes ++ [.unvote (userId, commentId)]) s') :
    C.wp (Repo.removeVote userId commentId) Q locks writes s := by
  refine wp_inTx.mpr fun s' hagree hinv => ⟨(h s' hagree hinv).1, fun e he => ?_⟩
  obtain rfl := Option.some.inj he
  exact (h s' hagree hinv).2 _

theorem wp_incrementVoteCount {deltaUpvotes deltaDownvotes : Int}
    {Q : VoteCounts → List RowLock → List Write → Store → Prop}
    (h : ∀ s' : Store, C.Agree locks s s' → C.inv s' →
      C.due (.incrementVoteCount commentId deltaUpvotes deltaDownvotes now) (seen rejectsNullableLock s' writes) ∧ ∃ row,
        (seen rejectsNullableLock s' writes).comments.find? commentId = some row ∧
        ∀ counts, Q counts (locks ++ [.comment commentId])
          (writes ++ [.comment (row.withVotes deltaUpvotes deltaDownvotes now)]) s') :
    C.wp (Repo.incrementVoteCount commentId deltaUpvotes deltaDownvotes now) Q locks writes s := by
  refine wp_inTx.mpr fun s' hagree hinv => ⟨(h s' hagree hinv).1, fun e he => ?_⟩
  obtain ⟨-, row, hrow, hnext⟩ := h s' hagree hinv
  obtain ⟨hlocks, hwrites⟩ := exec_incrementVoteCount hrow he
  rw [hlocks, hwrites]
  exact hnext e.reply

theorem wp_incrementRepliesCount {delta : Int}
    (h : ∀ s' : Store, C.Agree locks s s' → C.inv s' →
      C.due (.incrementRepliesCount commentId delta now) (seen rejectsNullableLock s' writes) ∧
      ((seen rejectsNullableLock s' writes).comments.find? commentId = none →
      Q () locks writes s') ∧ ∀ row,
      (seen rejectsNullableLock s' writes).comments.find? commentId = some row →
      Q () (locks ++ [.comment commentId]) (writes ++ [.comment (row.withReplies delta now)]) s') :
    C.wp (Repo.incrementRepliesCount commentId delta now) Q locks writes s := by
  refine wp_inTx.mpr fun s' hagree hinv => ⟨(h s' hagree hinv).1, fun e he => ?_⟩
  obtain ⟨-, hnone, hsome⟩ := h s' hagree hinv
  cases hrow : (seen rejectsNullableLock s' writes).comments.find? commentId with
  | none =>
    obtain ⟨hlocks, hwrites⟩ := exec_incrementRepliesCount_none hrow he
    rw [hlocks, hwrites, List.append_nil, List.append_nil]
    exact hnone hrow
  | some row =>
    obtain ⟨hlocks, hwrites⟩ := exec_incrementRepliesCount hrow he
    rw [hlocks, hwrites]
    exact hsome row hrow

theorem wp_softDeleteComment {Q : Bool → List RowLock → List Write → Store → Prop}
    (h : ∀ s' : Store, C.Agree locks s s' → C.inv s' →
      C.due (.softDeleteComment commentId authorId now) (seen rejectsNullableLock s' writes) ∧
      ∃ row, (seen rejectsNullableLock s' writes).comments.find? commentId = some row ∧
      row.authorId = authorId ∧ ∀ deleted,
      Q deleted (locks ++ [.comment commentId]) (writes ++ [.comment (row.withDeleted now)]) s') :
    C.wp (Repo.softDeleteComment commentId authorId now) Q locks writes s := by
  refine wp_inTx.mpr fun s' hagree hinv => ⟨(h s' hagree hinv).1, fun e he => ?_⟩
  obtain ⟨-, row, hrow, hauthor, hnext⟩ := h s' hagree hinv
  obtain ⟨hlocks, hwrites⟩ := exec_softDeleteComment hrow hauthor he
  rw [hlocks, hwrites]
  exact hnext e.reply

theorem wp_setHiddenState {hidden : Bool}
    (h : ∀ s' : Store, C.Agree locks s s' → C.inv s' →
      C.due (.setHiddenState commentId hidden moderatorId now) (seen rejectsNullableLock s' writes) ∧ ∃ row,
        (seen rejectsNullableLock s' writes).comments.find? commentId = some row ∧
        Q () (locks ++ [.comment commentId])
          (writes ++ [.comment (row.withHidden hidden moderatorId now)]) s') :
    C.wp (Repo.setHiddenState commentId hidden moderatorId now) Q locks writes s := by
  refine wp_inTx.mpr fun s' hagree hinv => ⟨(h s' hagree hinv).1, fun e he => ?_⟩
  obtain ⟨-, row, hrow, hnext⟩ := h s' hagree hinv
  obtain ⟨hlocks, hwrites⟩ := exec_setHiddenState hrow he
  rw [hlocks, hwrites]
  exact hnext

theorem wp_createComment {quizId : Uuid} {parentCommentId : Option Uuid} {body : String}
    {Q : CommentRow → List RowLock → List Write → Store → Prop}
    (h : ∀ s' : Store, C.Agree locks s s' → C.inv s' →
      C.due (.createComment commentId quizId authorId parentCommentId body now) (seen rejectsNullableLock s' writes) ∧
        ((seen rejectsNullableLock s' writes).comments.find? commentId = none →
        Q (newComment commentId quizId authorId parentCommentId body now) (locks ++ [.comment commentId])
          (writes ++ [.comment (newComment commentId quizId authorId parentCommentId body now)]) s')) :
    C.wp (Repo.createComment commentId quizId authorId parentCommentId body now) Q locks writes
      s := by
  refine wp_inTx.mpr fun s' hagree hinv => ⟨(h s' hagree hinv).1, fun e he => ?_⟩
  obtain ⟨hfresh, rfl⟩ := exec_createComment he
  exact (h s' hagree hinv).2 hfresh

theorem wp_logInsideTx {row : AuditRow}
    (h : ∀ s' : Store, C.Agree locks s s' → C.inv s' →
      C.due (.logInsideTx row) (seen rejectsNullableLock s' writes) ∧
      Q () locks (writes ++ [.audit row]) s') :
    C.wp (Repo.logInsideTx row) Q locks writes s := by
  refine wp_inTx.mpr fun s' hagree hinv => ⟨(h s' hagree hinv).1, fun e he => ?_⟩
  simp only [Store.exec] at he
  split at he
  · obtain rfl := Option.some.inj he
    show Q () (locks ++ []) _ s'
    rw [List.append_nil]
    exact (h s' hagree hinv).2
  · cases he

theorem wp_getAuthorForComment_tx {Q : Option Uuid → List RowLock → List Write → Store → Prop}
    (h : ∀ s' : Store, C.Agree locks s s' → C.inv s' →
      C.due (.getAuthorForComment commentId) (seen rejectsNullableLock s' writes) ∧ ∀ author,
      Q author locks writes s') :
    C.wp (Repo.getAuthorForComment .tx commentId) Q locks writes s := by
  refine wp_inTx.mpr fun s' hagree hinv => ⟨(h s' hagree hinv).1, fun e he => ?_⟩
  obtain rfl := Option.some.inj he
  show Q _ (locks ++ []) (writes ++ []) s'
  rw [List.append_nil, List.append_nil]
  exact (h s' hagree hinv).2 _

theorem wp_onDb_select {Q : q.Reply → List RowLock → List Write → Store → Prop}
    (hread : ∀ s' : Store, ∃ reply, s'.exec rejectsNullableLock q = some ⟨reply, [], []⟩)
    (h : ∀ s' : Store, C.Agree locks s s' → C.inv s' → C.due q s' ∧ ∀ reply,
      s'.exec rejectsNullableLock q = some ⟨reply, [], []⟩ → Q reply locks writes s') :
    C.wp (onDb q) Q locks writes s := by
  refine wp_onDb.mpr fun s' hagree hinv => ⟨(h s' hagree hinv).1, fun e he _ => ?_⟩
  obtain ⟨reply, hreply⟩ := hread s'
  obtain rfl := Option.some.inj (hreply.symm.trans he)
  exact ⟨⟨hinv, fun _ _ => rfl⟩, (h s' hagree hinv).2 reply he⟩

theorem wp_lockParent {quizId parentCommentId : Uuid} (hC : KeepsRows C)
    (h : ∀ (s' : Store) (parent : CommentRow), C.inv s' →
      s'.comments.find? parentCommentId = some parent → parent.quizId = quizId →
      parent.parentCommentId = none → ∀ s'' : Store, C.Agree [.comment parentCommentId] s' s'' →
      C.inv s'' → s''.replies parentCommentId < maxRepliesPerComment →
      Q () [.comment parentCommentId] [] s'') :
    C.wp (lockParent quizId authorId parentCommentId) Q [] [] s := by
  refine wp_lockComment (fun t => hC.due _ t rfl) fun s' parent hinv hrow => ?_
  rw [Contract.wp_bind, wp_throwUnless]
  intro hquiz
  rw [Contract.wp_bind, wp_throwUnless]
  intro htop
  rw [Contract.wp_bind, wp_throwUnless]
  intro _
  rw [Contract.wp_bind, wp_throwUnless]
  intro _
  rw [Contract.wp_bind]
  refine wp_onDb_select (fun _ => ⟨_, rfl⟩) fun s'' hagree hinv'' => ⟨hC.due _ _ rfl, ?_⟩
  intro replyCount hcount
  obtain rfl : s''.replies parentCommentId = replyCount :=
    congrArg Effect.reply (Option.some.inj hcount)
  rw [wp_throwUnless]
  intro hbelow
  exact h s' parent hinv hrow (beq_iff_eq.mp hquiz) (Option.isNone_iff_eq_none.mp htop) s'' hagree
    hinv'' (of_decide_eq_true hbelow)

theorem wp_readBack (hC : KeepsRows C) (hQ : ∀ s, Q () [] [] s) :
    C.wp (readBack commentId) Q [] [] s := by
  rw [readBack, Contract.wp_bind]
  refine wp_onDb_select (fun _ => ⟨_, rfl⟩) fun s₁ _ _ => ⟨hC.due _ _ rfl, fun found _ => ?_⟩
  rw [Contract.wp_bind, wp_orThrow]
  intro comment _
  rw [Contract.wp_bind]
  refine wp_onDb_select (fun _ => ⟨_, rfl⟩) fun s₂ _ _ => ⟨hC.due _ _ rfl, fun author _ => ?_⟩
  rw [Contract.wp_bind, wp_orThrow]
  intro _ _
  exact hQ _

theorem wp_author {Q : CommentRow → List RowLock → List Write → Store → Prop}
    {comment : CommentRow} (hC : KeepsRows C) (h : C.Settles Q comment locks writes s) :
    C.wp (do
      let author ← Repo.getAuthorForComment .tx comment.commentId
      let _ ← orThrow author (.commentNotFound comment.commentId)
      pure comment) (C.Settles Q) locks writes s := by
  rw [Contract.wp_bind]
  refine wp_getAuthorForComment_tx fun t hagree _ => ⟨hC.due _ _ rfl, fun author => ?_⟩
  rw [Contract.wp_bind, wp_orThrow]
  intro _ _
  exact h.of_agree hagree

/-! ### Requests that move neither votes nor replies -/

theorem wp_editComment {body : String} {expectedUpdatedAt : Option Int}
    {Q : CommentRow → List RowLock → List Write → Store → Prop} (hC : KeepsRows C) :
    C.wp (editComment commentId authorId body expectedUpdatedAt now) Q [] [] s := by
  rw [editComment, Contract.wp_transactionally]
  refine wp_lockComment (fun t => hC.due _ t rfl) fun s₁ row _ _ => ?_
  rw [Contract.wp_bind, wp_throwUnless]
  intro _
  rw [Contract.wp_bind, wp_throwUnless]
  intro _
  rw [Contract.wp_bind, wp_throwUnless]
  intro _
  rw [Contract.wp_bind, Repo.editComment, Contract.wp_bind]
  refine wp_onDb.mpr fun s₂ _ hinv => ⟨hC.due _ _ rfl, fun e he hfree => ?_⟩
  have hnothing : e = ⟨none, [], []⟩ := by
    simp only [Store.exec] at he
    split at he
    · obtain rfl := Option.some.inj he
      unfold Store.updateComment at hfree ⊢
      split at hfree
      · rfl
      · exact absurd (List.mem_singleton.mpr rfl) (hfree _ (List.mem_singleton.mpr rfl))
    · cases he
  rw [hnothing]
  refine ⟨⟨hinv, fun _ _ => rfl⟩, ?_⟩
  show C.wp (Repo.existsForEdit commentId >>= _) _ _ _ _
  rw [Contract.wp_bind]
  refine wp_onDb_select (fun _ => ⟨_, rfl⟩) fun s₃ _ _ => ⟨hC.due _ _ rfl, fun found _ => ?_⟩
  cases found with
  | true | false => trivial

theorem wp_moderate {Q : Bool → List RowLock → List Write → Store → Prop} {hidden b : Bool}
    {audit : AuditRow} {row : CommentRow} (hC : KeepsRows C) (hQ : ∀ s, Q b [] [] s)
    (hrow : s.comments.find? commentId = some row) (hlock : RowLock.comment commentId ∈ locks) :
    C.wp (do
      Repo.setHiddenState commentId hidden moderatorId now
      Repo.logInsideTx audit
      pure b) (C.Settles Q) locks [] s := by
  obtain rfl := Table.key_of_find? hrow
  rw [Contract.wp_bind]
  refine wp_setHiddenState fun s₂ hagree₂ _ =>
    ⟨hC.due _ _ rfl, row, (hC.find? hagree₂ hlock).trans hrow, ?_⟩
  rw [Contract.wp_bind]
  refine wp_logInsideTx fun s₃ hagree₃ _ => ⟨hC.due _ _ rfl, fun s₄ hagree₄ hinv₄ => ⟨?_, hQ _⟩⟩
  have hlock₃ : RowLock.comment row.commentId ∈ locks ++ [.comment row.commentId] :=
    List.mem_append_left _ hlock
  have hrow₄ : s₄.comments.find? row.commentId = some row :=
    (hC.find? (hagree₃.trans hagree₄) hlock₃).trans ((hC.find? hagree₂ hlock).trans hrow)
  exact hC.of_eq (hC.withHidden hidden moderatorId now hinv₄ hrow₄ hlock₃) rfl rfl

theorem wp_hideComment {Q : ModerationResult → List RowLock → List Write → Store → Prop}
    {role : UserRole} (hC : KeepsRows C) (hQ : ∀ a s, Q a [] [] s) :
    C.wp (hideComment commentId moderatorId role now) Q [] [] s := by
  rw [hideComment, Contract.wp_bind, wp_throwUnless]
  intro _
  rw [Contract.wp_bind, Contract.wp_transactionally]
  have hafter : ∀ (wasHidden : Bool) (s : Store), C.wp
      (do
        readBack commentId
        pure ⟨commentId, true, !wasHidden⟩) Q [] [] s := by
    intro wasHidden s
    rw [Contract.wp_bind]
    exact wp_readBack hC fun s => hQ _ s
  refine wp_lockComment (fun t => hC.due _ t rfl) fun s₁ row _ hrow => ?_
  rw [Contract.wp_bind, wp_throwUnless]
  intro _
  split
  · exact Contract.Settles.of_reads (hafter _)
  · exact wp_moderate hC (hafter _) hrow (List.mem_singleton.mpr rfl)

theorem wp_restoreComment {Q : ModerationResult → List RowLock → List Write → Store → Prop}
    {role : UserRole} (hC : KeepsRows C) (hQ : ∀ a s, Q a [] [] s) :
    C.wp (restoreComment commentId moderatorId role now) Q [] [] s := by
  rw [restoreComment, Contract.wp_bind, wp_throwUnless]
  intro _
  rw [Contract.wp_bind, Contract.wp_transactionally]
  have hafter : ∀ (wasVisible : Bool) (s : Store), C.wp
      (do
        readBack commentId
        pure ⟨commentId, false, wasVisible⟩) Q [] [] s := by
    intro wasVisible s
    rw [Contract.wp_bind]
    exact wp_readBack hC fun s => hQ _ s
  refine wp_lockComment (fun t => hC.due _ t rfl) fun s₁ row _ hrow => ?_
  split
  · exact wp_moderate hC (hafter _) hrow (List.mem_singleton.mpr rfl)
  · exact Contract.Settles.of_reads (hafter _)

theorem wp_reviewReport {reportId reviewerId : Uuid} {status : ReviewReportStatus}
    {actionTaken : Bool} {Q : ReportRow × ReportStatus → List RowLock → List Write → Store → Prop}
    (hC : KeepsRows C) (hQ : ∀ a s, Q a [] [] s) :
    C.wp (reviewReport reportId reviewerId status actionTaken now) Q [] [] s := by
  rw [reviewReport, Contract.wp_transactionally, Contract.wp_bind]
  refine wp_inTx.mpr fun s₁ _ _ => ⟨hC.due _ _ rfl, fun e₁ he₁ => ?_⟩
  obtain rfl := Option.some.inj he₁
  rw [Contract.wp_bind, wp_orThrow]
  intro previous _
  rw [Contract.wp_bind, Repo.reviewReport, Contract.wp_bind]
  refine wp_inTx.mpr fun s₂ _ _ => ⟨hC.due _ _ rfl, fun e₂ he₂ => ?_⟩
  rw [Contract.wp_orThrow]
  intro updated _
  rw [Contract.wp_bind]
  refine wp_logInsideTx fun s₃ _ _ => ⟨hC.due _ _ rfl, fun s₄ _ hinv => ⟨?_, hQ _ _⟩⟩
  rcases exec_reviewReport he₂ with hwrites | ⟨row, hwrites⟩
  · rw [hwrites]
    exact hC.of_eq (.refl hinv) rfl rfl
  · rw [hwrites]
    exact hC.of_eq (.refl hinv) rfl rfl

end Rules

end QuizBackend.Comment
