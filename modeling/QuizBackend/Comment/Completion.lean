import QuizBackend.Comment.Service
import QuizBackend.Lib.Alone

/-!
# Requests that run alone

A request that nobody else is in the way of should end with its result or with a domain error. On a
PostgreSQL that refuses `FOR UPDATE` on the nullable side of an outer join most requests do not:
`getCommentByIdForUpdate` is such a statement, and `completes_iff` says which requests get by without
it. Were it accepted, `editComment` would still not get anywhere (`alone_editComment_waits`): the
repository updates the comment on the plain handle, and the transaction around it holds the lock. The
`UPDATE` waits until `statement_timeout` cancels it, and with it the request.
-/

namespace QuizBackend.Comment.Completion

open Lib Program

/-- A result or a domain error. -/
def IsAnswer : Except Thrown Value → Prop
  | .ok _ => True
  | .error (.domain _) => True
  | .error (.error _) => False

/-- An edit of a visible comment by its author, with a matching or no `expectedUpdatedAt`, has stored the
new body. -/
def StoresEdit (before after : Store) : Request → Prop
  | .editComment commentId authorId body expectedUpdatedAt _ =>
    ∀ row, before.comments.find? commentId = some row → row.authorId = authorId →
      row.isVisible = true → (∀ t ∈ expectedUpdatedAt, row.updatedAt = t) →
        ∃ row', after.comments.find? commentId = some row' ∧ row'.body = body
  | _ => True

/-- With no other request in flight, this one comes to its answer. -/
def Completes {rejectsNullableLock : Bool} (s : CommentSystem rejectsNullableLock)
    (sessionId : String) (request : Request) : Prop :=
  ∃ s₁ r store, CommentSystem.step rejectsNullableLock s (.begin sessionId request) = some s₁ ∧
    TxSystem.Answered (Request.program rejectsNullableLock) Outside.apply s₁ sessionId r store ∧
    IsAnswer r ∧ StoresEdit s.store store request

/-- Where that is so: the request locks no comment, and what it inserts is accepted. -/
def CompletesOn (s : Store) : Request → Prop
  | .createComment commentId quizId _ parentCommentId body _ =>
    quizId ∉ s.quizzes ∨ (parentCommentId = none ∧ isText body = true ∧ bodyNonblank body = true ∧
      s.comments.find? commentId = none)
  | .editComment .. | .deleteComment .. | .vote .. | .removeVote .. => False
  | .hideComment _ _ role _ | .restoreComment _ _ role _ => role.canModerate = false
  | .reviewReport reportId reviewerId _ _ _ =>
    s.reports.find? reportId = none ∨ reviewerId ∈ s.users

/-! ## From the system to the program -/

theorem step_begin_of_idle {rejectsNullableLock : Bool} {s : CommentSystem rejectsNullableLock}
    (hidle : s.sessions.rows = []) (sessionId : String) (request : Request) :
    ∃ s₁, CommentSystem.step rejectsNullableLock s (.begin sessionId request) = some s₁ ∧
      s₁.sessions.rows = [⟨sessionId, [], [], request.program rejectsNullableLock⟩] ∧
      s₁.store = s.store ∧ s₁.ended = s.ended := by
  have hfresh : s.sessions.find? sessionId = none := by
    rw [Table.find?, hidle, List.find?_nil]
  obtain ⟨sessions, hsessions⟩ := Table.insert?_isSome (t := s.sessions)
    (r := ⟨sessionId, [], [], request.program rejectsNullableLock⟩) hfresh
  refine ⟨{ s with sessions }, Option.map_eq_some_iff.mpr ⟨sessions, hsessions, rfl⟩, ?_, rfl, rfl⟩
  rw [Table.rows_of_insert? hsessions, hidle, List.nil_append]

theorem completes_iff_alone {rejectsNullableLock : Bool} {s : CommentSystem rejectsNullableLock}
    (hidle : s.sessions.rows = []) (sessionId : String) (request : Request) :
    Completes s sessionId request ↔
      ∃ r store, (request.program rejectsNullableLock).alone [] [] s.store = .result r store ∧
        IsAnswer r ∧ StoresEdit s.store store request := by
  obtain ⟨s₁, hbegin, hrows, hstore, -⟩ := step_begin_of_idle hidle sessionId request
  constructor
  · rintro ⟨s₂, r, store, hbegin₂, hanswered, hr⟩
    obtain rfl := Option.some.inj (hbegin.symm.trans hbegin₂)
    exact ⟨r, store, hstore ▸ (TxSystem.answered_iff hrows r store).mp hanswered, hr⟩
  · rintro ⟨r, store, halone, hr⟩
    refine ⟨s₁, r, store, hbegin, (TxSystem.answered_iff hrows r store).mpr ?_, hr⟩
    rw [hstore]
    exact halone

/-! ## Each request -/

section Statements

variable {rejectsNullableLock : Bool} {α : Type} (writes : List Write) (s : Store) {q : Statement}
  {k : q.Reply → CommentProgram rejectsNullableLock α} {locks : List RowLock}
  {e : Effect RowLock Write q.Reply}

theorem alone_inTx (he : (seen rejectsNullableLock s writes).exec rejectsNullableLock q = some e) :
    alone (E := commentEngine rejectsNullableLock) (.perform .tx q k) locks writes s
      = (k e.reply).alone (locks ++ e.locks) (writes ++ e.writes) s :=
  alone_tx (E := commentEngine rejectsNullableLock) (q := q) writes s he

theorem alone_inTx_rejected
    (he : (seen rejectsNullableLock s writes).exec rejectsNullableLock q = none) :
    alone (E := commentEngine rejectsNullableLock) (.perform .tx q k) locks writes s
      = .rejected :=
  alone_tx_rejected (E := commentEngine rejectsNullableLock) (q := q) writes s he

theorem orThrow_some_bind {β : Type} (a : β) (error : CommentError)
    (f : β → CommentProgram rejectsNullableLock α) : (orThrow (some a) error >>= f) = f a := rfl

theorem throwUnless_true_bind (error : CommentError)
    (f : Unit → CommentProgram rejectsNullableLock α) : (throwUnless true error >>= f) = f () := rfl

end Statements

section Alone

variable (s : Store)

theorem alone_createComment (commentId quizId authorId : Uuid) (parentCommentId : Option Uuid)
    (body : String) (now : Int) :
    ((Request.createComment commentId quizId authorId parentCommentId body now).program true).alone
      [] [] s =
      if quizId ∈ s.quizzes then
        match parentCommentId with
        | some _ => .rejected
        | none =>
          if isText body && bodyNonblank body && (s.comments.find? commentId).isNone then
            .result (.ok (.comment (newComment commentId quizId authorId none body now)))
              (s.write (.comment (newComment commentId quizId authorId none body now)))
          else .rejected
      else .result (.error (.domain (.quizNotFound quizId))) s := by
  have hbegin : ((Request.createComment commentId quizId authorId parentCommentId body now).program
      true).alone [] [] s = ((throwUnless (decide (quizId ∈ s.quizzes)) (.quizNotFound quizId) >>=
        fun _ => transactionally (insertComment commentId quizId authorId parentCommentId body
          now)) >>= fun comment => (pure (.comment comment) : CommentProgram true Value)).alone
            [] [] s := rfl
  rw [hbegin]
  by_cases hquiz : quizId ∈ s.quizzes
  · rw [decide_eq_true hquiz, if_pos hquiz]
    cases parentCommentId with
    | some p => rfl
    | none =>
      have hexec : s.exec true (.createComment commentId quizId authorId none body now)
          = if isText body && bodyNonblank body && (s.comments.find? commentId).isNone then
              some ⟨newComment commentId quizId authorId none body now, [.comment commentId],
                [.comment (newComment commentId quizId authorId none body now)]⟩
            else none := by
        simp only [Store.exec, Option.all_none, Bool.and_true]
      dsimp only
      split
      · next hvalid =>
        rw [if_pos hvalid] at hexec
        refine (alone_inTx [] s hexec).trans ?_
        have hauthor : (s.write (.comment
            (newComment commentId quizId authorId none body now))).exec true
              (.getAuthorForComment commentId) = some ⟨some authorId, [], []⟩ := by
          simp [Store.exec, Store.select, Table.find?_upsert, newComment]
        exact (alone_inTx [.comment _] s hauthor).trans rfl
      · next hvalid =>
        rw [if_neg hvalid] at hexec
        exact alone_inTx_rejected [] s hexec
  · rw [decide_eq_false hquiz, if_neg hquiz]
    rfl

theorem alone_hideComment (commentId moderatorId : Uuid) (role : UserRole) (now : Int) :
    ((Request.hideComment commentId moderatorId role now).program true).alone [] [] s =
      if role.canModerate then .rejected
      else .result (.error (.domain .moderatorRequired)) s := by
  cases role <;> rfl

theorem alone_restoreComment (commentId moderatorId : Uuid) (role : UserRole) (now : Int) :
    ((Request.restoreComment commentId moderatorId role now).program true).alone [] [] s =
      if role.canModerate then .rejected
      else .result (.error (.domain .moderatorRequired)) s := by
  cases role <;> rfl

def reviewed (row : ReportRow) (reviewerId : Uuid) (status : ReviewReportStatus)
    (actionTaken : Bool) (now : Int) : ReportRow :=
  { row with
    status := .answered status, reviewedByUserId := some reviewerId, reviewedAt := some now,
    actionTaken, updatedAt := now }

section ReviewReport

variable (reportId reviewerId : Uuid) (status : ReviewReportStatus) (actionTaken : Bool) (now : Int)

theorem alone_reviewReport_of_none (h : s.reports.find? reportId = none) :
    ((Request.reviewReport reportId reviewerId status actionTaken now).program true).alone [] [] s
      = .result (.error (.domain (.reportNotFound reportId))) s := by
  have hexec : s.exec true (.getReportByIdForUpdate reportId) = some ⟨none, [], []⟩ := by
    simp only [Store.exec, h]
    rfl
  exact alone_inTx [] s hexec

/-- The lock of a report joins nothing; what may be refused is the audit row. -/
theorem alone_reviewReport_of_some {row : ReportRow} (h : s.reports.find? reportId = some row) :
    ((Request.reviewReport reportId reviewerId status actionTaken now).program true).alone [] [] s =
      if reviewerId ∈ s.users then
        .result (.ok (.reviewed (reviewed row reviewerId status actionTaken now) row.status))
          ((s.write (.report (reviewed row reviewerId status actionTaken now))).write
            (.audit ⟨reviewerId, .reviewReport, row.commentId, some status, now⟩))
      else .rejected := by
  have hlock : s.exec true (.getReportByIdForUpdate reportId)
      = some ⟨some row, [.report reportId], []⟩ := by
    simp only [Store.exec, h]
    rfl
  have hreview : s.exec true (.reviewReport reportId reviewerId status actionTaken now)
      = some ⟨some (reviewed row reviewerId status actionTaken now), [.report reportId],
        [.report (reviewed row reviewerId status actionTaken now)]⟩ := by
    simp only [Store.exec, h]
    rfl
  refine (alone_inTx [] s hlock).trans ((alone_inTx [] s hreview).trans ?_)
  split
  · next huser =>
    have hlog : (s.write (.report (reviewed row reviewerId status actionTaken now))).exec true
        (.logInsideTx ⟨reviewerId, .reviewReport, row.commentId, some status, now⟩)
          = some ⟨(), [], [.audit ⟨reviewerId, .reviewReport, row.commentId, some status, now⟩]⟩ :=
      if_pos huser
    exact alone_inTx [.report _] s hlog
  · next huser =>
    have hlog : (s.write (.report (reviewed row reviewerId status actionTaken now))).exec true
        (.logInsideTx ⟨reviewerId, .reviewReport, row.commentId, some status, now⟩) = none :=
      if_neg huser
    exact alone_inTx_rejected [.report _] s hlog

end ReviewReport

/-- The acceptable edit of a visible comment by its author, from the statement that locks it on. -/
theorem alone_editComment {commentId : Uuid} {row : CommentRow} {body : String}
    {expectedUpdatedAt : Option Int} (now : Int) (hvisible : row.isVisible = true)
    (hupdatedAt : ∀ t ∈ expectedUpdatedAt, row.updatedAt = t) :
    ∃ k, (Request.editComment commentId row.authorId body expectedUpdatedAt now).program false =
        .perform .tx (.getCommentByIdForUpdate commentId) k ∧ ∃ k', k (some row) =
          .perform .db (.editComment commentId row.authorId body expectedUpdatedAt now) k' := by
  have hmatch : (expectedUpdatedAt.all fun t => row.updatedAt == t) = true := by
    rw [Option.all_eq_true]
    exact fun t ht => beq_iff_eq.mpr (hupdatedAt t ht)
  refine ⟨_, rfl, ?_⟩
  simp only [Program.bind, orThrow_some_bind, beq_self_eq_true, hvisible, hmatch,
    throwUnless_true_bind]
  exact ⟨_, rfl⟩

/-- With a body the table accepts, the `UPDATE` locks the comment. -/
theorem exec_editComment {commentId : Uuid} {row : CommentRow} {body : String}
    {expectedUpdatedAt : Option Int} (now : Int) (hrow : s.comments.find? commentId = some row)
    (hvisible : row.isVisible = true) (hupdatedAt : ∀ t ∈ expectedUpdatedAt, row.updatedAt = t)
    (hbody : isText body = true ∧ bodyNonblank body = true) :
    s.exec false (.editComment commentId row.authorId body expectedUpdatedAt now)
      = some ⟨some { row with body, updatedAt := now }, [.comment commentId],
        [.comment { row with body, updatedAt := now }]⟩ := by
  have hmatch : (expectedUpdatedAt.all fun t => row.updatedAt == t) = true := by
    rw [Option.all_eq_true]
    exact fun t ht => beq_iff_eq.mpr (hupdatedAt t ht)
  have hnotDeleted : row.notDeleted = true := (Bool.and_eq_true_iff.mp hvisible).2
  simp only [Store.exec, Store.updateComment, hrow, hbody, Bool.and_self, if_true]
  rw [Option.filter_some_pos (by simp [hnotDeleted, hmatch])]
  rfl

end Alone

/-! ## An edit -/

/-- The request of the session, alone in the system, comes to a statement that waits for a lock that
its own transaction holds; and in no run of it, up to its cancellation, is anything stored or the
request answered. -/
structure WaitsForItself (s : CommentSystem false) (sessionId : String) (request : Request)
    (lock : RowLock) : Prop where
  waits : ∃ s₁ s₂ c, CommentSystem.step false s (.begin sessionId request) = some s₁ ∧
    CommentSystem.step false s₁ (.proceed sessionId) = some s₂ ∧ s₂.sessions.rows = [c] ∧
    lock ∈ c.locks ∧ CommentSystem.step false s₂ (.proceed sessionId) = none
  storesNothing : ∀ s₁ actions t, CommentSystem.step false s (.begin sessionId request) = some s₁ →
    TxSystem.Own sessionId actions → exec (CommentSystem.step false) s₁ actions = some t →
      t.store = s.store ∧ (t.ended = s.ended ∨ t.ended = s.ended ++ [(sessionId, .rejected)])

/-- A request that waits from its second statement on, with nothing stored before. -/
theorem WaitsForItself.of_steps {s s₁ s₂ : CommentSystem false} {sessionId : String}
    {request : Request} {lock : RowLock} {c : Session (commentEngine false) Thrown Value}
    (hbegin : CommentSystem.step false s (.begin sessionId request) = some s₁)
    (hrows₁ : ∃ c₁, c₁.sessionId = sessionId ∧ s₁.sessions.rows = [c₁])
    (hsame₁ : s₁.store = s.store ∧ s₁.ended = s.ended)
    (hstep : CommentSystem.step false s₁ (.proceed sessionId) = some s₂)
    (hrows₂ : c.sessionId = sessionId ∧ s₂.sessions.rows = [c])
    (hsame₂ : s₂.store = s.store ∧ s₂.ended = s.ended) (hlock : lock ∈ c.locks)
    (hwaits : CommentSystem.step false s₂ (.proceed sessionId) = none) :
    WaitsForItself s sessionId request lock where
  waits := ⟨s₁, s₂, c, hbegin, hstep, hrows₂.2, hlock, hwaits⟩
  storesNothing s₁' actions t hbegin' hown hrun := by
    obtain rfl := Option.some.inj (hbegin.symm.trans hbegin')
    obtain ⟨c₁, rfl, hrows₁⟩ := hrows₁
    cases actions with
    | nil =>
      obtain rfl := Option.some.inj hrun
      exact ⟨hsame₁.1, .inl hsame₁.2⟩
    | cons a actions =>
      have hrest : TxSystem.Own c₁.sessionId actions :=
        fun b hb => hown b (List.mem_cons_of_mem a hb)
      rw [exec_cons] at hrun
      rcases hown a List.mem_cons_self with rfl | rfl
      · rw [hstep, Option.bind_some] at hrun
        rw [← hrows₂.1] at hrest hwaits ⊢
        rcases TxSystem.run_of_waiting hrows₂.2 hwaits hrest hrun with rfl | rfl
        · exact ⟨hsame₂.1, .inl hsame₂.2⟩
        · exact ⟨hsame₂.1, .inr (congrArg (· ++ _) hsame₂.2)⟩
      · have hfail : CommentSystem.step false s₁ (.fail c₁.sessionId) =
            some (s₁.finish c₁.sessionId .rejected) := TxSystem.step_fail_of_single hrows₁
        rw [hfail, Option.bind_some] at hrun
        obtain rfl := TxSystem.run_of_idle (TxSystem.rows_finish_of_single hrows₁ _) hrest hrun
        exact ⟨hsame₁.1, .inr (congrArg (· ++ _) hsame₁.2)⟩

/-- **An edit waits for itself**, on a database that accepts the locking select. -/
theorem alone_editComment_waits {s : CommentSystem false} (hidle : s.sessions.rows = [])
    (sessionId : String) {commentId : Uuid} {row : CommentRow} {body : String}
    {expectedUpdatedAt : Option Int} (now : Int)
    (hrow : (s.store : Store).comments.find? commentId = some row) (hvisible : row.isVisible = true)
    (hupdatedAt : ∀ t ∈ expectedUpdatedAt, row.updatedAt = t)
    (hbody : isText body = true ∧ bodyNonblank body = true) :
    WaitsForItself s sessionId (.editComment commentId row.authorId body expectedUpdatedAt now)
      (.comment commentId) := by
  obtain ⟨s₁, hbegin, hrows₁, hstore₁, hended₁⟩ := step_begin_of_idle hidle sessionId
    (.editComment commentId row.authorId body expectedUpdatedAt now)
  obtain ⟨k, hprogram, k', hk⟩ :=
    @alone_editComment commentId row body expectedUpdatedAt now hvisible hupdatedAt
  have hlock : (s.store : Store).exec false (.getCommentByIdForUpdate commentId)
      = some ⟨some row, [.comment commentId], []⟩ := by
    simp only [Store.exec, hrow]
    rfl
  have hupdate := exec_editComment s.store now hrow hvisible hupdatedAt hbody
  rw [hprogram] at hrows₁
  rw [← hstore₁] at hlock hupdate
  have hstep : CommentSystem.step false s₁ (.proceed sessionId) =
      some (s₁.advance sessionId [.comment commentId] [] (k (some row))) :=
    TxSystem.step_tx_of_single hrows₁ hlock
  have hrows₂ := TxSystem.rows_advance_of_single hrows₁ [RowLock.comment commentId] [] (k (some row))
  rw [hk] at hstep hrows₂
  refine .of_steps hbegin ⟨_, rfl, hrows₁⟩ ⟨hstore₁, hended₁⟩ hstep ⟨rfl, hrows₂⟩
    ⟨hstore₁, hended₁⟩ (List.mem_singleton.mpr rfl) ?_
  exact TxSystem.step_db_of_own_lock hrows₂ hupdate (by simp)

def niceOne : CommentRow := ⟨20, 7, 1, none, "Nice one", false, none, none, 0, 0, 0, 0, 5, 5, none⟩

theorem alone_edit_of_niceOne_waits :
    WaitsForItself (TxSystem.start (threeUsers.write (.comment niceOne))) "a"
      (.editComment 20 niceOne.authorId "Even nicer" none 9) (.comment 20) :=
  alone_editComment_waits rfl "a" 9
    (show (threeUsers.write (.comment niceOne)).comments.find? 20 = some niceOne by decide +kernel)
    rfl nofun (by decide +kernel)

/-! ## Which requests complete -/

theorem not_answered_of_rejected {p : Except Thrown Value → Store → Prop} :
    ¬ ∃ r store, (.rejected : Outcome (commentEngine true) Thrown Value) = .result r store ∧
      p r store := by
  rintro ⟨r, store, h, -⟩
  cases h

/-- With no other request in flight, a request ends with its result or a domain error exactly where it
locks no comment. -/
theorem completes_iff {s : CommentSystem true} (hidle : s.sessions.rows = [])
    (sessionId : String) (request : Request) :
    Completes s sessionId request ↔ CompletesOn s.store request := by
  rw [completes_iff_alone hidle]
  cases request with
  | createComment commentId quizId authorId parentCommentId body now =>
    rw [alone_createComment, CompletesOn]
    by_cases hquiz : quizId ∈ (s.store : Store).quizzes
    · rw [if_pos hquiz]
      cases parentCommentId with
      | some p => exact iff_of_false not_answered_of_rejected (by simp [hquiz])
      | none =>
        dsimp only
        split
        · next hvalid =>
          simp only [Bool.and_eq_true, Option.isNone_iff_eq_none, and_assoc] at hvalid
          exact iff_of_true ⟨_, _, rfl, trivial, trivial⟩ (.inr ⟨rfl, hvalid⟩)
        · next hvalid =>
          simp only [Bool.and_eq_true, Option.isNone_iff_eq_none, and_assoc] at hvalid
          refine iff_of_false not_answered_of_rejected ?_
          rintro (hnot | ⟨-, hvalid'⟩)
          · exact hnot hquiz
          · exact hvalid hvalid'
    · rw [if_neg hquiz]
      exact iff_of_true ⟨_, _, rfl, trivial, trivial⟩ (.inl hquiz)
  | editComment => exact iff_of_false not_answered_of_rejected id
  | deleteComment => exact iff_of_false not_answered_of_rejected id
  | vote => exact iff_of_false not_answered_of_rejected id
  | removeVote => exact iff_of_false not_answered_of_rejected id
  | hideComment commentId moderatorId role now =>
    rw [alone_hideComment, CompletesOn]
    split
    · next hrole => exact iff_of_false not_answered_of_rejected (by simp [hrole])
    · next hrole =>
      exact iff_of_true ⟨_, _, rfl, trivial, trivial⟩ (Bool.eq_false_iff.mpr hrole)
  | restoreComment commentId moderatorId role now =>
    rw [alone_restoreComment, CompletesOn]
    split
    · next hrole => exact iff_of_false not_answered_of_rejected (by simp [hrole])
    · next hrole =>
      exact iff_of_true ⟨_, _, rfl, trivial, trivial⟩ (Bool.eq_false_iff.mpr hrole)
  | reviewReport reportId reviewerId status actionTaken now =>
    rw [CompletesOn]
    cases hreport : (s.store : Store).reports.find? reportId with
    | none =>
      rw [alone_reviewReport_of_none _ _ _ _ _ _ hreport]
      exact iff_of_true ⟨_, _, rfl, trivial, trivial⟩ (.inl rfl)
    | some row =>
      rw [alone_reviewReport_of_some _ _ _ _ _ _ hreport]
      split
      · next huser => exact iff_of_true ⟨_, _, rfl, trivial, trivial⟩ (.inr huser)
      · next huser => exact iff_of_false not_answered_of_rejected (by simp [huser])

/-- A first comment is written, and its author cannot hide it. -/
theorem completes_first_requests :
    Completes (TxSystem.start threeUsers : CommentSystem true) "a"
        (.createComment 20 7 1 none "Nice one" 5) ∧
      Completes (TxSystem.start threeUsers : CommentSystem true) "b" (.hideComment 20 1 .user 6) ∧
      ¬ Completes (TxSystem.start threeUsers : CommentSystem true) "c"
        (.removeVote 2 20 6) := by
  refine ⟨(completes_iff rfl "a" _).mpr (.inr ⟨rfl, ?_, ?_, rfl⟩),
    (completes_iff rfl "b" _).mpr rfl, (completes_iff rfl "c" _).mp⟩
  · decide +kernel
  · decide +kernel

def firstComment : List (TxAction Request Outside) :=
  .begin "a" (.createComment 20 7 1 none "Nice one" 5) :: List.replicate 5 (.proceed "a")

theorem firstComment_runs :
    (exec (CommentSystem.step true) (TxSystem.start threeUsers) firstComment).isSome = true := by
  decide +kernel

/-- Then nothing is in flight, and the author's edit is rejected. -/
theorem edit_is_rejected : ∃ s : CommentSystem true,
    exec (CommentSystem.step true) (TxSystem.start threeUsers) firstComment = some s ∧
      s.sessions.rows = [] ∧
      ((s.store : Store).comments.find? 20).map (fun row => (row.authorId, row.isVisible))
        = some (1, true) ∧
      ¬ Completes s "b" (.editComment 20 1 "Even nicer" none 6) := by
  have hidle : ((exec (CommentSystem.step true) (TxSystem.start threeUsers) firstComment).get
      firstComment_runs).sessions.rows = [] :=
    List.length_eq_zero_iff.mp (by decide +kernel)
  refine ⟨_, (Option.some_get firstComment_runs).symm, hidle, by decide +kernel, fun h => ?_⟩
  obtain ⟨r, store, halone, -⟩ := (completes_iff_alone hidle "b" _).mp h
  cases halone

end QuizBackend.Comment.Completion
