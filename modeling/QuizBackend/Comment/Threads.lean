import QuizBackend.Comment.Service

/-!
# Threads

Comments are two levels deep: the parent of a reply is a top-level comment on the same quiz. In every
state `replies_count` is the number of the replies that are not deleted, and no comment has more than
`MAX_REPLIES_PER_COMMENT` of them.

The number of a comment's replies moves only under the lock of that comment. `createComment` takes it
before it counts, and the count is on another connection, where the replies of transactions that have
committed are all there are. `deleteComment` takes it with the update of the counter, and it does so
before its deletion of the reply is committed.
-/

namespace QuizBackend.Comment.Threads

open Lib RowLock Contract Table CommentRow
open List (mem_append_left replicate)

/-! ## Threads -/

/-- A parent is there, on the same quiz, and is no reply itself. -/
def TwoLevels (s : Store) : Prop :=
  ∀ row ∈ s.comments.rows, ∀ p, row.parentCommentId = some p →
    ∃ parent, s.comments.find? p = some parent ∧ parent.parentCommentId = none ∧
      parent.quizId = row.quizId

structure ThreadsOff (behind : Uuid → Int) (s : Store) : Prop where
  counted : ∀ commentId row, s.comments.find? commentId = some row →
    row.repliesCount + behind commentId = s.replies commentId
  bounded : ∀ commentId, s.replies commentId ≤ maxRepliesPerComment
  twoLevels : TwoLevels s

/-- No count is behind its replies. -/
def ThreadsOk (s : Store) : Prop := ThreadsOff (fun _ => 0) s

/-- The parent of a reply has a row (`comments_parent_comment_id_fkey`). -/
def Parented (s : Store) : Prop :=
  ∀ row ∈ s.comments.rows, ∀ p, row.parentCommentId = some p → (s.comments.find? p).isSome = true

/-- The counter of one comment is `k` behind its replies. -/
def CountedOff (commentId : Uuid) (k : Int) (s : Store) : Prop :=
  ∀ row, s.comments.find? commentId = some row → row.repliesCount + k = s.replies commentId

def thread (s : Store) (commentId : Uuid) : Option CommentRow × Nat :=
  (s.comments.find? commentId, s.replies commentId)

def threadContract (rejectsNullableLock : Bool) :
    Contract (commentEngine rejectsNullableLock) where
  Slice := Option CommentRow × Nat
  slice := fun l s =>
    match l with
    | .comment commentId => thread s commentId
    | .vote _ | .report _ => (none, 0)
  inv := ThreadsOk
  due := fun _ _ => True

def replyWeight (row : CommentRow) (commentId : Uuid) : Int :=
  if row.isReplyTo commentId then 1 else 0

theorem replyWeight_eq_cast (row : CommentRow) (commentId : Uuid) :
    replyWeight row commentId = ((if row.isReplyTo commentId then 1 else 0 : Nat) : Int) := by
  rw [replyWeight]
  split <;> rfl

theorem replyWeight_top {row : CommentRow} (h : row.parentCommentId = none) (commentId : Uuid) :
    replyWeight row commentId = 0 := by
  simp [replyWeight, isReplyTo, h]

theorem replyWeight_deleted {row : CommentRow} (h : row.notDeleted = false) (commentId : Uuid) :
    replyWeight row commentId = 0 := by
  simp [replyWeight, isReplyTo, h]

variable {p authorId : Uuid} {k delta now : Int} {parent : CommentRow} {body : String}

theorem replyWeight_reply {row : CommentRow} (h : row.parentCommentId = some p)
    (hdeleted : row.notDeleted = true) (commentId : Uuid) :
    replyWeight row commentId = if commentId = p then 1 else 0 := by
  have hreply : row.isReplyTo commentId = true ↔ commentId = p := by
    rw [isReplyTo, h, hdeleted, Bool.and_true, beq_iff_eq, Option.some.injEq, eq_comm]
  exact if_congr hreply rfl rfl

theorem replyWeight_congr {row old : CommentRow} (hparent : row.parentCommentId = old.parentCommentId)
    (hdeleted : row.notDeleted = old.notDeleted) (commentId : Uuid) :
    replyWeight row commentId = replyWeight old commentId := by
  rw [replyWeight, replyWeight, isReplyTo, isReplyTo, hparent, hdeleted]

/-! ## What a write does to the threads -/

section Writes

variable {s : Store} {row old : CommentRow} {behind : Uuid → Int}

theorem replies_write_comment (hold : s.comments.find? row.commentId = some old)
    (commentId : Uuid) :
    ((s.write (.comment row)).replies commentId : Int)
      = s.replies commentId + replyWeight row commentId - replyWeight old commentId := by
  have hcount := countP_upsert_of_some (isReplyTo commentId) hold
  rw [replyWeight_eq_cast, replyWeight_eq_cast]
  simp only [Store.replies, Store.comments_write_comment]
  omega

theorem replies_write_new (hnone : s.comments.find? row.commentId = none) (commentId : Uuid) :
    ((s.write (.comment row)).replies commentId : Int)
      = s.replies commentId + replyWeight row commentId := by
  have hcount := countP_upsert_of_none (isReplyTo commentId) hnone
  rw [replyWeight_eq_cast]
  simp only [Store.replies, Store.comments_write_comment, hcount]
  exact Int.natCast_add _ _

theorem TwoLevels.parented (h : TwoLevels s) : Parented s := fun row hrow p hp => by
  obtain ⟨parent, hfind, -⟩ := h row hrow p hp
  exact Option.isSome_of_eq_some hfind

theorem replies_of_find?_none (h : Parented s) {commentId : Uuid}
    (hnone : s.comments.find? commentId = none) : s.replies commentId = 0 := by
  rw [Store.replies, List.countP_eq_zero]
  intro row hrow hreply
  obtain ⟨hparent, -⟩ := Bool.and_eq_true_iff.mp hreply
  have hfind := h row hrow commentId (beq_iff_eq.mp hparent)
  rw [hnone] at hfind
  cases hfind

theorem find?_write_comment (s : Store) (row : CommentRow) (commentId : Uuid) :
    (s.write (.comment row)).comments.find? commentId
      = if commentId = row.commentId then some row else s.comments.find? commentId := by
  rw [Store.comments_write_comment, find?_upsert]

theorem parent_write_comment {quizId : Uuid}
    (hsame : ∀ old, s.comments.find? row.commentId = some old →
      row.parentCommentId = old.parentCommentId ∧ row.quizId = old.quizId)
    (h : ∃ parent, s.comments.find? p = some parent ∧ parent.parentCommentId = none ∧ parent.quizId = quizId) :
    ∃ parent, (s.write (.comment row)).comments.find? p = some parent ∧
      parent.parentCommentId = none ∧ parent.quizId = quizId := by
  obtain ⟨parent, hfind, htop, hquiz⟩ := h
  rw [find?_write_comment]
  split
  · next heq =>
    subst heq
    obtain ⟨hparent, hsame⟩ := hsame parent hfind
    exact ⟨row, rfl, hparent.trans htop, hsame.trans hquiz⟩
  · exact ⟨parent, hfind, htop, hquiz⟩

theorem TwoLevels.write_comment (h : TwoLevels s)
    (hsame : ∀ old, s.comments.find? row.commentId = some old →
      row.parentCommentId = old.parentCommentId ∧ row.quizId = old.quizId)
    (hparent : ∀ p, row.parentCommentId = some p →
      ∃ parent, s.comments.find? p = some parent ∧ parent.parentCommentId = none ∧
        parent.quizId = row.quizId) : TwoLevels (s.write (.comment row)) := by
  intro x hx p hp
  refine parent_write_comment hsame ?_
  rcases mem_upsert.mp hx with rfl | ⟨hx, -⟩
  · exact hparent p hp
  · exact h x hx p hp

theorem Parented.write_comment (h : Parented s)
    (hparent : ∀ p, row.parentCommentId = some p → (s.comments.find? p).isSome = true) :
    Parented (s.write (.comment row)) := by
  intro x hx p hp
  have hfind : (s.comments.find? p).isSome = true := by
    rcases mem_upsert.mp hx with rfl | ⟨hx, -⟩
    · exact hparent p hp
    · exact h x hx p hp
  rw [find?_write_comment]
  split
  · rfl
  · exact hfind

theorem Parented.update (h : Parented s) (hold : s.comments.find? row.commentId = some old)
    (hparent : row.parentCommentId = old.parentCommentId) : Parented (s.write (.comment row)) :=
  h.write_comment fun p hp => h old (mem_of_find? hold) p (hparent ▸ hp)

theorem CountedOff.write_comment {commentId : Uuid} (h : CountedOff commentId k s)
    (hold : s.comments.find? row.commentId = some old) :
    CountedOff commentId (k + replyWeight row commentId - replyWeight old commentId
        + if commentId = row.commentId then old.repliesCount - row.repliesCount else 0)
      (s.write (.comment row)) := by
  intro x hx
  have hreplies := replies_write_comment hold commentId
  rw [find?_write_comment] at hx
  split at hx
  · next heq =>
    obtain rfl := Option.some.inj hx
    have hcounted := h old (heq ▸ hold)
    rw [if_pos heq]
    omega
  · next hne =>
    have hcounted := h x hx
    rw [if_neg hne]
    omega

theorem CountedOff.insert {commentId : Uuid} (h : CountedOff commentId 0 s) (hparented : Parented s)
    (hnone : s.comments.find? row.commentId = none) (hzero : row.repliesCount = 0) :
    CountedOff commentId (replyWeight row commentId) (s.write (.comment row)) := by
  intro x hx
  have hreplies := replies_write_new hnone commentId
  rw [find?_write_comment] at hx
  split at hx
  · next heq =>
    obtain rfl := Option.some.inj hx
    have hempty := replies_of_find?_none hparented hnone
    rw [heq] at hreplies ⊢
    omega
  · have hcounted := h x hx
    omega

theorem CountedOff.congr {commentId : Uuid} {k' : Int} (h : CountedOff commentId k s) (heq : k = k') :
    CountedOff commentId k' s := heq ▸ h

theorem CountedOff.update {commentId : Uuid} (h : CountedOff commentId k s)
    (hold : s.comments.find? row.commentId = some old)
    (hweight : replyWeight row commentId = replyWeight old commentId)
    (hcount : row.repliesCount = old.repliesCount) :
    CountedOff commentId k (s.write (.comment row)) :=
  (h.write_comment hold).congr (by rw [hweight, hcount, sub_self, ite_self]; omega)

theorem CountedOff.withReplies {commentId : Uuid}
    (h : CountedOff commentId (if commentId = p then delta else 0) s)
    (hparent : s.comments.find? p = some parent) :
    CountedOff commentId 0 (s.write (.comment (parent.withReplies delta now))) := by
  obtain rfl := key_of_find? hparent
  have hweight : replyWeight (parent.withReplies delta now) commentId
      = replyWeight parent commentId := replyWeight_congr rfl rfl commentId
  have hold : s.comments.find? (parent.withReplies delta now).commentId = some parent := hparent
  refine (h.write_comment hold).congr ?_
  rw [hweight]
  show _ + _ - _ + (if commentId = parent.commentId then
    parent.repliesCount - (parent.repliesCount + delta) else 0) = 0
  split <;> omega

theorem ThreadsOff.write_comment (h : ThreadsOff behind s)
    (hold : s.comments.find? row.commentId = some old)
    (hparent : row.parentCommentId = old.parentCommentId) (hquiz : row.quizId = old.quizId)
    (hweight : ∀ commentId, replyWeight row commentId ≤ replyWeight old commentId) :
    ThreadsOff (fun commentId => behind commentId + replyWeight row commentId
      - replyWeight old commentId
        + if commentId = row.commentId then old.repliesCount - row.repliesCount else 0)
      (s.write (.comment row)) := by
  refine ⟨fun commentId => ?_, fun commentId => ?_, ?_⟩
  · exact CountedOff.write_comment (h.counted commentId) hold
  · have hreplies := replies_write_comment hold commentId
    have hbounded := h.bounded commentId
    have hle := hweight commentId
    omega
  · refine h.twoLevels.write_comment (fun x hx => ?_) fun p hp => ?_
    · obtain rfl := Option.some.inj (hold.symm.trans hx)
      exact ⟨hparent, hquiz⟩
    · rw [hquiz]
      exact h.twoLevels old (mem_of_find? hold) p (hparent ▸ hp)

theorem ThreadsOff.insert (h : ThreadsOk s) (hnone : s.comments.find? row.commentId = none)
    (hzero : row.repliesCount = 0)
    (hparent : ∀ p, row.parentCommentId = some p →
      (∃ parent, s.comments.find? p = some parent ∧ parent.parentCommentId = none ∧
        parent.quizId = row.quizId) ∧ s.replies p < maxRepliesPerComment) :
    ThreadsOff (replyWeight row) (s.write (.comment row)) := by
  refine ⟨fun commentId => ?_, fun commentId => ?_, ?_⟩
  · exact CountedOff.insert (h.counted commentId) h.twoLevels.parented hnone hzero
  · have hreplies := replies_write_new hnone commentId
    have hbounded := h.bounded commentId
    by_cases hreply : row.isReplyTo commentId = true
    · obtain ⟨hp, -⟩ := Bool.and_eq_true_iff.mp hreply
      have hroom := (hparent commentId (beq_iff_eq.mp hp)).2
      rw [replyWeight, if_pos hreply] at hreplies
      omega
    · rw [replyWeight, if_neg hreply] at hreplies
      omega
  · refine h.twoLevels.write_comment (fun x hx => ?_) fun p hp => (hparent p hp).1
    cases hnone.symm.trans hx

theorem ThreadsOff.congr {behind' : Uuid → Int} (h : ThreadsOff behind s)
    (heq : ∀ commentId, behind commentId = behind' commentId) : ThreadsOff behind' s :=
  (funext heq : behind = behind') ▸ h

theorem thread_write_comment_of_ne {commentId : Uuid} (hne : commentId ≠ row.commentId)
    (hreplies : (s.write (.comment row)).replies commentId = s.replies commentId) :
    thread (s.write (.comment row)) commentId = thread s commentId := by
  rw [thread, thread, hreplies, find?_write_comment, if_neg hne]

theorem thread_withReplies {first : CommentRow} {commentId : Uuid}
    (hreplies : commentId ≠ p → (s.write (.comment first)).replies commentId = s.replies commentId)
    (hparent : (s.write (.comment first)).comments.find? p = some parent)
    (hne : commentId ≠ first.commentId) (hne' : commentId ≠ p) :
    thread ((s.write (.comment first)).write (.comment (parent.withReplies delta now))) commentId
      = thread s commentId := by
  obtain rfl := key_of_find? hparent
  have hold : (s.write (.comment first)).comments.find? (parent.withReplies delta now).commentId
      = some parent := hparent
  have hsame := replies_write_comment hold commentId
  have hweight : replyWeight (parent.withReplies delta now) commentId = replyWeight parent commentId :=
    replyWeight_congr rfl rfl commentId
  rw [hweight] at hsame
  calc thread ((s.write (.comment first)).write (.comment (parent.withReplies delta now))) commentId
      = thread (s.write (.comment first)) commentId :=
        thread_write_comment_of_ne hne' (by omega)
    _ = thread s commentId := thread_write_comment_of_ne hne (hreplies hne')

theorem ThreadsOff.withReplies
    (h : ThreadsOff (fun commentId => if commentId = p then delta else 0) s)
    (hparent : s.comments.find? p = some parent) :
    ThreadsOk (s.write (.comment (parent.withReplies delta now))) := by
  have hold : s.comments.find? (parent.withReplies delta now).commentId = some parent := by
    rw [← hparent, ← key_of_find? hparent]
    rfl
  have hweight : ∀ id, replyWeight (parent.withReplies delta now) id = replyWeight parent id :=
    replyWeight_congr rfl rfl
  have hwritten := h.write_comment hold rfl rfl fun id => (hweight id).le
  exact ⟨fun id => CountedOff.withReplies (h.counted id) hparent, hwritten.bounded,
    hwritten.twoLevels⟩

end Writes

/-! ## Keeping a contract about threads -/

section Keep

variable {rejectsNullableLock : Bool} {locks : List RowLock} {s t : Store} {row old : CommentRow}

structure TakesReply (quizId p : Uuid) (s : Store) : Prop where
  row : ∃ parent, s.comments.find? p = some parent ∧ parent.parentCommentId = none ∧
    parent.quizId = quizId
  room : s.replies p < maxRepliesPerComment

/-- The lock of a comment protects its thread, and no other lock protects anything. The invariant is
about the comments, the parent of a reply has a row by it, and it survives what the requests commit. -/
structure KeepsThreads (C : Contract (commentEngine rejectsNullableLock)) : Prop where
  due : ∀ (q : Statement) (t : Store), C.due q t
  slice_eq_iff : ∀ {l : RowLock} {s t : Store}, C.slice l t = C.slice l s ↔
    ∀ commentId, l = .comment commentId → thread t commentId = thread s commentId
  congr : ∀ {s t : Store}, C.inv s → t.comments = s.comments → C.inv t
  parent : ∀ {s : Store} {row : CommentRow} {p : Uuid}, C.inv s →
    s.comments.find? row.commentId = some row → row.parentCommentId = some p →
      ∃ parent, s.comments.find? p = some parent
  update : ∀ {s : Store} {row old : CommentRow}, C.inv s →
    s.comments.find? row.commentId = some old → row.parentCommentId = old.parentCommentId →
      row.quizId = old.quizId → row.notDeleted = old.notDeleted →
        row.repliesCount = old.repliesCount → C.inv (s.write (.comment row))
  deleteTop : ∀ {s : Store} {row : CommentRow} (now : Int), C.inv s →
    s.comments.find? row.commentId = some row → row.parentCommentId = none →
      C.inv (s.write (.comment (row.withDeleted now)))
  deleteReply : ∀ {s : Store} {row parent : CommentRow} {p : Uuid} {now : Int}, C.inv s →
    s.comments.find? row.commentId = some row → row.parentCommentId = some p →
      row.notDeleted = true →
        (s.write (.comment (row.withDeleted now))).comments.find? p = some parent →
          C.inv ((s.write (.comment (row.withDeleted now))).write
            (.comment (parent.withReplies (-1) now)))
  insertTop : ∀ {s : Store} {commentId : Uuid} (quizId authorId : Uuid) (body : String) (now : Int),
    C.inv s → s.comments.find? commentId = none →
      C.inv (s.write (.comment (newComment commentId quizId authorId none body now)))
  insertReply : ∀ {s : Store} {parent : CommentRow} {commentId quizId authorId p : Uuid}
    {body : String} {now : Int}, C.inv s → s.comments.find? commentId = none →
      TakesReply quizId p s →
        (s.write (.comment
          (newComment commentId quizId authorId (some p) body now))).comments.find? p = some parent →
            C.inv ((s.write (.comment (newComment commentId quizId authorId (some p) body now))).write
              (.comment (parent.withReplies 1 now)))

section Rules

variable {C : Contract (commentEngine rejectsNullableLock)} {commentId : Uuid} {writes : List Write}

namespace KeepsThreads

section

variable (hC : KeepsThreads C)
include hC

theorem thread_of_agree (h : C.Agree locks s t)
    (hlock : comment commentId ∈ locks) : thread t commentId = thread s commentId :=
  hC.slice_eq_iff.mp (h _ hlock) commentId rfl

theorem find? (h : C.Agree locks s t)
    (hlock : comment commentId ∈ locks) :
    t.comments.find? commentId = s.comments.find? commentId :=
  congrArg Prod.fst (hC.thread_of_agree h hlock)

theorem replies (h : C.Agree locks s t)
    (hlock : comment commentId ∈ locks) : t.replies commentId = s.replies commentId :=
  congrArg Prod.snd (hC.thread_of_agree h hlock)

theorem keeps (hinv : C.inv t)
    (h : ∀ commentId, comment commentId ∉ locks → thread t commentId = thread s commentId) :
    C.Keeps locks s t := by
  refine ⟨hinv, fun l hl => hC.slice_eq_iff.mpr fun commentId heq => ?_⟩
  exact h commentId (heq ▸ hl)

theorem of_eq {t' : Store} (h : C.Keeps locks s t)
    (hcomments : t'.comments = t.comments) : C.Keeps locks s t' := by
  refine hC.keeps (hC.congr h.1 hcomments) fun commentId hl => ?_
  rw [← hC.slice_eq_iff.mp (h.2 _ hl) commentId rfl, thread, thread, Store.replies, hcomments,
    Store.replies]

theorem write_comment (hinv : C.inv s)
    (hold : s.comments.find? row.commentId = some old)
    (hparent : row.parentCommentId = old.parentCommentId) (hquiz : row.quizId = old.quizId)
    (hdeleted : row.notDeleted = old.notDeleted) (hcount : row.repliesCount = old.repliesCount)
    (hlock : comment row.commentId ∈ locks) :
    C.Keeps locks s (s.write (.comment row)) := by
  refine hC.keeps (hC.update hinv hold hparent hquiz hdeleted hcount) fun commentId hl => ?_
  refine thread_write_comment_of_ne (fun heq => hl (heq ▸ hlock)) ?_
  have hreplies := replies_write_comment hold commentId
  rw [replyWeight_congr hparent hdeleted] at hreplies
  omega

theorem keepsRows : KeepsRows C where
  due q t _ := hC.due q t
  find? hagree hlock := hC.find? hagree hlock
  of_eq h hcomments _ := hC.of_eq h hcomments
  withHidden _ _ _ hinv hrow hlock := hC.write_comment hinv hrow rfl rfl rfl rfl hlock

end

end KeepsThreads

/-! ### Votes -/

section

variable (hC : KeepsThreads C)
include hC

theorem wp_count {Q : VoteCounts → List RowLock → List Write → Store → Prop}
    {up down : Int} (hQ : ∀ a s, Q a [] [] s)
    (hwrites : ∀ t : Store, (seen rejectsNullableLock t writes).comments = t.comments)
    (hrow : s.comments.find? commentId = some row) (hlock : comment commentId ∈ locks) :
    C.wp (Repo.incrementVoteCount commentId up down now)
      (C.Settles Q) locks writes s := by
  obtain rfl := key_of_find? hrow
  refine wp_incrementVoteCount fun s₁ hagree₁ _ => ⟨hC.due _ _, row, ?_, ?_⟩
  · rw [hwrites]
    exact (hC.find? hagree₁ hlock).trans hrow
  · intro counts s₂ hagree₂ hinv₂
    have hlock₂ : comment row.commentId ∈ locks ++ [.comment row.commentId] :=
      mem_append_left _ hlock
    have hrow₂ : s₂.comments.find? row.commentId = some row :=
      (hC.find? hagree₂ hlock₂).trans ((hC.find? hagree₁ hlock).trans hrow)
    refine ⟨?_, hQ _ _⟩
    rw [Engine.writes, List.foldl_append]
    have hquiet : (seen rejectsNullableLock s₂ writes).comments = s₂.comments := hwrites s₂
    have hfind : (seen rejectsNullableLock s₂ writes).comments.find?
        (row.withVotes up down now).commentId = some row := by
      rw [hquiet]
      exact hrow₂
    have hkeeps : C.Keeps (locks ++ [.comment row.commentId]) s₂
        (seen rejectsNullableLock s₂ writes) := hC.of_eq (.refl hinv₂) hquiet
    exact hkeeps.trans (hC.write_comment hkeeps.1 hfind rfl rfl rfl rfl hlock₂)

theorem wp_vote {Q : VoteCounts → List RowLock → List Write → Store → Prop}
    {userId : Uuid} {value : VoteValue} (hQ : ∀ a s, Q a [] [] s) :
    C.wp (vote userId commentId value now) Q [] [] s := by
  rw [vote, wp_transactionally]
  refine wp_lockComment (fun t => hC.due _ t) fun s₁ row _ hrow => ?_
  rw [wp_bind, wp_throwUnless]
  intro _
  rw [wp_bind, wp_throwUnless]
  intro _
  rw [wp_bind]
  refine wp_getUserVoteForComment fun s₂ hagree₂ _ => ⟨hC.due _ _, ?_⟩
  have hlock : comment commentId ∈ [comment commentId] := List.mem_singleton.mpr rfl
  have hrow₂ : s₂.comments.find? commentId = some row := (hC.find? hagree₂ hlock).trans hrow
  have hupsert : ∀ up down, C.wp (do
      Repo.upsertVote userId commentId value now
      Repo.incrementVoteCount commentId up down now)
        (C.Settles Q) [comment commentId] [] s₂ := by
    intro up down
    rw [wp_bind]
    refine wp_upsertVote fun s₃ hagree₃ _ => ⟨hC.due _ _, ?_⟩
    exact wp_count hC hQ (fun _ => rfl) ((hC.find? hagree₃ hlock).trans hrow₂)
      (mem_append_left _ hlock)
  split
  · rw [wp_bind]
    refine wp_removeVote fun s₃ hagree₃ _ => ⟨hC.due _ _, fun more => ?_⟩
    exact wp_count hC hQ (fun _ => rfl) ((hC.find? hagree₃ hlock).trans hrow₂)
      (mem_append_left _ hlock)
  · split
    · exact hupsert _ _
    · exact hupsert _ _

theorem wp_removeVote_thread
    {Q : Option VoteCounts → List RowLock → List Write → Store → Prop} {userId : Uuid}
    (hQ : ∀ a s, Q a [] [] s) : C.wp (removeVote userId commentId now) Q [] [] s := by
  rw [removeVote, wp_transactionally]
  refine wp_lockComment (fun t => hC.due _ t) fun s₁ row _ hrow => ?_
  rw [wp_bind, wp_throwUnless]
  intro _
  rw [wp_bind]
  refine wp_getUserVoteForComment fun s₂ hagree₂ _ => ⟨hC.due _ _, ?_⟩
  have hlock : comment commentId ∈ [comment commentId] := List.mem_singleton.mpr rfl
  have hrow₂ : s₂.comments.find? commentId = some row := (hC.find? hagree₂ hlock).trans hrow
  split
  · exact Settles.of_reads (hQ _)
  · rw [wp_bind]
    obtain rfl := key_of_find? hrow
    refine wp_incrementVoteCount fun s₃ hagree₃ _ =>
      ⟨hC.due _ _, row, (hC.find? hagree₃ hlock).trans hrow₂, fun counts => ?_⟩
    rw [wp_bind]
    refine wp_removeVote fun s₄ hagree₄ _ => ⟨hC.due _ _, fun more s₅ hagree₅ hinv₅ => ⟨?_, hQ _ _⟩⟩
    have hlock₄ : comment row.commentId ∈
        [comment row.commentId] ++ [.comment row.commentId] := mem_append_left _ hlock
    have hlock₅ : comment row.commentId ∈
        [comment row.commentId] ++ [.comment row.commentId] ++ more :=
      mem_append_left _ hlock₄
    have hrow₅ : ∀ up down, s₅.comments.find? (row.withVotes up down now).commentId = some row :=
      fun _ _ => (hC.find? hagree₅ hlock₅).trans ((hC.find? hagree₄ hlock₄).trans
        ((hC.find? hagree₃ hlock).trans hrow₂))
    refine hC.of_eq (t := s₅.write (.comment (row.withVotes _ _ now))) ?_ rfl
    exact hC.write_comment hinv₅ (hrow₅ _ _) rfl rfl rfl rfl hlock₅

/-! ### Deletion -/

theorem keeps_delete_top (hs : C.inv s)
    (hrow : s.comments.find? row.commentId = some row) (htop : row.parentCommentId = none)
    (hlock : comment row.commentId ∈ locks) :
    C.Keeps locks s (s.write (.comment (row.withDeleted now))) := by
  have hfind : s.comments.find? (row.withDeleted now).commentId = some row := hrow
  have hnew : (row.withDeleted now).parentCommentId = none := htop
  refine hC.keeps (hC.deleteTop now hs hrow htop) fun id hl => ?_
  refine thread_write_comment_of_ne (fun heq => hl (heq ▸ hlock)) ?_
  have hreplies := replies_write_comment hfind id
  rw [replyWeight_top hnew, replyWeight_top htop] at hreplies
  omega

theorem keeps_delete_reply (hs : C.inv s)
    (hrow : s.comments.find? row.commentId = some row) (hp : row.parentCommentId = some p)
    (hdeleted : row.notDeleted = true)
    (hparent : (s.write (.comment (row.withDeleted now))).comments.find? p = some parent)
    (hlock : comment row.commentId ∈ locks) (hlock' : comment p ∈ locks) :
    C.Keeps locks s ((s.write (.comment (row.withDeleted now))).write
      (.comment (parent.withReplies (-1) now))) := by
  have hfind : s.comments.find? (row.withDeleted now).commentId = some row := hrow
  refine hC.keeps (hC.deleteReply hs hrow hp hdeleted hparent) fun id hl => ?_
  refine thread_withReplies (fun hne => ?_) hparent (fun heq => hl (heq ▸ hlock))
    fun heq => hl (heq ▸ hlock')
  have hreplies := replies_write_comment hfind id
  rw [replyWeight_reply hp hdeleted, replyWeight_deleted rfl, if_neg hne] at hreplies
  omega

theorem wp_deleteComment {Q : Unit → List RowLock → List Write → Store → Prop}
    (hQ : ∀ a s, Q a [] [] s) : C.wp (deleteComment commentId authorId now) Q [] [] s := by
  rw [deleteComment, wp_transactionally]
  refine wp_lockComment (fun t => hC.due _ t) fun s₁ row _ hrow => ?_
  obtain rfl := key_of_find? hrow
  rw [wp_bind, wp_throwUnless]
  intro hauthor
  split
  · next hdeleted =>
    rw [wp_bind]
    have hlock : comment row.commentId ∈ [comment row.commentId] :=
      List.mem_singleton.mpr rfl
    have hlock₂ : comment row.commentId ∈
        [comment row.commentId] ++ [.comment row.commentId] := mem_append_left _ hlock
    refine wp_softDeleteComment fun s₂ hagree₂ _ => ?_
    have hrow₂ := (hC.find? hagree₂ hlock).trans hrow
    refine ⟨hC.due _ _, row, hrow₂, beq_iff_eq.mp hauthor, fun deleted => ?_⟩
    rw [wp_bind, wp_throwUnless]
    intro _
    cases hp : row.parentCommentId with
    | none =>
      intro s₃ hagree₃ hinv₃
      have hrow₃ := (hC.find? hagree₃ hlock₂).trans hrow₂
      exact ⟨keeps_delete_top hC hinv₃ hrow₃ hp hlock₂, hQ _ _⟩
    | some p =>
      refine wp_incrementRepliesCount fun s₃ hagree₃ hinv₃ =>
        ⟨hC.due _ _, fun hnone => ?_, ?_⟩
      · -- the parent has a row
        have hrow₃ := (hC.find? hagree₃ hlock₂).trans hrow₂
        obtain ⟨parent, hparent⟩ := hC.parent hinv₃ hrow₃ hp
        have hfind := find?_write_comment s₃ (row.withDeleted now) p
        rw [hparent] at hfind
        split at hfind
        · cases hnone.symm.trans hfind
        · cases hnone.symm.trans hfind
      · intro parent hparent s₄ hagree₄ hinv₄
        have hlock₄ : comment row.commentId ∈
            [comment row.commentId] ++ [.comment row.commentId] ++ [.comment p] :=
          mem_append_left _ hlock₂
        have hlock' : comment p ∈
            [comment row.commentId] ++ [.comment row.commentId] ++ [.comment p] :=
          List.mem_append_right _ (List.mem_singleton.mpr rfl)
        have hrow₄ := (hC.find? hagree₄ hlock₄).trans
          ((hC.find? hagree₃ hlock₂).trans hrow₂)
        have hparent₄ : (s₄.write (.comment (row.withDeleted now))).comments.find? p
            = some parent := by
          rw [find?_write_comment, hC.find? hagree₄ hlock', ← find?_write_comment]
          exact hparent
        exact ⟨keeps_delete_reply hC hinv₄ hrow₄ hp hdeleted hparent₄ hlock₄ hlock', hQ _ _⟩
  · exact Settles.of_reads (hQ _)

/-! ### Creation -/

theorem TakesReply.of_agree {quizId : Uuid} (h : TakesReply quizId p s)
    (hagree : C.Agree locks s t) (hlock : comment p ∈ locks) : TakesReply quizId p t := by
  refine ⟨?_, ?_⟩
  · rw [hC.find? hagree hlock]
    exact h.row
  · rw [hC.replies hagree hlock]
    exact h.room

theorem keeps_new_top {commentId quizId : Uuid} (hs : C.inv s)
    (hnone : s.comments.find? commentId = none) (hlock : comment commentId ∈ locks) :
    C.Keeps locks s (s.write (.comment (newComment commentId quizId authorId none body now))) := by
  have hfresh : s.comments.find? (newComment commentId quizId authorId none body now).commentId
      = none := hnone
  refine hC.keeps (hC.insertTop quizId authorId body now hs hnone) fun id hl => ?_
  refine thread_write_comment_of_ne (fun heq => hl (heq ▸ hlock)) ?_
  have hreplies := replies_write_new hfresh id
  rw [replyWeight_top rfl] at hreplies
  omega

theorem keeps_new_reply {commentId quizId : Uuid} (hs : C.inv s)
    (hnone : s.comments.find? commentId = none) (htakes : TakesReply quizId p s)
    (hparent : (s.write (.comment (newComment commentId quizId authorId (some p) body
      now))).comments.find? p = some parent)
    (hlock : comment commentId ∈ locks) (hlock' : comment p ∈ locks) :
    C.Keeps locks s
      ((s.write (.comment (newComment commentId quizId authorId (some p) body now))).write
        (.comment (parent.withReplies 1 now))) := by
  have hfresh : s.comments.find?
      (newComment commentId quizId authorId (some p) body now).commentId = none := hnone
  refine hC.keeps (hC.insertReply hs hnone htakes hparent) fun id hl => ?_
  refine thread_withReplies (fun hne => ?_) hparent (fun heq => hl (heq ▸ hlock))
    fun heq => hl (heq ▸ hlock')
  have hreplies := replies_write_new hfresh id
  rw [replyWeight_reply rfl rfl, if_neg hne] at hreplies
  omega

theorem wp_insertion {Q : CommentRow → List RowLock → List Write → Store → Prop} {quizId : Uuid}
    {parentCommentId : Option Uuid}
    (hparent : ∀ p, parentCommentId = some p → comment p ∈ locks ∧ TakesReply quizId p s)
    (hQ : ∀ a s, Q a [] [] s) :
    C.wp (do
      let comment ← Repo.createComment commentId quizId authorId parentCommentId body now
      parentCommentId.forM fun p => Repo.incrementRepliesCount p 1 now
      let author ← Repo.getAuthorForComment .tx comment.commentId
      let _ ← orThrow author (.commentNotFound comment.commentId)
      pure comment) (C.Settles Q) locks [] s := by
  rw [wp_bind]
  refine wp_createComment fun s₁ hagree₁ _ => ⟨hC.due _ _, fun hfresh => ?_⟩
  have hlock : comment commentId ∈ locks ++ [.comment commentId] :=
    List.mem_append_right _ (List.mem_singleton.mpr rfl)
  cases parentCommentId with
  | none =>
    refine wp_author hC.keepsRows fun s' hagree hinv => ⟨?_, hQ _ _⟩
    exact keeps_new_top hC hinv ((hC.find? hagree hlock).trans hfresh) hlock
  | some p =>
    obtain ⟨hlockp, htakes⟩ := hparent p rfl
    have hlockp₁ : comment p ∈ locks ++ [.comment commentId] :=
      mem_append_left _ hlockp
    show C.wp (Repo.incrementRepliesCount p 1 now >>= _) _ _ _ _
    rw [wp_bind]
    refine wp_incrementRepliesCount fun s₂ hagree₂ _ => ?_
    have htakes₂ := (htakes.of_agree hC hagree₁ hlockp).of_agree hC hagree₂ hlockp₁
    refine ⟨hC.due _ _, fun hnone => ?_, fun parent hparent => wp_author hC.keepsRows ?_⟩
    · obtain ⟨parent, hparent, -⟩ := htakes₂.row
      have hfind := find?_write_comment s₂
        (newComment commentId quizId authorId (some p) body now) p
      rw [hparent] at hfind
      split at hfind
      · cases hnone.symm.trans hfind
      · cases hnone.symm.trans hfind
    · intro s₃ hagree₃ hinv₃
      have hlock₃ : comment commentId ∈
          locks ++ [.comment commentId] ++ [.comment p] := mem_append_left _ hlock
      have hlockp₃ : comment p ∈ locks ++ [.comment commentId] ++ [.comment p] :=
        mem_append_left _ hlockp₁
      have hfresh₃ : s₃.comments.find? commentId = none :=
        (hC.find? hagree₃ hlock₃).trans ((hC.find? hagree₂ hlock).trans hfresh)
      have hparent₃ : (s₃.write (.comment
          (newComment commentId quizId authorId (some p) body now))).comments.find? p
            = some parent := by
        rw [find?_write_comment, hC.find? hagree₃ hlockp₃, ← find?_write_comment]
        exact hparent
      exact ⟨keeps_new_reply hC hinv₃ hfresh₃ (htakes₂.of_agree hC hagree₃ hlockp₃) hparent₃ hlock₃
        hlockp₃, hQ _ _⟩

theorem wp_createComment_thread
    {Q : CommentRow → List RowLock → List Write → Store → Prop} {quizId : Uuid}
    {parentCommentId : Option Uuid} (hQ : ∀ a s, Q a [] [] s) :
    C.wp (createComment commentId quizId authorId parentCommentId body now) Q [] [] s := by
  rw [createComment, wp_bind]
  refine wp_onDb_select (fun _ => ⟨_, rfl⟩) fun s₀ _ _ => ⟨hC.due _ _, fun found _ => ?_⟩
  rw [wp_bind, wp_throwUnless]
  intro _
  rw [wp_transactionally, insertComment, wp_bind]
  cases parentCommentId with
  | none => exact wp_insertion hC (fun _ h => by cases h) hQ
  | some p =>
    refine wp_lockParent hC.keepsRows
      fun s' parent _ hrow hquiz htop s'' hagree _ hroom => wp_insertion hC (fun p' hp' => ?_) hQ
    obtain rfl : p = p' := Option.some.inj hp'
    have hlock : comment p ∈ [comment p] := List.mem_singleton.mpr rfl
    exact ⟨hlock, ⟨parent, (hC.find? hagree hlock).trans hrow, htop, hquiz⟩, hroom⟩

/-! ### All requests -/

theorem safe_program (request : Request) (s : Store) :
    C.Safe (request.program rejectsNullableLock) [] [] s := by
  cases request with
  | createComment commentId quizId authorId parentCommentId body now =>
    exact wp_bind.mpr (wp_createComment_thread hC fun _ _ => trivial)
  | editComment commentId authorId body expectedUpdatedAt now =>
    exact wp_bind.mpr (wp_editComment hC.keepsRows)
  | deleteComment commentId authorId now =>
    exact wp_bind.mpr (wp_deleteComment hC fun _ _ => trivial)
  | vote userId commentId value now => exact wp_bind.mpr (wp_vote hC fun _ _ => trivial)
  | removeVote userId commentId now =>
    exact wp_bind.mpr (wp_removeVote_thread hC fun _ _ => trivial)
  | hideComment commentId moderatorId role now =>
    exact wp_bind.mpr (wp_hideComment hC.keepsRows fun _ _ => trivial)
  | restoreComment commentId moderatorId role now =>
    exact wp_bind.mpr (wp_restoreComment hC.keepsRows fun _ _ => trivial)
  | reviewReport reportId reviewerId status actionTaken now =>
    exact wp_bind.mpr (wp_reviewReport hC.keepsRows fun _ _ => trivial)

end

end Rules

/-! ### The threads -/

theorem threadContract_keepsThreads : KeepsThreads (threadContract rejectsNullableLock) where
  due _ _ := trivial
  slice_eq_iff {l s t} := by
    cases l with
    | comment commentId => simp [threadContract]
    | vote pair => simp [threadContract]
    | report reportId => simp [threadContract]
  congr {s t} hinv hcomments := by
    have hok : ThreadsOk s := hinv
    have hreplies : ∀ commentId, t.replies commentId = s.replies commentId := fun commentId => by
      rw [Store.replies, hcomments, Store.replies]
    refine ⟨fun commentId x hx => ?_, fun commentId => ?_, ?_⟩
    · rw [hreplies]
      exact hok.counted commentId x (hcomments ▸ hx)
    · exact hreplies commentId ▸ hok.bounded commentId
    · rw [TwoLevels, hcomments]
      exact hok.twoLevels
  update {s row old} hinv hold hparent hquiz hdeleted hcount := by
    have hok : ThreadsOk s := hinv
    have hweight : ∀ id, replyWeight row id = replyWeight old id :=
      replyWeight_congr hparent hdeleted
    refine (hok.write_comment hold hparent hquiz fun id => (hweight id).le).congr fun id => ?_
    rw [hweight, hcount, sub_self, ite_self]
    omega
  parent {s row p} hinv hrow hp := by
    have hok : ThreadsOk s := hinv
    obtain ⟨parent, hparent, -⟩ := hok.twoLevels row (mem_of_find? hrow) p hp
    exact ⟨parent, hparent⟩
  deleteTop {s row} now hinv hrow htop := by
    have hok : ThreadsOk s := hinv
    have hfind : s.comments.find? (row.withDeleted now).commentId = some row := hrow
    have hnew : (row.withDeleted now).parentCommentId = none := htop
    refine (hok.write_comment hfind rfl rfl fun id => ?_).congr fun id => ?_
    · rw [replyWeight_top hnew, replyWeight_top htop]
    · rw [replyWeight_top hnew, replyWeight_top htop]
      show _ + _ - _ + (if id = row.commentId then row.repliesCount - row.repliesCount else 0) = _
      rw [sub_self, ite_self]
      omega
  deleteReply {s row parent p now} hinv hrow hp hdeleted hparent := by
    have hok : ThreadsOk s := hinv
    have hfind : s.comments.find? (row.withDeleted now).commentId = some row := hrow
    have hold : ∀ id, replyWeight row id = if id = p then 1 else 0 := replyWeight_reply hp hdeleted
    have hnew : ∀ id, replyWeight (row.withDeleted now) id = 0 := replyWeight_deleted rfl
    refine ThreadsOff.withReplies ((hok.write_comment hfind rfl rfl fun id => ?_).congr
      fun id => ?_) hparent
    · rw [hold, hnew]
      split <;> omega
    · rw [hold, hnew]
      show _ + _ - _ + (if id = row.commentId then row.repliesCount - row.repliesCount else 0) = _
      rw [sub_self, ite_self]
      split <;> omega
  insertTop {s commentId} quizId authorId body now hinv hnone := by
    have hok : ThreadsOk s := hinv
    exact (ThreadsOff.insert hok hnone rfl fun _ h => by cases h).congr (replyWeight_top rfl)
  insertReply {s parent commentId quizId authorId p body now} hinv hnone htakes hparent := by
    have hok : ThreadsOk s := hinv
    refine ThreadsOff.withReplies ((ThreadsOff.insert hok hnone rfl fun p' hp' => ?_).congr
      (replyWeight_reply rfl rfl)) hparent
    obtain rfl : p = p' := Option.some.inj hp'
    exact ⟨htakes.row, htakes.room⟩

theorem threads_kept (rejectsNullableLock : Bool) :
    (threadContract rejectsNullableLock).Kept (Request.program rejectsNullableLock)
      Outside.apply := by
  refine ⟨fun request s _ => safe_program threadContract_keepsThreads request s, fun o s hs => ?_⟩
  cases o with
  | setQuizzes quizzes => exact threadContract_keepsThreads.of_eq (.refl hs) rfl
  | setUsers users => exact threadContract_keepsThreads.of_eq (.refl hs) rfl

end Keep

/-! ## The threads of every reachable state -/

theorem threadsOk_empty (votes : Votes) (reports : Reports) (users quizzes : List Uuid)
    (audit : List AuditRow) : ThreadsOk ⟨empty _, votes, reports, users, quizzes, audit⟩ :=
  ⟨fun _ _ h => absurd h (Option.some_ne_none _).symm, fun _ => Nat.zero_le _,
    fun _ h => absurd h List.not_mem_nil⟩

/-- In every state of every run the parent of a reply is a top-level comment on the same quiz,
`replies_count` is the number of a comment's replies that are not deleted, and that is never more than
`MAX_REPLIES_PER_COMMENT`. -/
theorem threads_bounded {rejectsNullableLock : Bool} {db : Store} (hdb : ThreadsOk db)
    {as : List (TxAction Request Outside)} {s : CommentSystem rejectsNullableLock}
    (hrun : exec (CommentSystem.step rejectsNullableLock) (TxSystem.start db) as = some s) :
    (∀ row ∈ (s.store : Store).comments.rows, ∀ p, row.parentCommentId = some p →
      ∃ parent ∈ (s.store : Store).comments.rows, parent.commentId = p ∧
        parent.parentCommentId = none ∧ parent.quizId = row.quizId) ∧
    (∀ row ∈ (s.store : Store).comments.rows,
      row.repliesCount = Store.replies s.store row.commentId) ∧
    ∀ commentId, Store.replies s.store commentId ≤ maxRepliesPerComment := by
  have hinv : (threadContract rejectsNullableLock).Inv s :=
    (Contract.Inv.start (C := threadContract rejectsNullableLock) hdb).exec
      (threads_kept rejectsNullableLock) hrun
  have hok : ThreadsOk s.store := hinv.inv
  refine ⟨fun row hrow p hp => ?_, fun row hrow => ?_, hok.bounded⟩
  · obtain ⟨parent, hparent, htop, hquiz⟩ := hok.twoLevels row hrow p hp
    exact ⟨parent, Table.mem_of_find? hparent, Table.key_of_find? hparent, htop, hquiz⟩
  · have hcounted := hok.counted row.commentId row (Table.find?_of_mem hrow)
    omega

/-- Two users reply to a comment at once, and one of the replies is deleted while the other is on its
way. -/
def replying : List (TxAction Request Outside) :=
  (.begin "a" (.createComment 20 7 1 none "Nice one" 5) :: replicate 5 (.proceed "a") :
    List (TxAction Request Outside)) ++
  (.begin "b" (.createComment 21 7 2 (some 20) "It is" 6) ::
    .begin "c" (.createComment 22 7 3 (some 20) "Not for me" 6) ::
    .proceed "c" :: replicate 8 (.proceed "b") : List (TxAction Request Outside)) ++
  (.begin "d" (.deleteComment 21 2 7) :: replicate 2 (.proceed "d") :
    List (TxAction Request Outside)) ++
  (replicate 7 (.proceed "c") : List (TxAction Request Outside)) ++
  (replicate 2 (.proceed "d") : List (TxAction Request Outside))

/-- `replying` leaves the comment with one reply. -/
theorem threads_bounded_replying : ∃ s : CommentSystem false,
    exec (CommentSystem.step false) (TxSystem.start threeUsers) replying = some s ∧
      (s.store : Store).comments.rows.map (fun row => (row.commentId, row.repliesCount))
        = [(22, 0), (21, 0), (20, 1)] ∧
      ∀ row ∈ (s.store : Store).comments.rows,
        row.repliesCount = Store.replies s.store row.commentId := by
  refine exists_of_read
    (fun s => (s.store : Store).comments.rows.map (fun row => (row.commentId, row.repliesCount)))
    [(22, 0), (21, 0), (20, 1)] (by decide +kernel) fun s hs hread => ?_
  have hdb : ThreadsOk threeUsers := threadsOk_empty _ _ _ _ _
  exact ⟨hread, (threads_bounded hdb hs).2.1⟩

end QuizBackend.Comment.Threads
