import QuizBackend.Comment.Service

/-!
# The vote counters of comments

`upvotes_count`, `downvotes_count` and `votes_count` of a comment are the numbers of its votes in every
state, whatever requests run at once. A counter is moved by what the transaction has read of the
user's vote, so the vote must not move in between: `vote` and `removeVote` take the lock of the
comment first, and what a lock protects here is the comment together with its votes (`Store.ballot`).

`voteContract` says what is kept, `safe_program` that every request keeps it, and the counters of all
reachable states follow from `Contract.Inv.exec`. That no `GREATEST(0, …)` ever changes a value is what
`incrementVoteCount` may rely on.
-/

namespace QuizBackend.Comment

open Lib Contract RowLock Table VoteRow Store VoteValue
open List (mem_append_left replicate)

/-! ## Counters and votes -/

def VoteRow.isUp (v : VoteRow) : Bool := v.value == .upvote

def VoteRow.isDown (v : VoteRow) : Bool := v.value == .downvote

def Store.votesOf (s : Store) (commentId : Uuid) : List VoteRow :=
  s.votes.rows.filter fun v => decide (v.commentId = commentId)

/-- The counters of a comment are its votes, up to what is pending. -/
structure Tallied (row : CommentRow) (votes : List VoteRow) (up down : Int) : Prop where
  upvotes : row.upvotesCount + up = votes.countP isUp
  downvotes : row.downvotesCount + down = votes.countP isDown
  total : row.votesCount + (up + down) = votes.length

def Store.ballot (s : Store) (commentId : Uuid) : Option CommentRow × List VoteRow :=
  (s.comments.find? commentId, s.votesOf commentId)

/-- The counters are right, and the author has not voted. What has no row has no votes. -/
def BallotOk : Option CommentRow × List VoteRow → Prop
  | (none, votes) => votes = []
  | (some row, votes) => Tallied row votes 0 0 ∧ ∀ v ∈ votes, v.userId ≠ row.authorId

/-- Every counter is the number of its votes. -/
def VotesOk (s : Store) : Prop := ∀ commentId, BallotOk (s.ballot commentId)

/-- The three `GREATEST(0, …)` of an `incrementVoteCount` change nothing. -/
def ClampsIdle (s : Store) (commentId : Uuid) (deltaUpvotes deltaDownvotes : Int) : Prop :=
  ∀ row, s.comments.find? commentId = some row →
    max 0 (row.upvotesCount + deltaUpvotes) = row.upvotesCount + deltaUpvotes ∧
      max 0 (row.downvotesCount + deltaDownvotes) = row.downvotesCount + deltaDownvotes ∧
        max 0 (row.votesCount + (deltaUpvotes + deltaDownvotes))
          = row.votesCount + (deltaUpvotes + deltaDownvotes)

def ClampDue (s : Store) : Statement → Prop
  | .incrementVoteCount commentId deltaUpvotes deltaDownvotes _ =>
    ClampsIdle s commentId deltaUpvotes deltaDownvotes
  | _ => True

def voteContract (rejectsNullableLock : Bool) : Contract (commentEngine rejectsNullableLock) where
  Slice := Option CommentRow × List VoteRow
  slice := fun l s =>
    match l with
    | .comment commentId => ballot s commentId
    | .vote _ | .report _ => (none, [])
  inv := VotesOk
  due := fun q s => ClampDue s q

variable {up down now : Int} {authorId : Uuid}

theorem Tallied.clampsIdle {s : Store} {commentId : Uuid} {row : CommentRow} {votes : List VoteRow}
    (h : Tallied row votes up down) (hrow : s.comments.find? commentId = some row) :
    ClampsIdle s commentId up down := by
  intro row' hrow'
  obtain rfl := Option.some.inj (hrow.symm.trans hrow')
  have hups := h.upvotes
  have hdowns := h.downvotes
  have htotal := h.total
  refine ⟨max_eq_right ?_, max_eq_right ?_, max_eq_right ?_⟩
  · rw [hups]
    exact Int.natCast_nonneg _
  · rw [hdowns]
    exact Int.natCast_nonneg _
  · rw [htotal]
    exact Int.natCast_nonneg _

theorem Tallied.withVotes {row : CommentRow} {votes : List VoteRow} (h : Tallied row votes up down)
    (now : Int) : Tallied (row.withVotes up down now) votes 0 0 := by
  have hups := h.upvotes
  have hdowns := h.downvotes
  have htotal := h.total
  refine ⟨?_, ?_, ?_⟩ <;> simp only [CommentRow.withVotes] <;> omega

/-! ## What a write does to the votes of a comment -/

section Writes

variable {s : Store} {commentId : Uuid} {row : CommentRow}

theorem find?_votesOf (s : Store) (userId commentId : Uuid) :
    s.votes.find? (userId, commentId)
      = (s.votesOf commentId).find? fun v => decide (v.userId = userId) := by
  rw [votesOf, List.find?_filter, find?]
  refine congrArg (fun p => s.votes.rows.find? p) (funext fun v => ?_)
  simp [pair, and_comm]

theorem mem_votesOf {v : VoteRow} :
    v ∈ s.votesOf commentId ↔ v ∈ s.votes.rows ∧ v.commentId = commentId := by
  simp [votesOf]

theorem countP_votesOf (s : Store) (commentId : Uuid) (p : VoteRow → Bool) :
    (s.votesOf commentId).countP p
      = s.votes.rows.countP fun v => p v && decide (v.commentId = commentId) :=
  List.countP_filter

theorem votesOf_vote_of_ne {v : VoteRow} (h : v.commentId ≠ commentId) :
    (s.write (.vote v)).votesOf commentId = s.votesOf commentId := by
  show ((s.votes.upsert v).rows.filter _) = _
  rw [rows_upsert, List.filter_append, List.filter_cons_of_neg (by simpa using h),
    List.filter_nil, List.append_nil]
  show ((s.votes.rows.filter _).filter _) = _
  rw [List.filter_filter]
  refine List.filter_congr fun x _ => ?_
  by_cases hx : x.commentId = commentId
  · have hne : x.pair ≠ v.pair := fun he => h ((congrArg Prod.snd he).symm.trans hx)
    simp [hx, hne]
  · simp [hx]

theorem votesOf_unvote_of_ne {pair : Uuid × Uuid} (h : pair.2 ≠ commentId) :
    (s.write (.unvote pair)).votesOf commentId = s.votesOf commentId := by
  show ((s.votes.rows.filter _).filter _) = _
  rw [List.filter_filter]
  refine List.filter_congr fun x _ => ?_
  by_cases hx : x.commentId = commentId
  · have hne : x.pair ≠ pair := fun he => h ((congrArg Prod.snd he).symm.trans hx)
    simp [hx, hne]
  · simp [hx]

def weight (p : VoteRow → Bool) : Option VoteRow → Nat
  | none => 0
  | some v => if p v then 1 else 0

def upsOf : Option VoteRow → Int
  | none => 0
  | some v => v.value.ups

def downsOf : Option VoteRow → Int
  | none => 0
  | some v => v.value.downs

theorem weight_isUp (o : Option VoteRow) : (weight isUp o : Int) = upsOf o := by
  cases o with
  | none => rfl
  | some v => cases hv : v.value <;> simp [weight, isUp, upsOf, ups, hv]

theorem weight_isDown (o : Option VoteRow) : (weight isDown o : Int) = downsOf o := by
  cases o with
  | none => rfl
  | some v => cases hv : v.value <;> simp [weight, isDown, downsOf, downs, hv]

theorem weight_true (o : Option VoteRow) :
    (weight (fun _ => true) o : Int) = upsOf o + downsOf o := by
  cases o with
  | none => rfl
  | some v => cases hv : v.value <;> simp [weight, upsOf, downsOf, ups, downs, hv]

theorem Tallied.moved {votes votes' : List VoteRow} {old new : Option VoteRow}
    (h : Tallied row votes 0 0)
    (hcount : ∀ p, votes'.countP p + weight p old = votes.countP p + weight p new) :
    Tallied row votes' (upsOf new - upsOf old) (downsOf new - downsOf old) := by
  have hups := hcount isUp
  have hdowns := hcount isDown
  have htotal := hcount fun _ => true
  have hlength : ∀ l : List VoteRow, l.countP (fun _ => true) = l.length :=
    congrFun List.countP_true
  rw [hlength, hlength] at htotal
  obtain ⟨hup, hdown, hall⟩ := h
  refine ⟨?_, ?_, ?_⟩
  · rw [← weight_isUp, ← weight_isUp]
    omega
  · rw [← weight_isDown, ← weight_isDown]
    omega
  · have hold := weight_true old
    have hnew := weight_true new
    omega

theorem countP_votesOf_vote (s : Store) (v : VoteRow) (p : VoteRow → Bool) :
    ((s.write (.vote v)).votesOf v.commentId).countP p + weight p (s.votes.find? v.pair)
      = (s.votesOf v.commentId).countP p + weight p (some v) := by
  rw [countP_votesOf, countP_votesOf, votes_write_vote]
  cases hold : s.votes.find? v.pair with
  | none =>
    refine (countP_upsert_of_none _ hold).trans ?_
    simp [weight]
  | some old =>
    have hsame : old.commentId = v.commentId := congrArg Prod.snd (key_of_find? hold)
    have hcount := countP_upsert_of_some
      (fun x => p x && decide (x.commentId = v.commentId)) hold
    simpa [weight, hsame] using hcount

theorem countP_votesOf_unvote {s : Store} {pair : Uuid × Uuid} {old : VoteRow}
    (hold : s.votes.find? pair = some old) (p : VoteRow → Bool) :
    ((s.write (.unvote pair)).votesOf pair.2).countP p + weight p (some old)
      = (s.votesOf pair.2).countP p + weight p none := by
  have hsame : old.commentId = pair.2 := congrArg Prod.snd (key_of_find? hold)
  rw [countP_votesOf, countP_votesOf, votes_write_unvote]
  have hcount := countP_erase (fun x => p x && decide (x.commentId = pair.2)) hold
  simpa [weight, hsame] using hcount

end Writes

/-! ## Keeping the contract -/

section Keep

variable {rejectsNullableLock : Bool} {locks : List RowLock} {s t : Store}

theorem keeps_of_ballots (h : ∀ commentId, t.ballot commentId = s.ballot commentId ∨
      (comment commentId ∈ locks ∧ BallotOk (t.ballot commentId))) (hs : VotesOk s) :
    (voteContract rejectsNullableLock).Keeps locks s t := by
  refine ⟨fun commentId => ?_, fun l hl => ?_⟩
  · rcases h commentId with hsame | ⟨-, hok⟩
    · exact hsame ▸ hs commentId
    · exact hok
  · cases l with
    | comment commentId => exact (h commentId).resolve_right fun hin => hl hin.1
    | vote pair => rfl
    | report reportId => rfl

theorem ballot_write_comment (s : Store) (row : CommentRow) (commentId : Uuid) :
    (s.write (.comment row)).ballot commentId =
      if commentId = row.commentId then (some row, s.votesOf commentId)
      else s.ballot commentId := by
  show (find? (s.comments.upsert row) commentId, s.votesOf commentId) = _
  rw [find?_upsert]
  split <;> rfl

theorem Keeps.write_comment (h : (voteContract rejectsNullableLock).Keeps locks s t)
    {row row' : CommentRow} (hrow : t.comments.find? row'.commentId = some row)
    (hauthor : row'.authorId = row.authorId) (hups : row'.upvotesCount = row.upvotesCount)
    (hdowns : row'.downvotesCount = row.downvotesCount) (htotal : row'.votesCount = row.votesCount)
    (hlock : comment row'.commentId ∈ locks) :
    (voteContract rejectsNullableLock).Keeps locks s (t.write (.comment row')) := by
  have hok : BallotOk (t.ballot row'.commentId) := h.1 row'.commentId
  rw [ballot, hrow] at hok
  obtain ⟨⟨hup, hdown, hall⟩, hself⟩ := hok
  refine ⟨fun commentId => ?_, fun l hl => ?_⟩
  · rw [ballot_write_comment]
    split
    · next hid =>
      subst hid
      exact ⟨⟨hups ▸ hup, hdowns ▸ hdown, htotal ▸ hall⟩, fun v hv => hauthor ▸ hself v hv⟩
    · exact h.1 commentId
  · rw [← h.2 l hl]
    cases l with
    | comment commentId =>
      refine (ballot_write_comment t row' commentId).trans (if_neg ?_)
      exact fun hid => hl (hid ▸ hlock)
    | vote pair => rfl
    | report reportId => rfl

theorem Keeps.insert_comment (h : (voteContract rejectsNullableLock).Keeps locks s t)
    {row : CommentRow} (hnone : t.comments.find? row.commentId = none)
    (hups : row.upvotesCount = 0) (hdowns : row.downvotesCount = 0) (htotal : row.votesCount = 0)
    (hlock : comment row.commentId ∈ locks) :
    (voteContract rejectsNullableLock).Keeps locks s (t.write (.comment row)) := by
  have hempty : BallotOk (t.ballot row.commentId) := h.1 row.commentId
  rw [ballot, hnone] at hempty
  have hempty : t.votesOf row.commentId = [] := hempty
  refine ⟨fun commentId => ?_, fun l hl => ?_⟩
  · rw [ballot_write_comment]
    split
    · next hid =>
      rw [hid, hempty]
      exact ⟨⟨by rw [hups]; rfl, by rw [hdowns]; rfl, by rw [htotal]; rfl⟩,
        fun _ hv => absurd hv List.not_mem_nil⟩
    · exact h.1 commentId
  · rw [← h.2 l hl]
    cases l with
    | comment commentId =>
      refine (ballot_write_comment t row commentId).trans (if_neg ?_)
      exact fun hid => hl (hid ▸ hlock)
    | vote pair => rfl
    | report reportId => rfl

theorem Keeps.of_eq {t' : Store} (h : (voteContract rejectsNullableLock).Keeps locks s t)
    (hcomments : t'.comments = t.comments) (hvotes : t'.votes = t.votes) :
    (voteContract rejectsNullableLock).Keeps locks s t' := by
  have hballot : ∀ commentId, t'.ballot commentId = t.ballot commentId := by
    intro commentId
    rw [ballot, votesOf, hcomments, hvotes]
    rfl
  refine ⟨fun commentId => hballot commentId ▸ h.1 commentId, fun l hl => ?_⟩
  rw [← h.2 l hl]
  cases l with
  | comment commentId => exact hballot commentId
  | vote pair => rfl
  | report reportId => rfl

/-! ## What a transaction has seen under the lock -/

structure Seen (userId commentId : Uuid) (row : CommentRow) (existing : Option VoteRow)
    (s : Store) : Prop where
  row : s.comments.find? commentId = some row
  vote : s.votes.find? (userId, commentId) = existing

theorem ballot_of_agree (h : (voteContract rejectsNullableLock).Agree locks s t) {commentId : Uuid}
    (hlock : comment commentId ∈ locks) : t.ballot commentId = s.ballot commentId :=
  h _ hlock

theorem find?_of_agree (h : (voteContract rejectsNullableLock).Agree locks s t) {commentId : Uuid}
    (hlock : comment commentId ∈ locks) :
    t.comments.find? commentId = s.comments.find? commentId :=
  congrArg Prod.fst (ballot_of_agree h hlock)

theorem Seen.of_agree {userId commentId : Uuid} {row : CommentRow} {existing : Option VoteRow}
    (hseen : Seen userId commentId row existing s)
    (h : (voteContract rejectsNullableLock).Agree locks s t)
    (hlock : comment commentId ∈ locks) : Seen userId commentId row existing t := by
  refine ⟨(find?_of_agree h hlock).trans hseen.row, ?_⟩
  have hvotes : t.votesOf commentId = s.votesOf commentId :=
    congrArg Prod.snd (ballot_of_agree h hlock)
  rw [find?_votesOf, hvotes, ← find?_votesOf]
  exact hseen.vote

theorem voteContract_keepsRows : KeepsRows (voteContract rejectsNullableLock) where
  due q t hq := by
    cases q with
    | incrementVoteCount => cases hq
    | _ => trivial
  find? hagree hlock := find?_of_agree hagree hlock
  of_eq h hcomments hvotes := Keeps.of_eq h hcomments hvotes
  withHidden _ _ _ hinv hrow hlock :=
    Keeps.write_comment (.refl hinv) hrow rfl rfl rfl rfl hlock

theorem tallied_of_votesOk (hs : VotesOk s) {commentId : Uuid} {row : CommentRow}
    (hrow : s.comments.find? commentId = some row) : Tallied row (s.votesOf commentId) 0 0 := by
  have hok : BallotOk (s.ballot commentId) := hs commentId
  rw [ballot, hrow] at hok
  exact hok.1

theorem notSelf_of_votesOk (hs : VotesOk s) {commentId : Uuid} {row : CommentRow}
    (hrow : s.comments.find? commentId = some row) :
    ∀ v ∈ s.votesOf commentId, v.userId ≠ row.authorId := by
  have hok : BallotOk (s.ballot commentId) := hs commentId
  rw [ballot, hrow] at hok
  exact hok.2

theorem keeps_of_vote (hs : VotesOk s) {commentId : Uuid} {row : CommentRow}
    (hrow : s.comments.find? commentId = some row)
    (hcomments : t.comments = s.comments.upsert (row.withVotes up down now))
    (hothers : ∀ id, id ≠ commentId → t.votesOf id = s.votesOf id)
    (htallied : Tallied row (t.votesOf commentId) up down)
    (hself : ∀ v ∈ t.votesOf commentId, v.userId ≠ row.authorId)
    (hlock : comment commentId ∈ locks) :
    (voteContract rejectsNullableLock).Keeps locks s t := by
  have hid : row.commentId = commentId := key_of_find? hrow
  refine keeps_of_ballots (fun id => ?_) hs
  rw [ballot, hcomments, find?_upsert]
  show (if id = row.commentId then _ else _, _) = _ ∨ _ ∧ BallotOk (if id = row.commentId then _ else _, _)
  rw [hid]
  split
  · next heq =>
    subst heq
    exact .inr ⟨hlock, htallied.withVotes now, hself⟩
  · next hne => exact .inl (congrArg (Prod.mk _) (hothers id hne))

/-! ## Programs -/

structure Moves (userId commentId : Uuid) (row : CommentRow) (existing : Option VoteRow) (w : Write)
    (up down : Int) (s : Store) : Prop where
  comments : (s.write w).comments = s.comments
  others : ∀ id, id ≠ commentId → (s.write w).votesOf id = s.votesOf id
  tallied : Tallied row ((s.write w).votesOf commentId) up down
  notSelf : ∀ v ∈ (s.write w).votesOf commentId, v.userId ≠ row.authorId

variable {userId commentId : Uuid} {row : CommentRow} {existing : Option VoteRow}

theorem moves_vote {value : VoteValue} (hs : VotesOk s)
    (hseen : Seen userId commentId row existing s) (hother : userId ≠ row.authorId) :
    Moves userId commentId row existing (.vote ⟨userId, commentId, value, now⟩)
      (value.ups - upsOf existing) (value.downs - downsOf existing) s := by
  refine ⟨rfl, fun id hne => votesOf_vote_of_ne hne.symm, ?_, ?_⟩
  · have hcount := countP_votesOf_vote s ⟨userId, commentId, value, now⟩
    rw [show s.votes.find? (pair ⟨userId, commentId, value, now⟩) = existing from
      hseen.vote] at hcount
    exact (tallied_of_votesOk hs hseen.row).moved hcount
  · intro v hv
    obtain ⟨hmem, hid⟩ := mem_votesOf.mp hv
    rcases mem_upsert.mp hmem with rfl | ⟨hold, -⟩
    · exact hother
    · exact notSelf_of_votesOk hs hseen.row v (mem_votesOf.mpr ⟨hold, hid⟩)

theorem moves_unvote {old : VoteRow} (hs : VotesOk s)
    (hseen : Seen userId commentId row (some old) s) :
    Moves userId commentId row (some old) (.unvote (userId, commentId)) (0 - old.value.ups)
      (0 - old.value.downs) s := by
  refine ⟨rfl, fun id hne => votesOf_unvote_of_ne hne.symm, ?_, ?_⟩
  · have hcount := countP_votesOf_unvote hseen.vote
    exact (tallied_of_votesOk hs hseen.row).moved hcount
  · intro v hv
    obtain ⟨hmem, hid⟩ := mem_votesOf.mp hv
    exact notSelf_of_votesOk hs hseen.row v (mem_votesOf.mpr ⟨(mem_erase.mp hmem).1, hid⟩)

theorem wp_count {Q : VoteCounts → List RowLock → List Write → Store → Prop} {w : Write}
    (hQ : ∀ a s, Q a [] [] s)
    (hmoves : ∀ s, VotesOk s → Seen userId commentId row existing s →
      Moves userId commentId row existing w up down s)
    (hlock : comment commentId ∈ locks) (hseen : Seen userId commentId row existing s) :
    (voteContract rejectsNullableLock).wp (Repo.incrementVoteCount commentId up down now)
      ((voteContract rejectsNullableLock).Settles Q) locks [w] s := by
  refine wp_incrementVoteCount fun s₁ hagree hinv => ?_
  have hseen₁ := hseen.of_agree hagree hlock
  have hmoves₁ := hmoves s₁ hinv hseen₁
  have hrow₁ : (s₁.write w).comments.find? commentId = some row := by
    rw [hmoves₁.comments]
    exact hseen₁.row
  refine ⟨hmoves₁.tallied.clampsIdle hrow₁, row, hrow₁, fun counts s₂ hagree₂ hinv₂ => ?_⟩
  have hseen₂ := hseen₁.of_agree hagree₂ (mem_append_left _ hlock)
  have hmoves₂ := hmoves s₂ hinv₂ hseen₂
  have hcomments : ((s₂.write w).write (.comment (row.withVotes up down now))).comments
      = s₂.comments.upsert (row.withVotes up down now) := by
    rw [comments_write_comment, hmoves₂.comments]
  exact ⟨keeps_of_vote hinv₂ hseen₂.row hcomments hmoves₂.others hmoves₂.tallied hmoves₂.notSelf
    (mem_append_left _ hlock), hQ _ _⟩

theorem wp_vote {Q : VoteCounts → List RowLock → List Write → Store → Prop} {value : VoteValue}
    (hQ : ∀ a s, Q a [] [] s) :
    (voteContract rejectsNullableLock).wp (vote userId commentId value now) Q [] [] s := by
  rw [vote, wp_transactionally]
  refine wp_lockComment (fun _ => trivial) fun s₁ row _ hrow => ?_
  rw [wp_bind, wp_throwUnless]
  intro _
  rw [wp_bind, wp_throwUnless]
  intro hother
  have hother : userId ≠ row.authorId := (bne_iff_ne.mp hother).symm
  rw [wp_bind]
  refine wp_getUserVoteForComment fun s₂ hagree₂ _ => ⟨trivial, ?_⟩
  have hlock : comment commentId ∈ [comment commentId] := List.mem_singleton.mpr rfl
  have hrow₂ : s₂.comments.find? commentId = some row := (find?_of_agree hagree₂ hlock).trans hrow
  show (voteContract rejectsNullableLock).wp
    (if (s₂.votes.find? (userId, commentId)).map VoteRow.value = some value then _
      else if (s₂.votes.find? (userId, commentId)).map VoteRow.value ≠ none then _ else _) _ _ _ _
  obtain ⟨existing, hexisting⟩ : ∃ o, s₂.votes.find? (userId, commentId) = o := ⟨_, rfl⟩
  have hseen : Seen userId commentId row existing s₂ := ⟨hrow₂, hexisting⟩
  rw [hexisting]
  cases existing with
  | none =>
    -- a first vote
    rw [if_neg (by simp), if_neg (by simp), wp_bind]
    refine wp_upsertVote fun s₃ hagree₃ _ => ⟨trivial, ?_⟩
    have hups : (if value = .upvote then 1 else 0 : Int) = value.ups - upsOf none := by
      cases value <;> rfl
    have hdowns : (if value = .downvote then 1 else 0 : Int) = value.downs - downsOf none := by
      cases value <;> rfl
    rw [hups, hdowns]
    exact wp_count hQ (fun s hs h => moves_vote hs h hother) (mem_append_left _ hlock)
      (hseen.of_agree hagree₃ hlock)
  | some old =>
    by_cases hsame : old.value = value
    · -- the same vote again takes it back
      rw [if_pos (by simp [hsame]), wp_bind]
      refine wp_removeVote fun s₃ hagree₃ _ => ⟨trivial, fun more => ?_⟩
      have hups : (if value = .upvote then -1 else 0 : Int) = 0 - old.value.ups := by
        rw [hsame]
        cases value <;> rfl
      have hdowns : (if value = .downvote then -1 else 0 : Int) = 0 - old.value.downs := by
        rw [hsame]
        cases value <;> rfl
      rw [hups, hdowns]
      exact wp_count hQ (fun s hs h => moves_unvote hs h) (mem_append_left _ hlock)
        (hseen.of_agree hagree₃ hlock)
    · -- the other vote
      rw [if_neg (by simpa using hsame), if_pos (by simp), wp_bind]
      refine wp_upsertVote fun s₃ hagree₃ _ => ⟨trivial, ?_⟩
      have hups : (if value = .upvote then 1 else -1 : Int) = value.ups - upsOf (some old) := by
        revert hsame
        cases value <;> cases hold : old.value <;> simp [upsOf, ups, hold]
      have hdowns : (if value = .upvote then -1 else 1 : Int)
          = value.downs - downsOf (some old) := by
        revert hsame
        cases value <;> cases hold : old.value <;> simp [downsOf, downs, hold]
      rw [hups, hdowns]
      exact wp_count hQ (fun s hs h => moves_vote hs h hother) (mem_append_left _ hlock)
        (hseen.of_agree hagree₃ hlock)

theorem wp_removeVote_vote {Q : Option VoteCounts → List RowLock → List Write → Store → Prop}
    (hQ : ∀ a s, Q a [] [] s) :
    (voteContract rejectsNullableLock).wp (removeVote userId commentId now) Q [] [] s := by
  rw [removeVote, wp_transactionally]
  refine wp_lockComment (fun _ => trivial) fun s₁ row _ hrow => ?_
  rw [wp_bind, wp_throwUnless]
  intro _
  rw [wp_bind]
  refine wp_getUserVoteForComment fun s₂ hagree₂ _ => ⟨trivial, ?_⟩
  have hlock : comment commentId ∈ [comment commentId] := List.mem_singleton.mpr rfl
  have hrow₂ : s₂.comments.find? commentId = some row := (find?_of_agree hagree₂ hlock).trans hrow
  cases hexisting : (seen rejectsNullableLock s₂ []).votes.find? (userId, commentId) with
  | none => exact fun s₃ _ hinv₃ => ⟨Keeps.refl hinv₃, hQ _ _⟩
  | some old =>
    have hseen : Seen userId commentId row (some old) s₂ := ⟨hrow₂, hexisting⟩
    have hups : (if old.value = .upvote then -1 else 0 : Int) = 0 - old.value.ups := by
      cases old.value <;> rfl
    have hdowns : (if old.value = .downvote then -1 else 0 : Int) = 0 - old.value.downs := by
      cases old.value <;> rfl
    show (voteContract rejectsNullableLock).wp (Repo.incrementVoteCount commentId
      (if old.value = .upvote then -1 else 0) (if old.value = .downvote then -1 else 0) now >>= _)
        _ _ _ _
    rw [hups, hdowns, wp_bind]
    -- the counters move first; the vote that makes them positive is still there
    refine wp_incrementVoteCount fun s₃ hagree₃ hinv₃ => ?_
    have hseen₃ := hseen.of_agree hagree₃ hlock
    refine ⟨(moves_unvote hinv₃ hseen₃).tallied.clampsIdle hseen₃.row, row, hseen₃.row,
      fun counts => ?_⟩
    rw [wp_bind]
    refine wp_removeVote fun s₄ hagree₄ _ => ⟨trivial, fun more s₅ hagree₅ hinv₅ => ?_⟩
    have hlock₄ : comment commentId ∈ [comment commentId] ++ [.comment commentId] :=
      mem_append_left _ hlock
    have hseen₅ := (hseen₃.of_agree hagree₄ hlock₄).of_agree hagree₅
      (mem_append_left more hlock₄)
    have hmoves := moves_unvote hinv₅ hseen₅
    exact ⟨keeps_of_vote hinv₅ hseen₅.row rfl hmoves.others hmoves.tallied hmoves.notSelf
      (mem_append_left more hlock₄), hQ _ _⟩

theorem settles_comment {α : Type} {Q : α → List RowLock → List Write → Store → Prop} {a : α}
    {f : CommentRow → CommentRow} {more : List Write} (hQ : ∀ s, Q a [] [] s)
    (hrow : s.comments.find? commentId = some row)
    (hsame : (f row).commentId = row.commentId ∧ (f row).authorId = row.authorId ∧
      (f row).upvotesCount = row.upvotesCount ∧ (f row).downvotesCount = row.downvotesCount ∧
        (f row).votesCount = row.votesCount)
    (hmore : ∀ t : Store, (seen rejectsNullableLock t more).comments = t.comments ∧
      (seen rejectsNullableLock t more).votes = t.votes)
    (hlock : comment commentId ∈ locks) :
    (voteContract rejectsNullableLock).Settles Q a locks (.comment (f row) :: more) s := by
  intro s' hagree hinv
  have hrow' : s'.comments.find? commentId = some row := (find?_of_agree hagree hlock).trans hrow
  obtain ⟨hid, hauthor, hups, hdowns, htotal⟩ := hsame
  have hkey : (f row).commentId = commentId := hid.trans (key_of_find? hrow)
  have hkeeps : (voteContract rejectsNullableLock).Keeps locks s'
      (s'.write (.comment (f row))) :=
    Keeps.write_comment (Keeps.refl hinv) (hkey ▸ hrow') hauthor hups hdowns htotal (hkey ▸ hlock)
  obtain ⟨hcomments, hvotes⟩ := hmore (s'.write (.comment (f row)))
  exact ⟨Keeps.of_eq hkeeps hcomments hvotes, hQ _⟩

theorem settles_withReplies {α : Type} {Q : α → List RowLock → List Write → Store → Prop} {a : α}
    {first parent : CommentRow} {parentId : Uuid} {delta : Int} (hQ : ∀ s, Q a [] [] s)
    (hfirst : ∀ s' : Store, (voteContract rejectsNullableLock).Agree locks s s' → VotesOk s' →
      (voteContract rejectsNullableLock).Keeps locks s' (s'.write (.comment first)))
    (hparent : (s.write (.comment first)).comments.find? parentId = some parent)
    (hlock : comment parentId ∈ locks) :
    (voteContract rejectsNullableLock).Settles Q a locks
      [.comment first, .comment (parent.withReplies delta now)] s := by
  intro s' hagree hinv
  have hparent' : (s'.write (.comment first)).comments.find? parentId = some parent := by
    rw [← hparent, comments_write_comment, comments_write_comment, find?_upsert,
      find?_upsert, find?_of_agree hagree hlock]
  have hid : parent.commentId = parentId := key_of_find? hparent
  subst hid
  exact ⟨Keeps.write_comment (hfirst s' hagree hinv) hparent' rfl rfl rfl rfl hlock, hQ _⟩

theorem wp_deleteComment {Q : Unit → List RowLock → List Write → Store → Prop}
    (hQ : ∀ a s, Q a [] [] s) :
    (voteContract rejectsNullableLock).wp (deleteComment commentId authorId now) Q [] [] s := by
  rw [deleteComment, wp_transactionally]
  refine wp_lockComment (fun _ => trivial) fun s₁ row _ hrow => ?_
  rw [wp_bind, wp_throwUnless]
  intro hauthor
  split
  · rw [wp_bind]
    have hlock : comment commentId ∈ [comment commentId] :=
      List.mem_singleton.mpr rfl
    refine wp_softDeleteComment fun s₂ hagree₂ _ => ?_
    have hrow₂ := (find?_of_agree hagree₂ hlock).trans hrow
    refine ⟨trivial, row, hrow₂, beq_iff_eq.mp hauthor, fun deleted => ?_⟩
    rw [wp_bind, wp_throwUnless]
    intro _
    have hlock₂ : comment commentId ∈ [comment commentId] ++ [.comment commentId] :=
      mem_append_left _ hlock
    have hdeleted : ∀ {locks : List RowLock} {s : Store}, comment commentId ∈ locks →
        s.comments.find? commentId = some row →
          (voteContract rejectsNullableLock).Settles Q () locks [.comment (row.withDeleted now)] s :=
      fun hlock hrow => settles_comment (f := fun row => row.withDeleted now) (hQ ()) hrow
        ⟨rfl, rfl, rfl, rfl, rfl⟩ (fun _ => ⟨rfl, rfl⟩) hlock
    cases row.parentCommentId with
    | none => exact hdeleted hlock₂ hrow₂
    | some parentId =>
      refine wp_incrementRepliesCount fun s₃ hagree₃ _ => ?_
      have hrow₃ := (find?_of_agree hagree₃ hlock₂).trans hrow₂
      refine ⟨trivial, fun _ => hdeleted hlock₂ hrow₃, fun parent hparent => ?_⟩
      refine settles_withReplies (hQ ()) (fun s' hagree hinv => ?_) hparent
        (List.mem_append_right _ (List.mem_singleton.mpr rfl))
      have hlock₃ : comment commentId ∈
          ([comment commentId] ++ [.comment commentId]) ++ [.comment parentId] :=
        mem_append_left _ hlock₂
      exact (hdeleted hlock₃ hrow₃ s' hagree hinv).1
  · exact fun s₂ _ hinv₂ => ⟨Keeps.refl hinv₂, hQ _ _⟩

theorem keeps_new {comment : CommentRow}
    (hzero : comment.upvotesCount = 0 ∧ comment.downvotesCount = 0 ∧ comment.votesCount = 0)
    (hfresh : s.comments.find? comment.commentId = none)
    (hlock : RowLock.comment comment.commentId ∈ locks) :
    ∀ s' : Store, (voteContract rejectsNullableLock).Agree locks s s' → VotesOk s' →
      (voteContract rejectsNullableLock).Keeps locks s' (s'.write (.comment comment)) :=
  fun _ hagree hinv => Keeps.insert_comment (Keeps.refl hinv)
    ((find?_of_agree hagree hlock).trans hfresh) hzero.1 hzero.2.1 hzero.2.2 hlock

theorem wp_insertion {Q : CommentRow → List RowLock → List Write → Store → Prop} {quizId : Uuid}
    {parentCommentId : Option Uuid} {body : String} (hQ : ∀ a s, Q a [] [] s) :
    (voteContract rejectsNullableLock).wp (do
      let comment ← Repo.createComment commentId quizId authorId parentCommentId body now
      parentCommentId.forM fun p => Repo.incrementRepliesCount p 1 now
      let author ← Repo.getAuthorForComment .tx comment.commentId
      let _ ← orThrow author (.commentNotFound comment.commentId)
      pure comment) ((voteContract rejectsNullableLock).Settles Q) locks [] s := by
  rw [wp_bind]
  refine wp_createComment fun s₁ _ _ => ⟨trivial, fun hfresh => ?_⟩
  have hzero : ∀ p, (newComment commentId quizId authorId p body now).upvotesCount = 0 ∧
      (newComment commentId quizId authorId p body now).downvotesCount = 0 ∧
        (newComment commentId quizId authorId p body now).votesCount = 0 := fun _ => ⟨rfl, rfl, rfl⟩
  have hlock : comment commentId ∈ locks ++ [.comment commentId] :=
    List.mem_append_right _ (List.mem_singleton.mpr rfl)
  cases parentCommentId with
  | none =>
    exact wp_author voteContract_keepsRows fun s' hagree hinv =>
      ⟨keeps_new (hzero none) hfresh hlock s' hagree hinv, hQ _ _⟩
  | some parentId =>
    show (voteContract rejectsNullableLock).wp (Repo.incrementRepliesCount parentId 1 now >>= _)
      _ _ _ _
    rw [wp_bind]
    refine wp_incrementRepliesCount fun s₂ hagree₂ _ => ?_
    have hfresh₂ : s₂.comments.find? commentId = none :=
      (find?_of_agree hagree₂ hlock).trans hfresh
    refine ⟨trivial, fun _ => wp_author voteContract_keepsRows fun s' hagree hinv =>
      ⟨keeps_new (hzero (some parentId)) hfresh₂ hlock s' hagree hinv, hQ _ _⟩,
      fun parent hparent => wp_author voteContract_keepsRows ?_⟩
    exact settles_withReplies (hQ _)
      (keeps_new (hzero (some parentId)) hfresh₂ (mem_append_left _ hlock)) hparent
      (List.mem_append_right _ (List.mem_singleton.mpr rfl))

theorem wp_createComment_vote {Q : CommentRow → List RowLock → List Write → Store → Prop}
    {quizId : Uuid} {parentCommentId : Option Uuid} {body : String} (hQ : ∀ a s, Q a [] [] s) :
    (voteContract rejectsNullableLock).wp
      (createComment commentId quizId authorId parentCommentId body now) Q [] [] s := by
  rw [createComment, wp_bind]
  refine wp_onDb_select (fun _ => ⟨_, rfl⟩) fun s₀ _ _ => ⟨trivial, fun found _ => ?_⟩
  rw [wp_bind, wp_throwUnless]
  intro _
  rw [wp_transactionally, insertComment, wp_bind]
  cases parentCommentId with
  | none => exact wp_insertion hQ
  | some parentId =>
    exact wp_lockParent voteContract_keepsRows fun s' parent _ _ _ _ s'' _ _ _ =>
      wp_insertion hQ

theorem safe_program (request : Request) (s : Store) :
    (voteContract rejectsNullableLock).Safe (request.program rejectsNullableLock) [] [] s := by
  cases request with
  | createComment commentId quizId authorId parentCommentId body now =>
    exact wp_bind.mpr (wp_createComment_vote fun _ _ => trivial)
  | editComment commentId authorId body expectedUpdatedAt now =>
    exact wp_bind.mpr (wp_editComment voteContract_keepsRows)
  | deleteComment commentId authorId now =>
    exact wp_bind.mpr (wp_deleteComment fun _ _ => trivial)
  | vote userId commentId value now => exact wp_bind.mpr (wp_vote fun _ _ => trivial)
  | removeVote userId commentId now =>
    exact wp_bind.mpr (wp_removeVote_vote fun _ _ => trivial)
  | hideComment commentId moderatorId role now =>
    exact wp_bind.mpr (wp_hideComment voteContract_keepsRows fun _ _ => trivial)
  | restoreComment commentId moderatorId role now =>
    exact wp_bind.mpr (wp_restoreComment voteContract_keepsRows fun _ _ => trivial)
  | reviewReport reportId reviewerId status actionTaken now =>
    exact wp_bind.mpr (wp_reviewReport voteContract_keepsRows fun _ _ => trivial)

theorem votes_kept (rejectsNullableLock : Bool) :
    (voteContract rejectsNullableLock).Kept (Request.program rejectsNullableLock)
      Outside.apply := by
  refine ⟨fun request s _ => safe_program request s, fun o s hs => ?_⟩
  cases o with
  | setQuizzes quizzes => exact Keeps.of_eq (Keeps.refl hs) rfl rfl
  | setUsers users => exact Keeps.of_eq (Keeps.refl hs) rfl rfl

end Keep

/-! ## The counters of every reachable state -/

theorem votesOk_empty (reports : Reports) (users quizzes : List Uuid) (audit : List AuditRow) :
    VotesOk ⟨empty _, empty _, reports, users, quizzes, audit⟩ := fun _ => rfl

/-- In every state of every run the counters of a comment are the numbers of its votes, a user has one
vote on a comment and none on the own one, and the increment a request has come to is not clamped. -/
theorem votes_counted {rejectsNullableLock : Bool} {db : Store} (hdb : VotesOk db)
    {as : List (TxAction Request Outside)} {s : CommentSystem rejectsNullableLock}
    (hrun : exec (CommentSystem.step rejectsNullableLock) (TxSystem.start db) as = some s) :
    (∀ row ∈ (s.store : Store).comments.rows,
      row.upvotesCount = (Store.votesOf s.store row.commentId).countP VoteRow.isUp ∧
      row.downvotesCount = (Store.votesOf s.store row.commentId).countP VoteRow.isDown ∧
      row.votesCount = (Store.votesOf s.store row.commentId).length) ∧
    (∀ v ∈ (s.store : Store).votes.rows, ∀ w ∈ (s.store : Store).votes.rows,
      v.userId = w.userId → v.commentId = w.commentId → v = w) ∧
    (∀ v ∈ (s.store : Store).votes.rows, ∀ row ∈ (s.store : Store).comments.rows,
      v.commentId = row.commentId → v.userId ≠ row.authorId) ∧
    ∀ c ∈ s.sessions.rows, ∀ commentId deltaUpvotes deltaDownvotes now k,
      c.program = .perform .tx (.incrementVoteCount commentId deltaUpvotes deltaDownvotes now) k →
        ClampsIdle (seen rejectsNullableLock s.store c.writes) commentId deltaUpvotes
          deltaDownvotes := by
  have hinv : (voteContract rejectsNullableLock).Inv s :=
    (Contract.Inv.start (C := voteContract rejectsNullableLock) hdb).exec
      (votes_kept rejectsNullableLock) hrun
  have hfind : ∀ row ∈ (s.store : Store).comments.rows,
      (s.store : Store).comments.find? row.commentId = some row :=
    fun row hrow => Table.find?_of_mem hrow
  refine ⟨fun row hrow => ?_, fun v hv w hw huser hcomment => ?_, fun v hv row hrow hid => ?_,
    fun c hc commentId deltaUpvotes deltaDownvotes now k hprogram => ?_⟩
  · obtain ⟨hups, hdowns, htotal⟩ := tallied_of_votesOk hinv.inv (hfind row hrow)
    exact ⟨by omega, by omega, by omega⟩
  · exact Table.eq_of_key_eq hv hw (Prod.ext huser hcomment)
  · exact notSelf_of_votesOk hinv.inv (hfind row hrow) v (mem_votesOf.mpr ⟨hv, hid⟩)
  · exact hinv.due hc hprogram

/-- User 1 comments, user 2 votes up while user 3 waits for the lock, and user 3 votes down. -/
def voting : List (TxAction Request Outside) :=
  (.begin "a" (.createComment 20 7 1 none "Nice one" 5) :: replicate 5 (.proceed "a") :
    List (TxAction Request Outside)) ++
  (.begin "b" (.vote 2 20 .upvote 6) :: .begin "c" (.vote 3 20 .downvote 6) ::
    replicate 5 (.proceed "b") : List (TxAction Request Outside)) ++
  (.proceed "c" :: .proceed "b" :: replicate 2 (.proceed "c") :
    List (TxAction Request Outside))

theorem voting_runs :
    (exec (CommentSystem.step false) (TxSystem.start threeUsers) voting).isSome = true := by
  decide +kernel

/-- The two votes of `voting`; the second one has come to its increment. -/
theorem votes_counted_voting : ∃ s : CommentSystem false,
    exec (CommentSystem.step false) (TxSystem.start threeUsers) voting = some s ∧
      (s.store : Store).comments.rows.map CommentRow.voteCounts = [⟨1, 1, 0⟩] ∧
      s.sessions.rows.map (fun c => c.writes) = [[.vote ⟨3, 20, .downvote, 6⟩]] ∧
      ∀ row ∈ (s.store : Store).comments.rows,
        row.votesCount = (Store.votesOf s.store row.commentId).length := by
  have hrun := (Option.some_get voting_runs).symm
  refine ⟨Option.get _ voting_runs, hrun, by decide +kernel, by decide +kernel,
    fun row hrow => ?_⟩
  exact ((votes_counted (votesOk_empty _ _ _ _) hrun).1 row hrow).2.2

end QuizBackend.Comment
