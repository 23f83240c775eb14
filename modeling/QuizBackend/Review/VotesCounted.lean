import QuizBackend.Lib.Rows
import QuizBackend.Review.HelpfulVotes

/-!
# Whether helpful votes are counted and announced

The count of a review that is not deleted is the number of its votes in every state: the vote and the
count change in one transaction, the vote is locked from its insertion or deletion on, and the new
count is written under the lock of the review (`Inv`).

The announcement is another matter. The repository's transaction is not the service's: the vote is
committed first, alone, so no vote is ever committed together with its row of the outbox. By the end
of a request the row is there unless its key is taken, by a row of the same review and delta that has
not been processed, or the request fails in between (`helpful_votes_iff`).
-/

namespace QuizBackend.Review.HelpfulVotes

open Lib Outbox Table Call
open Option (map_eq_some_iff some.injEq)

/-! ## What should hold -/

namespace System

variable (s : System)

def votesOf (reviewId : Uuid) : Nat :=
  s.votes.rows.countP fun v => decide (v.reviewId = reviewId)

end System

/-- A `review.helpful_changed` row of the review that carries the delta. -/
def isHelpfulChanged (quizId reviewId : Uuid) (delta : Int) (row : OutboxRow) : Bool :=
  isAbout helpfulChanged quizId reviewId row && row.field "delta" == some (.num delta)

/-- Every review counts its votes. -/
def Counted (s : System) : Prop :=
  ∀ review ∈ s.reviews.rows, review.deletedAt = none →
    review.helpfulCount = s.votesOf review.reviewId

/-- A step that changes the votes of a review that is not deleted writes one row with the change. -/
def Together (s s' : System) : Prop :=
  ∀ reviewId review, getReviewById s.reviews reviewId = some review →
    s'.votesOf reviewId ≠ s.votesOf reviewId →
      s'.events.rows.countP (isHelpfulChanged review.quizId reviewId
          (s'.votesOf reviewId - s.votesOf reviewId))
        = s.events.rows.countP (isHelpfulChanged review.quizId reviewId
          (s'.votesOf reviewId - s.votesOf reviewId)) + 1

def Ended.ThrowsClean (e : Ended) : Prop := ∀ error, e.result = .error error → e.changed = none

/-- A request that has changed the votes of a review that was not deleted has written one row with the
change. -/
def Ended.Announced (e : Ended) : Prop :=
  ∀ change, e.changed = some change → change.active = true → ∃ quizId row,
    change.quizId = some quizId ∧ e.rows = [row] ∧
      isHelpfulChanged quizId change.reviewId change.delta row = true

/-! ## Conditions -/

/-- No call fails between its vote and the count. -/
def NoneCutOff (s : System) : Action → Prop
  | .fail callId => ∀ c, s.calls.find? callId = some c → c.change = none
  | _ => True

def NoneCommitted (s : System) : Action → Prop
  | .commit callId => ∀ c, s.calls.find? callId = some c → c.votesOn ≠ none →
    getReviewById s.reviews c.request.reviewId = none
  | _ => True

def KeyFree (s : System) : Action → Prop
  | .announce callId _ => ∀ c, s.calls.find? callId = some c → ∀ change, c.change = some change →
    ∀ quizId, change.quizId = some quizId → change.active = true →
      keyTaken s.events (some (helpfulChangedKey quizId change.reviewId change.delta)) = false
  | _ => True

instance (s : System) (a : Action) : Decidable (NoneCutOff s a) :=
  match a with
  | .fail callId => decidableOfFind (s.calls.find? callId) fun c => c.change = none
  | .begin .. | .proceed _ | .commit _ | .announce .. | .changeQuiz _ | .schedule _ | .processed ..
  | .retried .. => .isTrue trivial

instance (s : System) (a : Action) : Decidable (NoneCommitted s a) :=
  match a with
  | .commit callId => decidableOfFind (s.calls.find? callId) fun c =>
    c.votesOn ≠ none → getReviewById s.reviews c.request.reviewId = none
  | .begin .. | .proceed _ | .fail _ | .announce .. | .changeQuiz _ | .schedule _ | .processed ..
  | .retried .. => .isTrue trivial

instance (events : OutboxEvents) (c : Call) : Decidable (∀ change, c.change = some change →
    ∀ quizId, change.quizId = some quizId → change.active = true →
      keyTaken events (some (helpfulChangedKey quizId change.reviewId change.delta)) = false) :=
  have : ∀ change : Change, Decidable (∀ quizId, change.quizId = some quizId →
      change.active = true →
        keyTaken events (some (helpfulChangedKey quizId change.reviewId change.delta)) = false) :=
    fun change => decidableOfFind change.quizId fun quizId => change.active = true →
      keyTaken events (some (helpfulChangedKey quizId change.reviewId change.delta)) = false
  decidableOfFind c.change _

instance (s : System) (a : Action) : Decidable (KeyFree s a) :=
  match a with
  | .announce callId _ => decidableOfFind (s.calls.find? callId) fun c => ∀ change,
    c.change = some change → ∀ quizId, change.quizId = some quizId → change.active = true →
      keyTaken s.events (some (helpfulChangedKey quizId change.reviewId change.delta)) = false
  | .begin .. | .proceed _ | .fail _ | .commit _ | .changeQuiz _ | .schedule _ | .processed ..
  | .retried .. => .isTrue trivial

/-! ## The invariant -/

def Request.Unwritten (votes : Votes) : Request → Prop
  | .addHelpfulVote reviewId userId => votes.find? (reviewId, userId) = none
  | .removeHelpfulVote reviewId userId => ∃ v, votes.find? (reviewId, userId) = some v
  | .deletion _ => False

/-- The count a transaction has written is still what it adds to the count; one that has found no
review to write was at a deleted one. -/
def Request.Touches (reviews : Reviews) (request : Request) : Option (Uuid × Int) → Prop
  | none => getReviewById reviews request.reviewId = none
  | some (quizId, helpfulCount) => ∃ review, reviews.find? request.reviewId = some review ∧
    review.quizId = quizId ∧ helpfulCount = review.helpfulCount + request.delta

def Call.Ok (reviews : Reviews) (votes : Votes) (c : Call) : Prop :=
  match c.phase with
  | .wrote => c.request.Unwritten votes
  | .touched update => c.request.Unwritten votes ∧ c.request.Touches reviews update
  | .deleting => ∃ reviewId, c.request = .deletion reviewId
  | .counted quizId active => active = true → ∃ id, quizId = some id
  | _ => True

structure Inv (s : System) : Prop where
  calls : ∀ c ∈ s.calls.rows, c.Ok s.reviews s.votes
  votes : s.calls.Exclusive votesOn
  reviews : s.calls.Exclusive updates
  counted : Counted s

theorem Inv.start (db : Database) : Inv (System.start db) :=
  ⟨fun _ hc => absurd hc List.not_mem_nil, exclusive_empty, exclusive_empty,
    db.counted⟩

variable {pair : Uuid × Uuid} {reviews : Reviews} {c : Call} {phase : Phase} {a : Action}

section Steps

variable {s s' : System}

theorem not_voteLocked_iff {callId : String} :
    s.voteLocked callId pair = false ↔
      ∀ c ∈ s.calls.rows, c.callId ≠ callId → c.votesOn ≠ some pair := by
  simp [System.voteLocked]

theorem not_reviewLocked_iff {callId : String} {reviewId : Uuid} :
    s.reviewLocked callId reviewId = false ↔
      ∀ c ∈ s.calls.rows, c.callId ≠ callId → c.updates ≠ some reviewId := by
  simp [System.reviewLocked]

/-- What is known of a request stays known while what it has locked stays as it is and no review is
restored. -/
theorem Call.Ok.mono {reviews' : Reviews} {votes votes' : Votes} (h : c.Ok reviews votes)
    (hvotes : ∀ pair, c.votesOn = some pair → votes'.find? pair = votes.find? pair)
    (hreviews : ∀ reviewId, c.updates = some reviewId → reviews'.find? reviewId = reviews.find? reviewId)
    (hgone : ∀ reviewId, getReviewById reviews reviewId = none → getReviewById reviews' reviewId = none) :
    c.Ok reviews' votes' := by
  obtain ⟨callId, request, nowIso, phase⟩ := c
  have hunwritten : ∀ request : Request,
      (∀ pair, request.pair = some pair → votes'.find? pair = votes.find? pair) →
        request.Unwritten votes → request.Unwritten votes' := by
    intro request hsame hold
    cases request with
    | addHelpfulVote reviewId userId => exact (hsame _ rfl).trans hold
    | removeHelpfulVote reviewId userId =>
      obtain ⟨v, hv⟩ := hold
      exact ⟨v, (hsame _ rfl).trans hv⟩
    | deletion reviewId => exact hold
  cases phase with
  | begun => trivial
  | reviewed review => trivial
  | checked | unchanged => trivial
  | wrote => exact hunwritten request hvotes h
  | touched update =>
    refine ⟨hunwritten request hvotes h.1, ?_⟩
    cases update with
    | none => exact hgone _ h.2
    | some update =>
      obtain ⟨review, hfind, hsame⟩ := h.2
      exact ⟨review, (hreviews _ rfl).trans hfind, hsame⟩
  | counted quizId active => exact h
  | deleting => exact h

/-! ## Statements -/

structure Advances (s : System) (c : Call) (phase : Phase) : Prop where
  unchanged : c.change = none
  silent : change { c with phase } = none
  ok : Ok s.reviews s.votes { c with phase }
  votes : ∀ pair, votesOn { c with phase } = some pair →
    c.votesOn = some pair ∨ s.voteLocked c.callId pair = false
  reviews : ∀ reviewId, updates { c with phase } = some reviewId →
    c.updates = some reviewId ∨ s.reviewLocked c.callId reviewId = false

inductive Outcome (s : System) (c : Call) (s' : System) : Prop
  | ends (result : Except ReviewError Bool) (hs : s' = s.finish c result [])
      (unchanged : c.change = none)
  | advances (phase : Phase) (hs : s' = s.advance c.callId phase) (h : Advances s c phase)

theorem change_of_phase (hphase : c.phase = phase)
    (h : ∀ quizId active, phase ≠ .counted quizId active) : c.change = none := by
  unfold change
  split
  · next quizId active hcounted => exact absurd (hphase.symm.trans hcounted) (h quizId active)
  · rfl

theorem Advances.unlocked (hunchanged : c.change = none)
    (hphase : phase = .checked ∨ phase = .unchanged ∨ ∃ review, phase = .reviewed review) :
    Advances s c phase := by
  rcases hphase with rfl | rfl | ⟨review, rfl⟩ <;>
    exact ⟨hunchanged, rfl, trivial, (fun _ h => by cases h), (fun _ h => by cases h)⟩

theorem Advances.write (hunchanged : c.change = none) (hpair : c.request.pair = some pair)
    (hfree : ¬ s.voteLocked c.callId pair = true) (hok : c.request.Unwritten s.votes) :
    Advances s c .wrote := by
  refine ⟨hunchanged, rfl, hok, ?_, fun _ h => by cases h⟩
  intro pair' hsame
  obtain rfl := Option.some.inj (hpair.symm.trans hsame)
  exact .inr (Bool.eq_false_iff.mpr hfree)

theorem Advances.touch (hphase : c.phase = .wrote) (hok : c.Ok s.reviews s.votes)
    {update : Option (Uuid × Int)}
    (hfree : ∀ x, update = some x → ¬ s.reviewLocked c.callId c.request.reviewId = true)
    (htouches : c.request.Touches s.reviews update) : Advances s c (.touched update) := by
  have hunwritten : c.request.Unwritten s.votes := by
    rw [Ok, hphase] at hok
    exact hok
  have hvote : c.votesOn = c.request.pair := by rw [votesOn, hphase]
  refine ⟨change_of_phase hphase fun _ _ => Phase.noConfusion, rfl, ⟨hunwritten, htouches⟩, ?_, ?_⟩
  · intro pair hsame
    exact .inl (hvote.trans hsame)
  · intro reviewId hsame
    cases update with
    | none => cases hsame
    | some x =>
      cases hsame
      exact .inr (Bool.eq_false_iff.mpr (hfree x rfl))

theorem addHelpfulVote_cases {reviewId userId : Uuid}
    (hrequest : c.request = .addHelpfulVote reviewId userId) (hok : c.Ok s.reviews s.votes)
    (h : s.addHelpfulVote c reviewId userId = some s') : Outcome s c s' := by
  unfold System.addHelpfulVote at h
  split at h
  · next hphase =>
    have hunchanged := change_of_phase hphase fun _ _ => Phase.noConfusion
    rw [some.injEq] at h
    split at h
    · exact .ends _ h.symm hunchanged
    · exact .advances _ h.symm (.unlocked hunchanged (.inr (.inr ⟨_, rfl⟩)))
  · next review hphase =>
    have hunchanged := change_of_phase hphase fun _ _ => Phase.noConfusion
    rw [some.injEq] at h
    split at h
    · exact .ends _ h.symm hunchanged
    · split at h
      · exact .ends _ h.symm hunchanged
      · exact .advances _ h.symm (.unlocked hunchanged (.inl rfl))
  · next hphase =>
    have hunchanged := change_of_phase hphase fun _ _ => Phase.noConfusion
    split at h
    · cases h
    · next hfree =>
      rw [some.injEq] at h
      split at h
      · exact .advances _ h.symm (.unlocked hunchanged (.inr (.inl rfl)))
      · exact .ends _ h.symm hunchanged
      · next hnone _ =>
        have hunwritten : c.request.Unwritten s.votes := by
          rw [hrequest]
          exact hnone
        exact .advances _ h.symm (.write hunchanged (by rw [hrequest]; rfl) hfree hunwritten)
  · next hphase =>
    have hunchanged := change_of_phase hphase fun _ _ => Phase.noConfusion
    split at h
    · cases h
    · next hfree =>
      rw [some.injEq] at h
      split at h
      · next hnone =>
        refine .advances _ h.symm (.touch hphase hok (fun _ hx => by cases hx) ?_)
        rw [hrequest]
        show getReviewById s.reviews reviewId = none
        rw [getReviewById, hnone]
        rfl
      · next review hreview =>
        split at h
        · refine .advances _ h.symm (.touch hphase hok ?_ ?_)
          · rw [hrequest]
            exact fun _ _ => hfree
          · rw [hrequest]
            exact ⟨review, hreview, rfl, rfl⟩
        · exact .ends _ h.symm hunchanged
  · next hphase =>
    cases h
    exact .ends _ rfl (change_of_phase hphase fun _ _ => Phase.noConfusion)
  · cases h

theorem removeHelpfulVote_cases (hcounted : Counted s) {reviewId userId : Uuid}
    (hrequest : c.request = .removeHelpfulVote reviewId userId) (hok : c.Ok s.reviews s.votes)
    (h : s.removeHelpfulVote c reviewId userId = some s') : Outcome s c s' := by
  unfold System.removeHelpfulVote at h
  split at h
  · next hphase =>
    have hunchanged := change_of_phase hphase fun _ _ => Phase.noConfusion
    rw [some.injEq] at h
    split at h
    · exact .ends _ h.symm hunchanged
    · exact .advances _ h.symm (.unlocked hunchanged (.inl rfl))
  · next hphase =>
    have hunchanged := change_of_phase hphase fun _ _ => Phase.noConfusion
    split at h
    · cases h
    · next hfree =>
      rw [some.injEq] at h
      split at h
      · exact .advances _ h.symm (.unlocked hunchanged (.inr (.inl rfl)))
      · next v hv =>
        have hunwritten : c.request.Unwritten s.votes := by
          rw [hrequest]
          exact ⟨v, hv⟩
        exact .advances _ h.symm (.write hunchanged (by rw [hrequest]; rfl) hfree hunwritten)
  · next hphase =>
    split at h
    · next hnone =>
      cases h
      refine .advances _ rfl (.touch hphase hok (fun _ hx => by cases hx) ?_)
      rw [hrequest]
      show getReviewById s.reviews reviewId = none
      -- the vote itself makes the count of a review that is not deleted positive
      rw [Option.eq_none_iff_forall_ne_some]
      intro review hreview
      obtain ⟨hfind, hactive⟩ := getReviewById_eq_some_iff.mp hreview
      have hunwritten : c.request.Unwritten s.votes := by
        rw [Ok, hphase] at hok
        exact hok
      rw [hrequest] at hunwritten
      obtain ⟨v, hv⟩ := hunwritten
      have hpair := key_of_find? hv
      have hpositive : 0 < s.votesOf review.reviewId := by
        rw [System.votesOf, List.countP_pos_iff, key_of_find? hfind]
        exact ⟨v, mem_of_find? hv, decide_eq_true (congrArg Prod.fst hpair)⟩
      rw [Option.filter_eq_none_iff] at hnone
      refine hnone review hfind ?_
      rw [Bool.and_eq_true, decide_eq_true_iff, ReviewRow.isActive, hactive,
        hcounted review (mem_of_find? hfind) hactive]
      exact ⟨Int.natCast_pos.mpr hpositive, rfl⟩
    · next review hreview =>
      split at h
      · cases h
      · next hfree =>
        cases h
        refine .advances _ rfl (.touch hphase hok ?_ ?_)
        · rw [hrequest]
          exact fun _ _ => hfree
        · rw [hrequest]
          exact ⟨review, (Option.filter_eq_some_iff.mp hreview).1, rfl, rfl⟩
  · next hphase =>
    cases h
    exact .ends _ rfl (change_of_phase hphase fun _ _ => Phase.noConfusion)
  · cases h

theorem deletion_cases {reviewId : Uuid} (hrequest : c.request = .deletion reviewId)
    (h : s.deletion c reviewId = some s') : Outcome s c s' := by
  unfold System.deletion at h
  split at h
  · next hphase =>
    have hunchanged := change_of_phase hphase fun _ _ => Phase.noConfusion
    split at h
    · cases h
      exact .ends _ rfl hunchanged
    · split at h
      · cases h
      · next hfree =>
        cases h
        refine .advances _ rfl ⟨hunchanged, rfl, ⟨reviewId, hrequest⟩, (fun _ h => by cases h), ?_⟩
        intro reviewId' hsame
        obtain rfl : c.request.reviewId = reviewId' := Option.some.inj hsame
        rw [hrequest]
        exact .inr (Bool.eq_false_iff.mpr hfree)
  · cases h

/-- **What the next statement of a request can do.** -/
theorem proceed_cases (hinv : Inv s) (hc : s.calls.find? c.callId = some c)
    (h : s.proceed c = some s') : Outcome s c s' := by
  have hok := hinv.calls c (mem_of_find? hc)
  unfold System.proceed at h
  split at h
  · next reviewId userId hrequest => exact addHelpfulVote_cases hrequest hok h
  · next reviewId userId hrequest => exact removeHelpfulVote_cases hinv.counted hrequest hok h
  · next reviewId hrequest => exact deletion_cases hrequest h

/-! ## The invariant -/

theorem mem_advance (hc : s.calls.find? c.callId = some c) {x : Call}
    (hx : x ∈ (s.advance c.callId phase).calls.rows) :
    x = { c with phase } ∨ (x ∈ s.calls.rows ∧ x.callId ≠ c.callId) := by
  have hmodified : x ∈ (s.calls.modify c.callId (fun c => { c with phase }) fun _ => rfl).rows := hx
  exact mem_modify_cases hc hmodified

theorem Inv.finish (h : Inv s) (c : Call) (result : Except ReviewError Bool)
    (rows : List OutboxRow) : Inv (s.finish c result rows) :=
  ⟨fun x hx => h.calls x (mem_erase.mp hx).1, h.votes.erase c.callId,
    h.reviews.erase c.callId, h.counted⟩

theorem Inv.advance (h : Inv s) (hc : s.calls.find? c.callId = some c) (hgo : Advances s c phase) :
    Inv (s.advance c.callId phase) := by
  refine ⟨?_, h.votes.modify (fun c => { c with phase }) (fun _ => rfl) hc ?_,
    h.reviews.modify (fun c => { c with phase }) (fun _ => rfl) hc ?_, h.counted⟩
  · intro x hx
    rcases mem_advance hc hx with rfl | ⟨hx, -⟩
    · exact hgo.ok
    · exact h.calls x hx
  · intro pair hown
    exact (hgo.votes pair hown).imp_right not_voteLocked_iff.mp
  · intro reviewId hown
    exact (hgo.reviews reviewId hown).imp_right not_reviewLocked_iff.mp

theorem Inv.begin (h : Inv s) (hphase : c.phase = .begun) {calls : Table String Call (·.callId)}
    (hcalls : s.calls.insert? c = some calls) : Inv { s with calls } := by
  have hvotes : c.votesOn = none := by rw [votesOn, hphase]
  have hreviews : c.updates = none := by rw [updates, hphase]
  refine ⟨?_, h.votes.insert? hvotes hcalls, h.reviews.insert? hreviews hcalls, h.counted⟩
  intro x hx
  rw [rows_of_insert? hcalls, List.mem_append, List.mem_singleton] at hx
  rcases hx with hx | rfl
  · exact h.calls x hx
  · rw [Ok, hphase]
    trivial

/-! ## The repository's commit -/

theorem find?_writtenReviews {request : Request} {update : Option (Uuid × Int)}
    (htouches : request.Touches reviews update) (reviewId : Uuid) :
    (System.writtenReviews reviews request.reviewId update).find? reviewId =
      (reviews.find? reviewId).map fun review =>
        if reviewId = request.reviewId ∧ update.isSome then
          { review with helpfulCount := review.helpfulCount + request.delta }
        else review := by
  cases update with
  | none => simp [System.writtenReviews]
  | some update =>
    obtain ⟨quizId, helpfulCount⟩ := update
    obtain ⟨review, hfind, -, hcount⟩ := htouches
    simp only [System.writtenReviews, System.setHelpfulCount, find?_modify, Option.isSome_some, and_true]
    by_cases hsame : reviewId = request.reviewId
    · simp only [hsame, if_true, hfind, hcount, Option.map_some]
    · simp only [hsame, if_false, Option.map_id']

theorem getReviewById_writtenReviews {request : Request} {update : Option (Uuid × Int)}
    (htouches : request.Touches reviews update) {reviewId : Uuid}
    (h : getReviewById reviews reviewId = none) :
    getReviewById (System.writtenReviews reviews request.reviewId update) reviewId = none := by
  rw [Option.eq_none_iff_forall_ne_some] at h ⊢
  intro review hreview
  obtain ⟨hfind, hactive⟩ := getReviewById_eq_some_iff.mp hreview
  rw [find?_writtenReviews htouches, map_eq_some_iff] at hfind
  obtain ⟨old, hold, rfl⟩ := hfind
  refine h old (getReviewById_eq_some_iff.mpr ⟨hold, ?_⟩)
  split at hactive <;> exact hactive

theorem countP_writtenVotes (h : c.request.Unwritten s.votes) (reviewId : Uuid) :
    ((s.writtenVotes c).rows.countP fun v => decide (v.reviewId = reviewId) : Int) =
      s.votesOf reviewId + if reviewId = c.request.reviewId then c.request.delta else 0 := by
  obtain ⟨callId, request, nowIso, phase⟩ := c
  cases request with
  | addHelpfulVote r userId =>
    obtain ⟨votes, hvotes⟩ := insert?_isSome (t := s.votes) (r := ⟨r, userId, nowIso⟩) h
    have hcount := countP_insert? (fun v => decide (v.reviewId = reviewId)) hvotes
    simp only [System.writtenVotes, hvotes, Option.getD_some, System.votesOf, hcount,
      Request.reviewId, Request.delta]
    by_cases hsame : reviewId = r
    · simp [hsame]
    · simp [hsame, Ne.symm hsame]
  | removeHelpfulVote r userId =>
    obtain ⟨v, hv⟩ := h
    have hreview : v.reviewId = r := congrArg Prod.fst (key_of_find? hv)
    have hcount := countP_erase (fun v => decide (v.reviewId = reviewId)) hv
    simp only [System.writtenVotes, System.votesOf, Request.reviewId, Request.delta, hreview] at *
    by_cases hsame : reviewId = r
    · simp only [hsame, decide_true, if_true] at hcount ⊢
      omega
    · simp only [hsame, Ne.symm hsame, decide_false, Bool.false_eq_true, if_false] at hcount ⊢
      omega
  | deletion reviewId => exact h.elim

theorem find?_writtenVotes (h : c.request.Unwritten s.votes) (hne : c.request.pair ≠ some pair) :
    (s.writtenVotes c).find? pair = s.votes.find? pair := by
  obtain ⟨callId, request, nowIso, phase⟩ := c
  cases request with
  | addHelpfulVote r userId =>
    obtain ⟨votes, hvotes⟩ := insert?_isSome (t := s.votes) (r := ⟨r, userId, nowIso⟩) h
    have hother : VoteRow.pair ⟨r, userId, nowIso⟩ ≠ pair := fun heq => hne (congrArg some heq)
    show ((s.votes.insert? ⟨r, userId, nowIso⟩).getD s.votes).find? pair = _
    rw [hvotes, Option.getD_some, find?_insert? hvotes, if_neg hother]
  | removeHelpfulVote r userId =>
    have hother : pair ≠ (r, userId) := fun heq => hne (congrArg some heq.symm)
    show (s.votes.erase (r, userId)).find? pair = _
    rw [find?_erase, if_neg hother]
  | deletion reviewId => exact h.elim

theorem Counted.written (h : Counted s) {update : Option (Uuid × Int)}
    (hunwritten : c.request.Unwritten s.votes) (htouches : c.request.Touches s.reviews update)
    (hvotes : s'.votes = s.writtenVotes c)
    (hreviews : s'.reviews = System.writtenReviews s.reviews c.request.reviewId update) :
    Counted s' := by
  intro review hreview hactive
  have hfind := find?_of_mem hreview
  rw [hreviews, find?_writtenReviews htouches, map_eq_some_iff] at hfind
  obtain ⟨old, hold, hnew⟩ := hfind
  have hid : old.reviewId = review.reviewId := key_of_find? hold
  have hvotesOf : (s'.votesOf review.reviewId : Int) = s.votesOf review.reviewId +
      if review.reviewId = c.request.reviewId then c.request.delta else 0 := by
    rw [System.votesOf, hvotes]
    exact countP_writtenVotes hunwritten review.reviewId
  have hold_active : old.deletedAt = none := by
    split at hnew
    · rw [← hnew] at hactive
      exact hactive
    · rw [hnew]
      exact hactive
  have hcount : old.helpfulCount = s.votesOf review.reviewId :=
    hid ▸ h old (mem_of_find? hold) hold_active
  rw [hvotesOf, ← hcount]
  by_cases hsame : review.reviewId = c.request.reviewId
  · cases update with
    | none =>
      -- a review that was not written was deleted
      have hgone : getReviewById s.reviews c.request.reviewId = none := htouches
      have hthere : getReviewById s.reviews c.request.reviewId = some old :=
        getReviewById_eq_some_iff.mpr ⟨hsame ▸ hold, hold_active⟩
      rw [hthere] at hgone
      cases hgone
    | some update =>
      rw [if_pos ⟨hsame, rfl⟩] at hnew
      rw [if_pos hsame, ← hnew]
  · rw [if_neg fun hboth => hsame hboth.1] at hnew
    rw [if_neg hsame, hnew, add_zero]

theorem Inv.written (h : Inv s) (hc : s.calls.find? c.callId = some c)
    {update : Option (Uuid × Int)} (hphase : c.phase = .touched update)
    (hcommit : s.commit c = some s') : Inv s' := by
  have hmem := mem_of_find? hc
  have hok := h.calls c hmem
  rw [Ok, hphase] at hok
  obtain ⟨hunwritten, htouches⟩ := hok
  have hvote : c.votesOn = c.request.pair := by rw [votesOn, hphase]
  simp only [System.commit, hphase, some.injEq] at hcommit
  subst hcommit
  refine ⟨?_, h.votes.of_cases ?_, h.reviews.of_cases ?_,
    h.counted.written hunwritten htouches rfl rfl⟩
  · intro x hx
    rcases mem_advance hc hx with rfl | ⟨hold, hne⟩
    · intro hactive
      cases update with
      | some update => exact ⟨update.1, rfl⟩
      | none =>
        have hgone : getReviewById s.reviews c.request.reviewId = none := htouches
        rw [hgone] at hactive
        cases hactive
    · refine (h.calls x hold).mono ?_ ?_ ?_
      · intro pair hown
        refine find?_writtenVotes hunwritten ?_
        intro hother
        rw [← hvote] at hother
        exact hne (congrArg callId (h.votes x hold c hmem pair hown hother))
      · intro reviewId hown
        rw [find?_writtenReviews htouches]
        have hother : ¬ (reviewId = c.request.reviewId ∧ update.isSome = true) := by
          rintro ⟨rfl, hsome⟩
          obtain ⟨update, rfl⟩ := Option.isSome_iff_exists.mp hsome
          have hupdates : c.updates = some c.request.reviewId := by rw [updates, hphase]
          exact hne (congrArg callId (h.reviews x hold c hmem _ hown hupdates))
        simp only [if_neg hother, Option.map_id']
      · exact fun reviewId hgone => getReviewById_writtenReviews htouches hgone
  · intro x hx
    rcases mem_advance hc hx with rfl | ⟨hx, -⟩
    · exact .inl rfl
    · exact .inr hx
  · intro x hx
    rcases mem_advance hc hx with rfl | ⟨hx, -⟩
    · exact .inl rfl
    · exact .inr hx

theorem Inv.deleted (h : Inv s) (hc : s.calls.find? c.callId = some c)
    (hphase : c.phase = .deleting) (hcommit : s.commit c = some s') : Inv s' := by
  have hmem := mem_of_find? hc
  have hupdates : c.updates = some c.request.reviewId := by rw [updates, hphase]
  have hends := h.finish c (.ok true) []
  simp only [System.commit, hphase, some.injEq] at hcommit
  subst hcommit
  refine ⟨?_, hends.votes, hends.reviews, ?_⟩
  · intro x hx
    obtain ⟨hx, hne⟩ := mem_erase.mp hx
    refine (h.calls x hx).mono (fun _ _ => rfl) ?_ ?_
    · intro reviewId hown
      show (s.reviews.modify c.request.reviewId (fun review =>
        { review with deletedAt := some c.nowIso }) fun _ => rfl).find? reviewId = _
      refine find?_modify_ne ?_
      rintro rfl
      exact hne (congrArg callId (h.reviews x hx c hmem _ hown hupdates))
    · intro reviewId hgone
      rw [Option.eq_none_iff_forall_ne_some] at hgone ⊢
      intro review hreview
      obtain ⟨hfind, hactive⟩ := getReviewById_eq_some_iff.mp hreview
      rw [find?_modify_map, map_eq_some_iff] at hfind
      obtain ⟨old, hold, rfl⟩ := hfind
      split at hactive
      · cases hactive
      · exact hgone old (getReviewById_eq_some_iff.mpr ⟨hold, hactive⟩)
  · intro review hreview hactive
    obtain ⟨old, hold, rfl⟩ := List.mem_map.mp hreview
    split at hactive
    · cases hactive
    · next hother =>
      rw [if_neg hother]
      exact h.counted old hold hactive

theorem commit_cases (hcommit : s.commit c = some s') :
    (∃ update, c.phase = .touched update) ∨ c.phase = .deleting := by
  unfold System.commit at hcommit
  split at hcommit
  · next update hphase => exact .inl ⟨update, hphase⟩
  · next hphase => exact .inr hphase
  · cases hcommit

theorem Inv.commit (h : Inv s) (hc : s.calls.find? c.callId = some c)
    (hcommit : s.commit c = some s') : Inv s' := by
  rcases commit_cases hcommit with ⟨update, hphase⟩ | hphase
  · exact h.written hc hphase hcommit
  · exact h.deleted hc hphase hcommit

def Call.event (c : Call) (eventId : String) (quizId : Uuid) : NewEvent :=
  scheduleReviewHelpfulChanged eventId ⟨quizId, c.request.reviewId, c.request.delta⟩ c.nowIso

theorem announce_cases {eventId : String} (h : s.announce c eventId = some s') :
    (∃ active, c.phase = .counted none active ∧ s' = s.finish c (.ok true) []) ∨
    ∃ quizId active, c.phase = .counted (some quizId) active ∧ s.events.find? eventId = none ∧
      s' = { s.finish c (.ok true) ((insertEvent s.events (c.event eventId quizId)).rows.drop
          s.events.rows.length) with events := insertEvent s.events (c.event eventId quizId) } := by
  unfold System.announce at h
  split at h
  · next active hphase =>
    cases h
    exact .inl ⟨active, hphase, rfl⟩
  · next quizId active hphase =>
    split at h
    · cases h
    · next hfresh =>
      cases h
      exact .inr ⟨quizId, active, hphase, hfresh, rfl⟩
  · cases h

theorem Inv.withEvents (h : Inv s) (events : OutboxEvents) : Inv { s with events } :=
  ⟨h.calls, h.votes, h.reviews, h.counted⟩

theorem Inv.step (h : Inv s) (hstep : s.step a = some s') : Inv s' := by
  cases a with
  | begin callId request nowIso =>
    obtain ⟨calls, hcalls, rfl⟩ := map_eq_some_iff.mp hstep
    exact h.begin rfl hcalls
  | proceed callId =>
    obtain ⟨c, hc, rfl, hproceed⟩ := of_find?_bind hstep
    cases proceed_cases h hc hproceed with
    | ends result hs _ => exact hs ▸ h.finish c result []
    | advances phase hs hgo => exact hs ▸ h.advance hc hgo
  | commit callId =>
    obtain ⟨c, hc, rfl, hcommit⟩ := of_find?_bind hstep
    exact h.commit hc hcommit
  | announce callId eventId =>
    obtain ⟨c, hc, rfl, hannounce⟩ := of_find?_bind hstep
    rcases announce_cases hannounce with ⟨active, -, rfl⟩ | ⟨quizId, active, -, -, rfl⟩
    · exact h.finish c (.ok true) []
    · exact (h.finish c (.ok true) _).withEvents _
  | fail callId =>
    obtain ⟨c, -, rfl⟩ := map_eq_some_iff.mp hstep
    exact h.finish c (.error .database) []
  | changeQuiz quiz =>
    cases hstep
    exact ⟨h.calls, h.votes, h.reviews, h.counted⟩
  | schedule e =>
    simp only [System.step, Option.ite_none_left_eq_some, some.injEq] at hstep
    obtain ⟨-, rfl⟩ := hstep
    exact h.withEvents _
  | processed eventId nowIso =>
    cases hstep
    exact h.withEvents _
  | retried eventId message nowIso retryIso =>
    cases hstep
    exact h.withEvents _

/-! ## Requests that end -/

theorem forall_ended {P : Ended → Prop} {e : Ended} (hended : s'.ended = s.ended ++ [e])
    (h : ∀ e ∈ s.ended, P e) : (∀ e ∈ s'.ended, P e) ↔ P e := by
  rw [hended]
  constructor
  · exact fun hall => hall e (List.mem_append_right _ (List.mem_singleton_self _))
  · intro he x hx
    rcases List.mem_append.mp hx with hx | hx
    · exact h x hx
    · exact List.mem_singleton.mp hx ▸ he

/-- What a step adds to the requests that have ended: nothing, one that has changed no vote, one that
has announced its change, or one that was cut off. -/
inductive Ends (s : System) (s' : System) : Action → Prop
  | goesOn (a : Action) (hended : s'.ended = s.ended) (hcut : NoneCutOff s a) (hfree : KeyFree s a) :
      Ends s s' a
  | unchanged (a : Action) (e : Ended) (hended : s'.ended = s.ended ++ [e]) (hnone : e.changed = none)
      (hcut : NoneCutOff s a) (hfree : KeyFree s a) : Ends s s' a
  | returns (c : Call) (eventId : String) (hc : s.calls.find? c.callId = some c)
      (hannounce : s.announce c eventId = some s') : Ends s s' (.announce c.callId eventId)
  | throws (c : Call) (hc : s.calls.find? c.callId = some c)
      (hs : s' = s.finish c (.error .database) []) : Ends s s' (.fail c.callId)

theorem ends_of_step (hinv : Inv s) (hstep : s.step a = some s') : Ends s s' a := by
  cases a with
  | begin callId request nowIso =>
    obtain ⟨calls, -, rfl⟩ := map_eq_some_iff.mp hstep
    exact .goesOn _ rfl trivial trivial
  | proceed callId =>
    obtain ⟨c, hc, rfl, hproceed⟩ := of_find?_bind hstep
    cases proceed_cases hinv hc hproceed with
    | ends result hs hunchanged =>
      exact .unchanged _ ⟨c.callId, result, c.change, []⟩ (hs ▸ rfl) hunchanged trivial trivial
    | advances phase hs hgo => exact .goesOn _ (hs ▸ rfl) trivial trivial
  | commit callId =>
    obtain ⟨c, hc, rfl, hcommit⟩ := of_find?_bind hstep
    rcases commit_cases hcommit with ⟨update, hphase⟩ | hphase
    · simp only [System.commit, hphase, some.injEq] at hcommit
      exact .goesOn _ (hcommit ▸ rfl) trivial trivial
    · have hunchanged := change_of_phase hphase fun _ _ => Phase.noConfusion
      simp only [System.commit, hphase, some.injEq] at hcommit
      exact .unchanged _ ⟨c.callId, .ok true, c.change, []⟩ (hcommit ▸ rfl) hunchanged trivial trivial
  | announce callId eventId =>
    obtain ⟨c, hc, rfl, hannounce⟩ := of_find?_bind hstep
    exact .returns c eventId hc hannounce
  | fail callId =>
    obtain ⟨c, hc, rfl⟩ := map_eq_some_iff.mp hstep
    obtain rfl := key_of_find? hc
    exact .throws c hc rfl
  | changeQuiz quiz =>
    cases hstep
    exact .goesOn _ rfl trivial trivial
  | schedule e =>
    simp only [System.step, Option.ite_none_left_eq_some, some.injEq] at hstep
    obtain ⟨-, rfl⟩ := hstep
    exact .goesOn _ rfl trivial trivial
  | processed eventId nowIso =>
    cases hstep
    exact .goesOn _ rfl trivial trivial
  | retried eventId message nowIso retryIso =>
    cases hstep
    exact .goesOn _ rfl trivial trivial

theorem ended_announce {eventId : String} (h : s.announce c eventId = some s') :
    ∃ rows, s'.ended = s.ended ++ [⟨c.callId, .ok true, c.change, rows⟩] := by
  rcases announce_cases h with ⟨active, -, rfl⟩ | ⟨quizId, active, -, -, rfl⟩
  · exact ⟨_, rfl⟩
  · exact ⟨_, rfl⟩

theorem throwsClean_iff (hinv : Inv s) (h : ∀ e ∈ s.ended, e.ThrowsClean)
    (hstep : s.step a = some s') : NoneCutOff s a ↔ ∀ e ∈ s'.ended, e.ThrowsClean := by
  cases ends_of_step hinv hstep with
  | goesOn a hended hcut hfree => exact iff_of_true hcut (hended ▸ h)
  | unchanged a e hended hnone hcut hfree =>
    exact iff_of_true hcut ((forall_ended hended h).mpr fun _ _ => hnone)
  | returns c eventId hc hannounce =>
    obtain ⟨rows, hended⟩ := ended_announce hannounce
    refine iff_of_true trivial ((forall_ended hended h).mpr ?_)
    rintro error ⟨⟩
  | throws c hc hs =>
    rw [forall_ended (e := ⟨c.callId, .error .database, c.change, []⟩) (hs ▸ rfl) h]
    simp [NoneCutOff, Ended.ThrowsClean, hc]

theorem keyTaken_event (events : OutboxEvents) (c : Call) (eventId : String) (quizId : Uuid) :
    keyTaken events (c.event eventId quizId).idempotencyKey =
      keyTaken events (some (helpfulChangedKey quizId c.request.reviewId c.request.delta)) := rfl

theorem isHelpfulChanged_event (c : Call) (eventId : String) (quizId : Uuid) :
    isHelpfulChanged quizId c.request.reviewId c.request.delta (c.event eventId quizId).row = true := by
  have hquiz : (c.event eventId quizId).row.field "quizId" = some (.str quizId.text) := rfl
  have hreview : (c.event eventId quizId).row.field "reviewId"
      = some (.str c.request.reviewId.text) := rfl
  have hdelta : (c.event eventId quizId).row.field "delta" = some (.num c.request.delta) := rfl
  have htype : (c.event eventId quizId).row.eventType = helpfulChanged := rfl
  simp [isHelpfulChanged, isAbout, hquiz, hreview, hdelta, htype]

theorem drop_insertEvent {events : OutboxEvents} {e : NewEvent}
    (hfresh : events.find? e.eventId = none) :
    (insertEvent events e).rows.drop events.rows.length =
      if keyTaken events e.idempotencyKey then [] else [e.row] := by
  rw [rows_insertEvent hfresh]
  split
  · exact List.drop_length
  · exact List.drop_left

/-- A request has announced what it has changed exactly where its row finds the key free and it is not
cut off before. -/
theorem announced_iff (hinv : Inv s) (h : ∀ e ∈ s.ended, e.ThrowsClean ∧ e.Announced)
    (hstep : s.step a = some s') :
    NoneCutOff s a ∧ KeyFree s a ↔ ∀ e ∈ s'.ended, e.ThrowsClean ∧ e.Announced := by
  cases ends_of_step hinv hstep with
  | goesOn a hended hcut hfree => exact iff_of_true ⟨hcut, hfree⟩ (hended ▸ h)
  | unchanged a e hended hnone hcut hfree =>
    refine iff_of_true ⟨hcut, hfree⟩ ((forall_ended hended h).mpr ⟨fun _ _ => hnone, ?_⟩)
    intro change hchange
    rw [hnone] at hchange
    cases hchange
  | throws c hc hs =>
    rw [forall_ended (e := ⟨c.callId, .error .database, c.change, []⟩) (hs ▸ rfl) h]
    constructor
    · rintro ⟨hcut, -⟩
      have hnone := hcut c hc
      refine ⟨fun _ _ => hnone, ?_⟩
      intro change hchange
      rw [show c.change = none from hnone] at hchange
      cases hchange
    · rintro ⟨hclean, -⟩
      refine ⟨?_, trivial⟩
      intro c' hc'
      rw [hc, some.injEq] at hc'
      exact hc' ▸ hclean _ rfl
  | returns c eventId hc hannounce =>
    have hok := hinv.calls c (mem_of_find? hc)
    have hclean : ∀ rows, Ended.ThrowsClean ⟨c.callId, .ok true, c.change, rows⟩ := by
      rintro rows error ⟨⟩
    have hcond : NoneCutOff s (.announce c.callId eventId) ∧ KeyFree s (.announce c.callId eventId) ↔
        ∀ change, c.change = some change → ∀ quizId, change.quizId = some quizId →
          change.active = true → keyTaken s.events
            (some (helpfulChangedKey quizId change.reviewId change.delta)) = false := by
      simp [NoneCutOff, KeyFree, hc]
    rw [hcond]
    rcases announce_cases hannounce with ⟨active, hphase, rfl⟩ |
      ⟨quizId, active, hphase, hfresh, rfl⟩
    · have hchange : c.change = some ⟨none, c.request.reviewId, c.request.delta, active⟩ := by
        rw [change, hphase]
      rw [forall_ended rfl h]
      refine iff_of_true ?_ ⟨hclean _, ?_⟩
      · intro change hsame quizId hquiz
        obtain rfl := Option.some.inj (hchange.symm.trans hsame)
        cases hquiz
      · intro change hsame hactive
        obtain rfl := Option.some.inj (hchange.symm.trans hsame)
        rw [Ok, hphase] at hok
        obtain ⟨id, hid⟩ := hok hactive
        cases hid
    · have hchange : c.change = some ⟨some quizId, c.request.reviewId, c.request.delta, active⟩ := by
        rw [change, hphase]
      rw [forall_ended rfl h, drop_insertEvent hfresh, keyTaken_event]
      constructor
      · intro hfree
        refine ⟨hclean _, ?_⟩
        intro change hsame hactive
        obtain rfl := Option.some.inj (hchange.symm.trans hsame)
        have hkey := hfree _ hchange quizId rfl hactive
        refine ⟨quizId, (c.event eventId quizId).row, rfl, ?_, isHelpfulChanged_event c eventId quizId⟩
        show (if _ then _ else _) = _
        rw [hkey, if_neg Bool.false_ne_true]
      · rintro ⟨-, hannounced⟩ change hsame quizId' hquiz hactive
        obtain rfl := Option.some.inj (hchange.symm.trans hsame)
        obtain rfl := Option.some.inj hquiz
        obtain ⟨_, row, -, hrows, -⟩ := hannounced _ hchange hactive
        rw [Bool.eq_false_iff]
        intro htaken
        have hempty : (if keyTaken s.events (some (helpfulChangedKey quizId c.request.reviewId
            c.request.delta)) = true then [] else [(c.event eventId quizId).row]) = [row] := hrows
        rw [if_pos htaken] at hempty
        cases hempty

/-! ## One commit -/

theorem Together.of_votes (h : s'.votes = s.votes) : Together s s' := by
  intro reviewId review _ hchanged
  exact absurd (by rw [System.votesOf, h]; rfl) hchanged

/-- A vote is committed together with its row never: the repository's transaction writes no row. -/
theorem together_iff (hinv : Inv s) (hstep : s.step a = some s') :
    NoneCommitted s a ↔ Together s s' := by
  cases a with
  | begin callId request nowIso =>
    obtain ⟨calls, -, rfl⟩ := map_eq_some_iff.mp hstep
    exact iff_of_true trivial (.of_votes rfl)
  | proceed callId =>
    obtain ⟨c, hc, rfl, hproceed⟩ := of_find?_bind hstep
    cases proceed_cases hinv hc hproceed with
    | ends result hs _ => exact iff_of_true trivial (.of_votes (hs ▸ rfl))
    | advances phase hs _ => exact iff_of_true trivial (.of_votes (hs ▸ rfl))
  | commit callId =>
    obtain ⟨c, hc, rfl, hcommit⟩ := of_find?_bind hstep
    have hcond : NoneCommitted s (.commit c.callId) ↔
        (c.votesOn ≠ none → getReviewById s.reviews c.request.reviewId = none) := by
      simp [NoneCommitted, hc]
    rw [hcond]
    rcases commit_cases hcommit with ⟨update, hphase⟩ | hphase
    · have hok := hinv.calls c (mem_of_find? hc)
      rw [Ok, hphase] at hok
      have hvote : c.votesOn ≠ none := by
        rw [votesOn, hphase]
        obtain ⟨callId, request, nowIso, phase⟩ := c
        cases request with
        | addHelpfulVote reviewId userId => exact Option.some_ne_none _
        | removeHelpfulVote reviewId userId => exact Option.some_ne_none _
        | deletion reviewId => exact hok.1.elim
      have hdelta : c.request.delta ≠ 0 := by
        obtain ⟨callId, request, nowIso, phase⟩ := c
        cases request with
        | addHelpfulVote reviewId userId => exact Int.one_ne_zero
        | removeHelpfulVote reviewId userId => exact Int.neg_ne_zero.mpr Int.one_ne_zero
        | deletion reviewId => exact hok.1.elim
      have hvotesOf : ∀ reviewId, (s'.votesOf reviewId : Int) =
          s.votesOf reviewId + if reviewId = c.request.reviewId then c.request.delta else 0 := by
        intro reviewId
        simp only [System.commit, hphase, some.injEq] at hcommit
        subst hcommit
        exact countP_writtenVotes hok.1 reviewId
      have hevents : s'.events = s.events := by
        simp only [System.commit, hphase, some.injEq] at hcommit
        exact hcommit ▸ rfl
      constructor
      · intro hdeleted reviewId review hreview hchanged
        have hsame : reviewId = c.request.reviewId := by
          by_contra hne
          have hcount := hvotesOf reviewId
          rw [if_neg hne, add_zero] at hcount
          exact hchanged (Int.natCast_inj.mp hcount)
        rw [hsame, hdeleted hvote] at hreview
        cases hreview
      · intro htogether _
        rw [Option.eq_none_iff_forall_ne_some]
        intro review hreview
        have hcount := hvotesOf c.request.reviewId
        rw [if_pos rfl] at hcount
        have hrow := htogether c.request.reviewId review hreview (by
          intro hsame
          rw [hsame] at hcount
          exact hdelta (by omega))
        rw [hevents] at hrow
        exact absurd hrow (Nat.ne_of_lt (Nat.lt_succ_self _))
    · have hvote : c.votesOn = none := by rw [votesOn, hphase]
      simp only [System.commit, hphase, some.injEq] at hcommit
      exact iff_of_true (fun hne => absurd hvote hne) (.of_votes (hcommit ▸ rfl))
  | announce callId eventId =>
    obtain ⟨c, hc, rfl, hannounce⟩ := of_find?_bind hstep
    rcases announce_cases hannounce with ⟨active, -, rfl⟩ | ⟨quizId, active, -, -, rfl⟩
    · exact iff_of_true trivial (.of_votes rfl)
    · exact iff_of_true trivial (.of_votes rfl)
  | fail callId =>
    obtain ⟨c, -, rfl⟩ := map_eq_some_iff.mp hstep
    exact iff_of_true trivial (.of_votes rfl)
  | changeQuiz quiz =>
    cases hstep
    exact iff_of_true trivial (.of_votes rfl)
  | schedule e =>
    simp only [System.step, Option.ite_none_left_eq_some, some.injEq] at hstep
    obtain ⟨-, rfl⟩ := hstep
    exact iff_of_true trivial (.of_votes rfl)
  | processed eventId nowIso =>
    cases hstep
    exact iff_of_true trivial (.of_votes rfl)
  | retried eventId message nowIso retryIso =>
    cases hstep
    exact iff_of_true trivial (.of_votes rfl)

end Steps

/-! ## Runs -/

/-- What should hold of a run: counts are right in every state, every step that commits a vote on a
review that is not deleted commits its row with it, and a request that throws has changed nothing. -/
def CountedAndAnnounced (s : System) (actions : List Action) : Prop :=
  Always System.step Counted s actions ∧
    (Always System.step (fun m => ∀ e ∈ m.ended, e.ThrowsClean) s actions ∧
      EachStep System.step (fun m _ m' => Together m m') s actions)

/-- The same of requests that have ended, whatever the commits are their work was in. -/
def CountedAndAnnouncedAtLast (s : System) (actions : List Action) : Prop :=
  Always System.step Counted s actions ∧
    Always System.step (fun m => ∀ e ∈ m.ended, e.ThrowsClean ∧ e.Announced) s actions

theorem always_counted (db : Database) (actions : List Action) :
    Always System.step Counted (System.start db) actions := by
  intro pre m _ hm
  have hinv : Inv m := exec_invariant (fun _ _ _ hi hstep => hi.step hstep) hm (Inv.start db)
  exact hinv.counted

/-- **Which runs count helpful votes and announce them.** The counts are right in every run. Votes are
announced with their own commit exactly in runs in which none is committed on a review that is not
deleted; and by the end of their request exactly where no request fails behind the commit of its vote
and no row finds its key taken. -/
theorem helpful_votes_iff (db : Database) {actions : List Action} {t : System}
    (h : exec System.step (System.start db) actions = some t) :
    Always System.step Counted (System.start db) actions ∧
    (CountedAndAnnounced (System.start db) actions ↔
      Along System.step (fun s a => NoneCutOff s a ∧ NoneCommitted s a) (System.start db) actions) ∧
    (CountedAndAnnouncedAtLast (System.start db) actions ↔
      Along System.step (fun s a => NoneCutOff s a ∧ KeyFree s a) (System.start db) actions) := by
  have hcounted := always_counted db actions
  have hnothing : ∀ e ∈ (System.start db).ended, e.ThrowsClean ∧ e.Announced :=
    fun _ he => absurd he List.not_mem_nil
  refine ⟨hcounted, ?_, ?_⟩
  · rw [CountedAndAnnounced, and_iff_right hcounted]
    refine along_iff_good (I := Inv) (fun _ _ _ hi hstep => hi.step hstep) ?_ h (Inv.start db)
      fun e he => (hnothing e he).1
    intro s a s' hi hp hstep
    exact and_congr (throwsClean_iff hi hp hstep) (together_iff hi hstep)
  · rw [CountedAndAnnouncedAtLast, and_iff_right hcounted]
    refine along_iff_always (I := Inv) (fun _ _ _ hi hstep => hi.step hstep) ?_ h (Inv.start db)
      hnothing
    intro s a s' hi hp hstep
    exact announced_iff hi hp hstep

def oneReview : Database :=
  { quizzes := ⟨[⟨1, 10, "Capitals", false, some 100, none⟩], nodup_capitals⟩
    reviews := ⟨[⟨1, 1, 20, 0, none⟩], nodup_reviewOfCapitals⟩
    votes := empty _
    events := empty _
    counted := by
      intro review hreview _
      rw [List.mem_singleton.mp hreview]
      rfl }

def votes (callId : String) (userId : Uuid) : List Action :=
  [.begin callId (.addHelpfulVote 1 userId) 5, .proceed callId, .proceed callId, .proceed callId,
    .proceed callId, .commit callId]

theorem helpful_vote_announced : ∃ t,
    exec System.step (System.start oneReview) (votes "a" 7 ++ [.announce "a" "e1"]) = some t ∧
      t.votesOf 1 = 1 ∧
        CountedAndAnnouncedAtLast (System.start oneReview) (votes "a" 7 ++ [.announce "a" "e1"]) := by
  refine exists_of_read (fun t => t.votesOf 1) 1 (by decide +kernel) fun t ht hread => ?_
  exact ⟨hread, (helpful_votes_iff oneReview ht).2.2.mpr (by decide +kernel)⟩

/-- Two users find a review helpful before the outbox is processed, and the insertion of a third one's
row fails. -/
def threeVotes : List Action :=
  votes "a" 7 ++ [Action.announce "a" "e1"] ++ votes "b" 8 ++ [Action.announce "b" "e2"] ++
    votes "c" 9 ++ [Action.fail "c"]

/-- The second vote is announced by nothing, and the third stays when its request has thrown. -/
theorem helpful_votes_unannounced : ∃ t,
    exec System.step (System.start oneReview) threeVotes = some t ∧ t.votesOf 1 = 3 ∧
      t.events.rows.length = 1 ∧ ¬ CountedAndAnnounced (System.start oneReview) threeVotes ∧
        ¬ CountedAndAnnouncedAtLast (System.start oneReview) threeVotes := by
  refine exists_of_read (fun t => (t.votesOf 1, t.events.rows.length, t.ended.drop 1))
    (3, 1, [⟨"b", .ok true, some ⟨some 1, 1, 1, true⟩, []⟩,
      ⟨"c", .error .database, some ⟨some 1, 1, 1, true⟩, []⟩]) (by decide +kernel) fun t ht hread => ?_
  obtain ⟨hvotes, hread⟩ := Prod.mk.inj hread
  obtain ⟨hrows, hended⟩ := Prod.mk.inj hread
  have hmem : ∀ e ∈ t.ended.drop 1, e ∈ t.ended := fun e he => List.mem_of_mem_drop he
  rw [hended] at hmem
  refine ⟨hvotes, hrows, ?_, ?_⟩
  · intro hall
    have hclean := hall.2.1 threeVotes t (List.prefix_refl _) ht _
      (hmem _ (List.mem_cons_of_mem _ (List.mem_singleton_self _)))
    cases hclean _ rfl
  · intro hall
    have hannounced := hall.2 threeVotes t (List.prefix_refl _) ht _ (hmem _ (List.mem_cons_self ..))
    obtain ⟨_, row, -, hnone, -⟩ := hannounced.2 _ rfl rfl
    cases hnone

end QuizBackend.Review.HelpfulVotes
