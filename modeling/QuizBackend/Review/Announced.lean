import QuizBackend.Lib.Rows
import QuizBackend.Review.Deletion

/-!
# Whether deletions are announced

Each deletion of a review should write one `review.deleted` row with its commit and be followed by one
`ReviewDeletedEvent`. `deleteReview` and `adminDeleteReview` know the quiz before they delete, and
their announcement commits with the deletion. `updateReportStatus` asks for the quiz of the review
when it has deleted it, with a query for reviews that are not deleted, and finds none: it announces
nothing (`proceed_cases`). After the commit of `adminDeleteReview` the event waits for one more look at
the quiz, and where that fails it is lost.

These are the only ways (`deletions_announced_iff`).
-/

namespace QuizBackend.Review.Deletion

open Lib Outbox Table Call
open Option (map_eq_some_iff map_id' map_some some.injEq)

/-! ## What should hold -/

def deletedSince (before after : Reviews) (quizId reviewId : Uuid) : Bool :=
  (getReviewById before reviewId).isSome &&
    (after.find? reviewId).any fun review => decide (review.quizId = quizId) && !review.isActive

def ReviewDeletedPayload.isOf (quizId reviewId : Uuid) (payload : ReviewDeletedPayload) : Bool :=
  decide (payload.quizId = quizId) && decide (payload.reviewId = reviewId)

/-- The request has committed a deletion of the review and has not dispatched the event. -/
def Call.owes (quizId reviewId : Uuid) (c : Call) : Bool :=
  match c.phase with
  | .committed payload => ReviewDeletedPayload.isOf quizId reviewId payload
  | _ => false

namespace System

variable (s : System) (quizId reviewId : Uuid)

def written : Nat := s.events.rows.countP (isAbout "review.deleted" quizId reviewId)

def announced : Nat := s.dispatched.countP (ReviewDeletedPayload.isOf quizId reviewId)

def owed : Nat := s.calls.rows.countP (owes quizId reviewId)

end System

/-- Since `s₀`, what has been deleted has one row more, and one event more unless its request is still
about to dispatch it; nothing else has. -/
structure Announced (s₀ s : System) : Prop where
  rows : ∀ quizId reviewId, s.written quizId reviewId =
    s₀.written quizId reviewId + (deletedSince s₀.reviews s.reviews quizId reviewId).toNat
  events : ∀ quizId reviewId, s.announced quizId reviewId + s.owed quizId reviewId =
    s₀.announced quizId reviewId + (deletedSince s₀.reviews s.reviews quizId reviewId).toNat

/-- The status of a report changes only as `ReviewReportStatusPolicy` allows. -/
def ReportsMove (s s' : System) : Prop :=
  ∀ reportId report report', s.reports.find? reportId = some report →
    s'.reports.find? reportId = some report' →
      report'.status = report.status ∨ canTransition report.status report'.status = true

/-! ## The condition -/

def Request.isReport : Request → Bool
  | .updateReportStatus .. => true
  | .deleteReview .. | .adminDeleteReview .. => false

/-- No `updateReportStatus` commits that has itself deleted the review, and no request is cut off
between its commit and its event. -/
def Announces (s : System) : Action → Prop
  | .commit callId _ => ∀ c, s.calls.find? callId = some c →
    c.request.isReport = true → c.phase.work.deletes = none
  | .fail callId => ∀ c, s.calls.find? callId = some c → ∀ payload, c.phase ≠ .committed payload
  | _ => True

instance (phase : Phase) : Decidable (∀ payload, phase ≠ .committed payload) :=
  match phase with
  | .committed payload => .isFalse fun h => h payload rfl
  | .begun | .visible | .found .. | .described _ | .checked _ | .writing .. =>
    .isTrue fun _ => Phase.noConfusion

instance (s : System) (a : Action) : Decidable (Announces s a) :=
  match a with
  | .commit callId _ => decidableOfFind (s.calls.find? callId) fun c =>
    c.request.isReport = true → c.phase.work.deletes = none
  | .fail callId => decidableOfFind (s.calls.find? callId) fun c =>
    ∀ payload, c.phase ≠ .committed payload
  | .begin .. | .proceed _ | .changeQuiz _ => .isTrue trivial

/-! ## What is known of a request on its way -/

def Names (reviews : Reviews) (quizId reviewId : Uuid) : Prop :=
  ∃ review, reviews.find? reviewId = some review ∧ review.quizId = quizId

structure Work.Ok (reviews : Reviews) (reports : Reports) (request : Request) (work : Work) :
    Prop where
  deletes : ∀ reviewId, work.deletes = some reviewId →
    ∃ review, getReviewById reviews reviewId = some review
  report : ∀ reportId, work.report = some reportId → ∃ status actorId report,
    request = .updateReportStatus reportId status actorId ∧
      reports.find? reportId = some report ∧ canTransition report.status status = true

def Stage.Ok (reviews : Reviews) (request : Request) (work : Work) : Stage → Prop
  | .reported | .actioned _ | .ready none => request.isReport = true
  -- so the query for the quiz finds nothing
  | .softDeleted reviewId => request.isReport = true ∧
    (work.deletes = some reviewId ∨ getReviewById reviews reviewId = none)
  | .located quizId reviewId => request.isReport = false ∧ work.deletes = some reviewId ∧
    Names reviews quizId reviewId
  | .ready (some payload) => request.isReport = false ∧ work.deletes = some payload.reviewId ∧
    Names reviews payload.quizId payload.reviewId

def Phase.Ok (reviews : Reviews) (reports : Reports) (request : Request) : Phase → Prop
  | .begun | .visible | .committed _ => True
  | .found quizId reviewId => Names reviews quizId reviewId
  | .described payload => Names reviews payload.quizId payload.reviewId
  | .checked current => ∀ reportId status actorId,
    request = .updateReportStatus reportId status actorId → canTransition current status = true
  | .writing work stage => work.Ok reviews reports request ∧ stage.Ok reviews request work

/-- What calls know of the rows they hold. -/
structure Inv (s : System) : Prop where
  calls : ∀ c ∈ s.calls.rows, c.phase.Ok s.reviews s.reports c.request
  deletes : s.calls.Exclusive fun c => c.phase.work.deletes
  reports : s.calls.Exclusive fun c => c.phase.work.report
  unannounced : ∀ review ∈ s.reviews.rows, review.deletedAt = none →
    keyTaken s.events (some (deletedKey review.quizId review.reviewId)) = false

theorem Inv.start (db : Database) : Inv (System.start db) :=
  ⟨fun _ hc => absurd hc List.not_mem_nil, exclusive_empty, exclusive_empty,
    db.unannounced⟩

/-! ## What a request does -/

variable {reportId : Uuid} {c : Call} {phase : Phase} {work : Work} {stage : Stage} {nowIso : Int}
  {eventId : String} {a : Action} {s₀ : System}

section Steps

variable {s s' : System}

theorem not_reviewLocked_iff {callId : String} {reviewId : Uuid} :
    s.reviewLocked callId reviewId = false ↔
      ∀ c ∈ s.calls.rows, c.callId ≠ callId → c.phase.work.deletes ≠ some reviewId := by
  simp [System.reviewLocked]

theorem not_reportLocked_iff {callId : String} :
    s.reportLocked callId reportId = false ↔
      ∀ c ∈ s.calls.rows, c.callId ≠ callId → c.phase.work.report ≠ some reportId := by
  simp [System.reportLocked]

structure Advances (s : System) (c : Call) (phase : Phase) : Prop where
  uncommitted : ∀ payload, c.phase ≠ .committed payload
  stays : ∀ payload, phase ≠ .committed payload
  ok : phase.Ok s.reviews s.reports c.request
  deletes : ∀ reviewId, phase.work.deletes = some reviewId →
    c.phase.work.deletes = some reviewId ∨ s.reviewLocked c.callId reviewId = false
  report : ∀ reportId, phase.work.report = some reportId →
    c.phase.work.report = some reportId ∨ s.reportLocked c.callId reportId = false

/-- All that a call can do next. -/
inductive Outcome (s : System) (c : Call) (s' : System) : Prop
  | ends (result : Except ReviewError Unit) (uncommitted : ∀ payload, c.phase ≠ .committed payload)
      (hs : s' = s.answer c.callId result)
  | advances (phase : Phase) (hs : s' = s.advance c.callId phase) (h : Advances s c phase)
  | dispatches (payload payload' : ReviewDeletedPayload)
      (hs : s' = { s.answer c.callId (.ok ()) with dispatched := s.dispatched ++ [payload'] })
      (committed : c.phase = .committed payload) (hquiz : payload'.quizId = payload.quizId)
      (hreview : payload'.reviewId = payload.reviewId)

theorem Advances.unlocked (hwork : phase.work = ⟨none, none⟩)
    (uncommitted : ∀ payload, c.phase ≠ .committed payload)
    (stays : ∀ payload, phase ≠ .committed payload) (ok : phase.Ok s.reviews s.reports c.request) :
    Advances s c phase := by
  refine ⟨uncommitted, stays, ok, ?_, ?_⟩
  · intro reviewId h
    rw [hwork] at h
    cases h
  · intro reportId h
    rw [hwork] at h
    cases h

theorem Advances.reads {stage' : Stage} (hphase : c.phase = .writing work stage)
    (hok : c.phase.Ok s.reviews s.reports c.request) (hstage : stage'.Ok s.reviews c.request work) :
    Advances s c (.writing work stage') := by
  rw [hphase] at hok
  refine ⟨?_, fun _ => Phase.noConfusion, ⟨hok.1, hstage⟩, ?_, ?_⟩
  · rw [hphase]
    exact fun _ => Phase.noConfusion
  · intro reviewId h
    rw [hphase]
    exact .inl h
  · intro reportId h
    rw [hphase]
    exact .inl h

theorem Advances.deletes_first {reviewId : Uuid} {review : ReviewRow}
    (uncommitted : ∀ payload, c.phase ≠ .committed payload)
    (hfree : ¬ s.reviewLocked c.callId reviewId = true)
    (hactive : getReviewById s.reviews reviewId = some review)
    (hstage : stage.Ok s.reviews c.request ⟨none, some reviewId⟩) :
    Advances s c (.writing ⟨none, some reviewId⟩ stage) := by
  refine ⟨uncommitted, fun _ => Phase.noConfusion, ⟨⟨?_, ?_⟩, hstage⟩, ?_, ?_⟩
  · rintro _ ⟨⟩
    exact ⟨review, hactive⟩
  · rintro _ ⟨⟩
  · rintro _ ⟨⟩
    exact .inr (Bool.eq_false_iff.mpr hfree)
  · rintro _ ⟨⟩

theorem announce_cases (hok : c.phase.Ok s.reviews s.reports c.request) (h : s.announce c = some s') :
    Outcome s c s' := by
  unfold System.announce at h
  split at h
  · next work quizId reviewId hphase =>
    cases h
    refine .advances _ rfl (.reads hphase hok ?_)
    rw [hphase] at hok
    exact hok.2
  · next payload hphase =>
    cases h
    exact .dispatches payload _ rfl hphase rfl rfl
  · cases h

theorem deleteReview_cases {quizId : Uuid} {user : JwtPayload}
    (hrequest : c.request = .deleteReview quizId user)
    (hok : c.phase.Ok s.reviews s.reports c.request) (h : s.deleteReview c quizId user = some s') :
    Outcome s c s' := by
  unfold System.deleteReview at h
  split at h
  · next hphase =>
    have huncommitted : ∀ payload, c.phase ≠ .committed payload := by simp [hphase]
    rw [some.injEq] at h
    split at h
    · exact .ends _ huncommitted h.symm
    · exact .advances _ h.symm (.unlocked rfl huncommitted (fun _ => Phase.noConfusion) trivial)
  · next hphase =>
    have huncommitted : ∀ payload, c.phase ≠ .committed payload := by simp [hphase]
    rw [some.injEq] at h
    split at h
    · exact .ends _ huncommitted h.symm
    · next existing hexisting =>
      split at h
      · obtain ⟨hmem, hquiz, -⟩ := of_getReviewByQuizAndUser hexisting
        refine .advances _ h.symm (.unlocked rfl huncommitted (fun _ => Phase.noConfusion) ?_)
        exact ⟨existing, find?_of_mem hmem, hquiz⟩
      · exact .ends _ huncommitted h.symm
  · next quizId' reviewId hphase =>
    have huncommitted : ∀ payload, c.phase ≠ .committed payload := by simp [hphase]
    cases h
    rw [hphase] at hok
    exact .advances _ rfl (.unlocked rfl huncommitted (fun _ => Phase.noConfusion) hok)
  · next payload hphase =>
    have huncommitted : ∀ payload, c.phase ≠ .committed payload := by simp [hphase]
    split at h
    · cases h
    · next hfree =>
      rw [some.injEq] at h
      split at h
      · exact .ends _ huncommitted h.symm
      · next review hactive =>
        rw [hphase] at hok
        refine .advances _ h.symm (.deletes_first huncommitted hfree hactive ⟨?_, rfl, hok⟩)
        rw [hrequest]
        rfl
  · next payload hphase =>
    cases h
    exact .dispatches payload payload rfl hphase rfl rfl
  · cases h

theorem adminDeleteReview_cases {reviewId actorId : Uuid}
    (hrequest : c.request = .adminDeleteReview reviewId actorId)
    (hok : c.phase.Ok s.reviews s.reports c.request) (h : s.adminDeleteReview c reviewId = some s') :
    Outcome s c s' := by
  unfold System.adminDeleteReview at h
  split at h
  · next hphase =>
    have huncommitted : ∀ payload, c.phase ≠ .committed payload := by simp [hphase]
    rw [some.injEq] at h
    split at h
    · exact .ends _ huncommitted h.symm
    · next existing hexisting =>
      refine .advances _ h.symm (.unlocked rfl huncommitted (fun _ => Phase.noConfusion) ?_)
      exact ⟨existing, (getReviewById_eq_some_iff.mp hexisting).1, rfl⟩
  · next quizId reviewId' hphase =>
    have huncommitted : ∀ payload, c.phase ≠ .committed payload := by simp [hphase]
    split at h
    · cases h
    · next hfree =>
      rw [some.injEq] at h
      split at h
      · exact .ends _ huncommitted h.symm
      · next review hactive =>
        rw [hphase] at hok
        refine .advances _ h.symm (.deletes_first huncommitted hfree hactive ⟨?_, rfl, hok⟩)
        rw [hrequest]
        rfl
  · exact announce_cases hok h

theorem getQuizIdByReviewIdInTx_eq_none {reviews : Reviews} {reviewId : Uuid}
    (h : work.deletes = some reviewId ∨ getReviewById reviews reviewId = none) :
    getQuizIdByReviewIdInTx (work.reviews reviews nowIso) reviewId = none := by
  rw [getQuizIdByReviewIdInTx, Option.map_eq_none_iff, Option.eq_none_iff_forall_ne_some]
  intro review hreview
  obtain ⟨hfind, hactive⟩ := getReviewById_eq_some_iff.mp hreview
  unfold Work.reviews at hfind
  rcases h with hdeletes | hnone
  · rw [hdeletes] at hfind
    simp only [softDelete] at hfind
    rw [find?_modify, if_pos rfl, map_eq_some_iff] at hfind
    obtain ⟨old, -, rfl⟩ := hfind
    cases hactive
  · split at hfind
    · exact Option.eq_none_iff_forall_ne_some.mp hnone review
        (getReviewById_eq_some_iff.mpr ⟨hfind, hactive⟩)
    · simp only [softDelete] at hfind
      rw [find?_modify_map, map_eq_some_iff] at hfind
      obtain ⟨old, hold, rfl⟩ := hfind
      split at hactive
      · cases hactive
      · exact Option.eq_none_iff_forall_ne_some.mp hnone old
          (getReviewById_eq_some_iff.mpr ⟨hold, hactive⟩)

theorem updateReportStatus_cases {actorId : Uuid} {status : ReviewReportStatus}
    (hrequest : c.request = .updateReportStatus reportId status actorId)
    (hok : c.phase.Ok s.reviews s.reports c.request)
    (h : s.updateReportStatus c reportId status = some s') : Outcome s c s' := by
  have hreport : c.request.isReport = true := by rw [hrequest]; rfl
  unfold System.updateReportStatus at h
  split at h
  · next hphase =>
    have huncommitted : ∀ payload, c.phase ≠ .committed payload := by simp [hphase]
    rw [some.injEq] at h
    split at h
    · exact .ends _ huncommitted h.symm
    · next report hfind =>
      split at h
      · next hallowed =>
        refine .advances _ h.symm (.unlocked rfl huncommitted (fun _ => Phase.noConfusion) ?_)
        intro reportId' status' actorId' hsame
        obtain ⟨-, rfl, -⟩ := Request.updateReportStatus.inj (hrequest.symm.trans hsame)
        exact hallowed
      · exact .ends _ huncommitted h.symm
  · next current hphase =>
    have huncommitted : ∀ payload, c.phase ≠ .committed payload := by simp [hphase]
    split at h
    · cases h
    · next hfree =>
      rw [some.injEq] at h
      split at h
      · exact .ends _ huncommitted h.symm
      · next report hfind =>
        obtain ⟨hfind, hcurrent⟩ := Option.filter_eq_some_iff.mp hfind
        rw [hphase] at hok
        refine .advances _ h.symm ⟨huncommitted, fun _ => Phase.noConfusion, ⟨⟨?_, ?_⟩, ?_⟩, ?_, ?_⟩
        · rintro _ ⟨⟩
        · rintro _ ⟨⟩
          refine ⟨status, actorId, report, hrequest, hfind, ?_⟩
          rw [of_decide_eq_true hcurrent]
          exact hok reportId status actorId hrequest
        · split <;> exact hreport
        · rintro _ ⟨⟩
        · rintro _ ⟨⟩
          exact .inr (Bool.eq_false_iff.mpr hfree)
  · next work hphase =>
    rw [some.injEq] at h
    split at h
    · exact .advances _ h.symm (.reads hphase hok hreport)
    · exact .advances _ h.symm (.reads hphase hok hreport)
  · next work reviewId hphase =>
    have huncommitted : ∀ payload, c.phase ≠ .committed payload := by simp [hphase]
    split at h
    · cases h
    · next hfree =>
      rw [some.injEq] at h
      split at h
      · next hnone => exact .advances _ h.symm (.reads hphase hok ⟨hreport, .inr hnone⟩)
      · next review hactive =>
        rw [hphase] at hok
        refine .advances _ h.symm ⟨huncommitted, fun _ => Phase.noConfusion,
          ⟨⟨?_, hok.1.report⟩, hreport, .inl rfl⟩, ?_, ?_⟩
        · rintro _ ⟨⟩
          exact ⟨review, hactive⟩
        · rintro _ ⟨⟩
          exact .inr (Bool.eq_false_iff.mpr hfree)
        · intro reportId' hsame
          rw [hphase]
          exact .inl hsame
  · next work reviewId hphase =>
    rw [some.injEq] at h
    have hgone : getQuizIdByReviewIdInTx (work.reviews s.reviews c.nowIso) reviewId = none := by
      rw [hphase] at hok
      exact getQuizIdByReviewIdInTx_eq_none hok.2.2
    rw [hgone] at h
    exact .advances _ h.symm (.reads hphase hok hreport)
  · exact announce_cases hok h

/-- **What the next statement of a request can do.** None of `updateReportStatus` comes to an
announcement. -/
theorem proceed_cases (hok : c.phase.Ok s.reviews s.reports c.request) (h : s.proceed c = some s') :
    Outcome s c s' := by
  unfold System.proceed at h
  split at h
  · next quizId user hrequest => exact deleteReview_cases hrequest hok h
  · next reviewId actorId hrequest => exact adminDeleteReview_cases hrequest hok h
  · next reportId status actorId hrequest => exact updateReportStatus_cases hrequest hok h

/-! ## The tables -/

theorem find?_reviews {reviews : Reviews} {reviewId : Uuid} :
    (work.reviews reviews nowIso).find? reviewId = (reviews.find? reviewId).map fun review =>
      if work.deletes = some reviewId then { review with deletedAt := some nowIso } else review := by
  unfold Work.reviews
  split
  · next hdeletes => simp [hdeletes]
  · next reviewId' hdeletes =>
    simp only [softDelete, find?_modify_map, hdeletes, some.injEq]
    cases hfind : reviews.find? reviewId with
    | none => rfl
    | some review =>
      rw [map_some, map_some, key_of_find? hfind]
      by_cases h : reviewId = reviewId'
      · rw [if_pos h, if_pos h.symm]
      · rw [if_neg h, if_neg (Ne.symm h)]

theorem Names.reviews {reviews : Reviews} {quizId reviewId : Uuid}
    (h : Names reviews quizId reviewId) : Names (work.reviews reviews nowIso) quizId reviewId := by
  obtain ⟨review, hfind, hquiz⟩ := h
  rw [Names, find?_reviews, hfind, map_some]
  refine ⟨_, rfl, ?_⟩
  split <;> exact hquiz

theorem getReviewById_reviews {reviews : Reviews} {reviewId : Uuid}
    (h : work.deletes ≠ some reviewId) :
    getReviewById (work.reviews reviews nowIso) reviewId = getReviewById reviews reviewId := by
  rw [getReviewById, find?_reviews, getReviewById]
  simp only [if_neg h, map_id']

theorem getReviewById_reviews_eq_none {reviews : Reviews} {reviewId : Uuid}
    (h : getReviewById reviews reviewId = none) :
    getReviewById (work.reviews reviews nowIso) reviewId = none := by
  by_cases hdeletes : work.deletes = some reviewId
  · rw [Option.eq_none_iff_forall_ne_some]
    intro review hreview
    obtain ⟨hfind, hactive⟩ := getReviewById_eq_some_iff.mp hreview
    rw [find?_reviews, map_eq_some_iff] at hfind
    obtain ⟨old, -, rfl⟩ := hfind
    rw [if_pos hdeletes] at hactive
    cases hactive
  · rw [getReviewById_reviews hdeletes, h]

theorem find?_reports {reports : Reports} {request : Request} (h : work.report ≠ some reportId) :
    (work.reports reports request nowIso).find? reportId = reports.find? reportId := by
  unfold Work.reports
  split
  · next reportId' _ status _ hreport =>
    rw [hreport, ne_eq, some.injEq] at h
    exact find?_modify_ne (Ne.symm h)
  · rfl

/-- What a transaction has written can still be written when another one commits, which writes
other rows. -/
theorem Phase.Ok.commit {reviews : Reviews} {reports : Reports} {request request' : Request}
    (h : phase.Ok reviews reports request)
    (hdeletes : ∀ reviewId, phase.work.deletes = some reviewId → work.deletes ≠ some reviewId)
    (hreport : ∀ reportId, phase.work.report = some reportId → work.report ≠ some reportId) :
    phase.Ok (work.reviews reviews nowIso) (work.reports reports request' nowIso) request := by
  cases phase with
  | begun | visible => trivial
  | committed payload => trivial
  | found quizId reviewId => exact Names.reviews h
  | described payload => exact Names.reviews h
  | checked current => exact h
  | writing own stage =>
    obtain ⟨hwork, hstage⟩ := h
    refine ⟨⟨?_, ?_⟩, ?_⟩
    · intro reviewId hown
      rw [getReviewById_reviews (hdeletes reviewId hown)]
      exact hwork.deletes reviewId hown
    · intro reportId hown
      rw [find?_reports (hreport reportId hown)]
      exact hwork.report reportId hown
    · match stage, hstage with
      | .reported, hstage => exact hstage
      | .actioned _, hstage => exact hstage
      | .ready none, hstage => exact hstage
      | .softDeleted _, hstage => exact ⟨hstage.1, hstage.2.imp_right getReviewById_reviews_eq_none⟩
      | .located _ _, hstage => exact ⟨hstage.1, hstage.2.1, hstage.2.2.reviews⟩
      | .ready (some _), hstage => exact ⟨hstage.1, hstage.2.1, hstage.2.2.reviews⟩

/-! ## The invariant -/

theorem Inv.answer (h : Inv s) (callId : String) (result : Except ReviewError Unit) :
    Inv (s.answer callId result) :=
  ⟨fun c hc => h.calls c (mem_erase.mp hc).1, h.deletes.erase callId,
    h.reports.erase callId, h.unannounced⟩

theorem mem_advance (hc : s.calls.find? c.callId = some c) {x : Call}
    (hx : x ∈ (s.advance c.callId phase).calls.rows) :
    x = { c with phase } ∨ (x ∈ s.calls.rows ∧ x.callId ≠ c.callId) := by
  have hmodified : x ∈ (s.calls.modify c.callId (fun c => { c with phase }) fun _ => rfl).rows := hx
  exact mem_modify_cases hc hmodified

theorem Inv.advance (h : Inv s) (hc : s.calls.find? c.callId = some c) (hgo : Advances s c phase) :
    Inv (s.advance c.callId phase) := by
  refine ⟨?_, h.deletes.modify (fun c => { c with phase }) (fun _ => rfl) hc ?_,
    h.reports.modify (fun c => { c with phase }) (fun _ => rfl) hc ?_, h.unannounced⟩
  · intro x hx
    rcases mem_advance hc hx with rfl | ⟨hx, -⟩
    · exact hgo.ok
    · exact h.calls x hx
  · intro reviewId hown
    exact (hgo.deletes reviewId hown).imp_right not_reviewLocked_iff.mp
  · intro reportId hown
    exact (hgo.report reportId hown).imp_right not_reportLocked_iff.mp

theorem Inv.begin (h : Inv s) (hphase : c.phase = .begun) {calls : Table String Call (·.callId)}
    (hcalls : s.calls.insert? c = some calls) : Inv { s with calls } := by
  have hwork : c.phase.work = ⟨none, none⟩ := by rw [hphase]; rfl
  refine ⟨?_, h.deletes.insert? (congrArg Work.deletes hwork) hcalls,
    h.reports.insert? (congrArg Work.report hwork) hcalls, h.unannounced⟩
  intro x hx
  rw [rows_of_insert? hcalls, List.mem_append, List.mem_singleton] at hx
  rcases hx with hx | rfl
  · exact h.calls x hx
  · rw [hphase]
    trivial

theorem keyTaken_insertEvent {events : OutboxEvents} {e : NewEvent} {key : String}
    (hfresh : events.find? e.eventId = none) (hne : e.idempotencyKey ≠ some key) :
    keyTaken (insertEvent events e) (some key) = keyTaken events (some key) := by
  have hnew : (e.row.idempotencyKey == some key) = false := beq_eq_false_iff_ne.mpr hne
  rw [keyTaken, keyTaken, rows_insertEvent hfresh]
  by_cases htaken : keyTaken events e.idempotencyKey = true
  · rw [if_pos htaken]
  · rw [if_neg htaken, List.any_append, List.any_cons, hnew, Bool.and_false, List.any_nil,
      Bool.or_false, Bool.or_false]

/-- When a transaction has committed, the reviews are deleted that were, and the one it has deleted
is. -/
theorem active_of_mem_reviews {reviews : Reviews} {review : ReviewRow}
    (hreview : review ∈ (work.reviews reviews nowIso).rows) (hactive : review.deletedAt = none) :
    review ∈ reviews.rows ∧ work.deletes ≠ some review.reviewId := by
  have hfind := find?_of_mem hreview
  rw [find?_reviews, map_eq_some_iff] at hfind
  obtain ⟨old, hold, hsame⟩ := hfind
  split at hsame
  · rw [← hsame] at hactive
    cases hactive
  · next hne => exact ⟨hsame ▸ mem_of_find? hold, hne⟩

theorem Inv.write (h : Inv s) (hc : s.calls.find? c.callId = some c)
    (hphase : c.phase = .writing work stage) {calls : Table String Call (·.callId)}
    (hcalls : ∀ x ∈ calls.rows, x.phase.work = ⟨none, none⟩ ∧
      x.phase.Ok (work.reviews s.reviews c.nowIso) (work.reports s.reports c.request c.nowIso) x.request ∨
      (x ∈ s.calls.rows ∧ x.callId ≠ c.callId))
    {events : OutboxEvents}
    (hevents : ∀ review ∈ s.reviews.rows, review.deletedAt = none →
      work.deletes ≠ some review.reviewId →
      keyTaken events (some (deletedKey review.quizId review.reviewId)) = false) :
    Inv { s.write c work with calls, events } := by
  have hmem := mem_of_find? hc
  have hwork : c.phase.work = work := by rw [hphase]; rfl
  refine ⟨?_, ?_, ?_, ?_⟩
  · intro x hx
    rcases hcalls x hx with ⟨-, hok⟩ | ⟨hx, hne⟩
    · exact hok
    · refine (h.calls x hx).commit ?_ ?_
      · intro reviewId hown hother
        rw [← hwork] at hother
        exact hne (congrArg callId (h.deletes x hx c hmem reviewId hown hother))
      · intro reportId hown hother
        rw [← hwork] at hother
        exact hne (congrArg callId (h.reports x hx c hmem reportId hown hother))
  · refine h.deletes.of_cases ?_
    intro x hx
    exact (hcalls x hx).imp (fun hfree => congrArg Work.deletes hfree.1) And.left
  · refine h.reports.of_cases ?_
    intro x hx
    exact (hcalls x hx).imp (fun hfree => congrArg Work.report hfree.1) And.left
  · intro review hreview hactive
    obtain ⟨hreview, hne⟩ := active_of_mem_reviews hreview hactive
    exact hevents review hreview hactive hne

theorem commit_cases (h : Inv s) (hc : s.calls.find? c.callId = some c)
    (hcommit : s.commit c eventId = some s') :
    (∃ work, c.phase = .writing work (.ready none) ∧ c.request.isReport = true ∧
      s' = (s.write c work).answer c.callId (.ok ())) ∨
    ∃ work payload review, c.phase = .writing work (.ready (some payload)) ∧
      c.request.isReport = false ∧ work.deletes = some payload.reviewId ∧
      getReviewById s.reviews payload.reviewId = some review ∧ review.quizId = payload.quizId ∧
      s.events.find? eventId = none ∧
      keyTaken s.events (some (deletedKey payload.quizId payload.reviewId)) = false ∧
      s' = { (s.write c work).advance c.callId (.committed payload) with
        events := insertEvent s.events (scheduleReviewDeleted eventId payload c.nowIso) } := by
  have hok := h.calls c (mem_of_find? hc)
  unfold System.commit at hcommit
  split at hcommit
  · next work hphase =>
    cases hcommit
    rw [hphase] at hok
    exact .inl ⟨work, hphase, hok.2, rfl⟩
  · next work payload hphase =>
    split at hcommit
    · cases hcommit
    · next hfresh =>
      cases hcommit
      rw [hphase] at hok
      obtain ⟨hwork, hrequest, hdeletes, named, hnamed, hquiz⟩ := hok
      obtain ⟨review, hreview⟩ := hwork.deletes payload.reviewId hdeletes
      obtain ⟨hfind, hactive⟩ := getReviewById_eq_some_iff.mp hreview
      obtain rfl := Option.some.inj (hnamed.symm.trans hfind)
      refine .inr ⟨work, payload, named, hphase, hrequest, hdeletes, hreview, hquiz, hfresh, ?_, rfl⟩
      rw [← hquiz, ← key_of_find? hfind]
      exact h.unannounced named (mem_of_find? hfind) hactive
  · cases hcommit

theorem Inv.commit (h : Inv s) (hc : s.calls.find? c.callId = some c)
    (hcommit : s.commit c eventId = some s') : Inv s' := by
  rcases commit_cases h hc hcommit with ⟨work, hphase, -, rfl⟩ |
    ⟨work, payload, review, hphase, -, hdeletes, -, -, hfresh, -, rfl⟩
  · have hwritten : Inv { s.write c work with calls := s.calls.erase c.callId, events := s.events } :=
      h.write hc hphase (fun x hx => .inr (mem_erase.mp hx))
        fun review hreview hactive _ => h.unannounced review hreview hactive
    exact ⟨hwritten.calls, hwritten.deletes, hwritten.reports, hwritten.unannounced⟩
  · refine h.write hc hphase ?_ ?_
    · intro x hx
      rcases mem_advance hc hx with rfl | ⟨hx, hne⟩
      · exact .inl ⟨rfl, trivial⟩
      · exact .inr ⟨hx, hne⟩
    · intro review hreview hactive hne
      rw [keyTaken_insertEvent hfresh]
      · exact h.unannounced review hreview hactive
      · intro hkey
        refine hne ?_
        rw [hdeletes, deletedKey_injective (Option.some.inj hkey)]

theorem Inv.step (h : Inv s) (hstep : s.step a = some s') : Inv s' := by
  cases a with
  | begin callId request nowIso =>
    obtain ⟨calls, hcalls, rfl⟩ := map_eq_some_iff.mp hstep
    exact h.begin rfl hcalls
  | proceed callId =>
    obtain ⟨c, hc, rfl, hproceed⟩ := of_find?_bind hstep
    cases proceed_cases (h.calls c (mem_of_find? hc)) hproceed with
    | ends result _ hs => exact hs ▸ h.answer c.callId result
    | advances phase hs hgo => exact hs ▸ h.advance hc hgo
    | dispatches payload payload' hs =>
      have hends := h.answer c.callId (.ok ())
      rw [hs]
      exact ⟨hends.calls, hends.deletes, hends.reports, hends.unannounced⟩
  | commit callId eventId =>
    obtain ⟨c, hc, rfl, hcommit⟩ := of_find?_bind hstep
    exact h.commit hc hcommit
  | fail callId =>
    obtain ⟨c, hc, rfl, hfail⟩ := of_find?_bind hstep
    unfold System.fail at hfail
    split at hfail
    · cases hfail
    · cases hfail
      exact h.answer c.callId _
  | changeQuiz quiz =>
    cases hstep
    exact ⟨h.calls, h.deletes, h.reports, h.unannounced⟩

/-! ## Deletions -/

def Aged (before after : Reviews) : Prop :=
  ∀ reviewId review, after.find? reviewId = some review → ∃ old,
    before.find? reviewId = some old ∧ old.quizId = review.quizId ∧
      (review.deletedAt = none → old.deletedAt = none)

theorem Aged.refl (reviews : Reviews) : Aged reviews reviews :=
  fun _ review h => ⟨review, h, rfl, id⟩

theorem Aged.write {before reviews : Reviews} (h : Aged before reviews) (work : Work)
    (nowIso : Int) : Aged before (work.reviews reviews nowIso) := by
  intro reviewId review hfind
  rw [find?_reviews, map_eq_some_iff] at hfind
  obtain ⟨middle, hmiddle, rfl⟩ := hfind
  obtain ⟨old, hold, hquiz, hactive⟩ := h reviewId middle hmiddle
  refine ⟨old, hold, ?_, ?_⟩
  · split <;> exact hquiz
  · intro hnew
    split at hnew
    · cases hnew
    · exact hactive hnew

theorem Aged.step {before : Reviews} (hinv : Inv s) (h : Aged before s.reviews)
    (hstep : s.step a = some s') : Aged before s'.reviews := by
  cases a with
  | begin callId request nowIso =>
    obtain ⟨calls, -, rfl⟩ := map_eq_some_iff.mp hstep
    exact h
  | proceed callId =>
    obtain ⟨c, hc, rfl, hproceed⟩ := of_find?_bind hstep
    cases proceed_cases (hinv.calls c (mem_of_find? hc)) hproceed with
    | ends result _ hs => exact hs ▸ h
    | advances phase hs hgo => exact hs ▸ h
    | dispatches payload payload' hs => exact hs ▸ h
  | commit callId eventId =>
    obtain ⟨c, hc, rfl, hcommit⟩ := of_find?_bind hstep
    rcases commit_cases hinv hc hcommit with ⟨work, -, -, rfl⟩ | ⟨work, payload, -, -, -, -, -, -, -, -, rfl⟩
    · exact h.write work c.nowIso
    · exact h.write work c.nowIso
  | fail callId =>
    obtain ⟨c, hc, rfl, hfail⟩ := of_find?_bind hstep
    unfold System.fail at hfail
    split at hfail
    · cases hfail
    · cases hfail
      exact h
  | changeQuiz quiz =>
    cases hstep
    exact h

theorem deletedSince_write {before reviews : Reviews} (haged : Aged before reviews) {deleted : Uuid}
    {review : ReviewRow} (hdeletes : work.deletes = some deleted)
    (hreview : getReviewById reviews deleted = some review) (quizId reviewId : Uuid) :
    (deletedSince before (work.reviews reviews nowIso) quizId reviewId).toNat =
      (deletedSince before reviews quizId reviewId).toNat +
        if review.quizId = quizId ∧ deleted = reviewId then 1 else 0 := by
  obtain ⟨hfind, hactive⟩ := getReviewById_eq_some_iff.mp hreview
  by_cases hsame : deleted = reviewId
  · subst hsame
    obtain ⟨old, hold, -, hbefore⟩ := haged deleted review hfind
    have hwas : getReviewById before deleted = some old :=
      getReviewById_eq_some_iff.mpr ⟨hold, hbefore hactive⟩
    rw [deletedSince, deletedSince, find?_reviews, hfind, hwas, map_some,
      if_pos hdeletes]
    by_cases hquiz : review.quizId = quizId
    · simp [ReviewRow.isActive, hactive, hquiz]
    · simp [ReviewRow.isActive, hquiz]
  · have hother : work.deletes ≠ some reviewId := by
      rw [hdeletes]
      exact fun h => hsame (Option.some.inj h)
    rw [if_neg fun h => hsame h.2, Nat.add_zero, deletedSince, deletedSince, find?_reviews]
    simp only [if_neg hother, map_id']

/-! ## What is written and dispatched -/

theorem owes_eq_false (h : ∀ payload, c.phase ≠ .committed payload) (quizId reviewId : Uuid) :
    c.owes quizId reviewId = false := by
  unfold owes
  split
  · next payload hphase => exact absurd hphase (h payload)
  · rfl

theorem owed_answer (hc : s.calls.find? c.callId = some c) (result : Except ReviewError Unit)
    (quizId reviewId : Uuid) :
    (s.answer c.callId result).owed quizId reviewId + (if c.owes quizId reviewId then 1 else 0)
      = s.owed quizId reviewId :=
  countP_erase _ hc

theorem owed_advance (hc : s.calls.find? c.callId = some c) (phase : Phase) (quizId reviewId : Uuid) :
    (s.advance c.callId phase).owed quizId reviewId + (if c.owes quizId reviewId then 1 else 0)
      = s.owed quizId reviewId +
        (if owes quizId reviewId { c with phase } then 1 else 0) := by
  have hcount : (s.calls.modify c.callId (fun c => { c with phase }) fun _ => rfl).rows.countP
      (owes quizId reviewId) + (if c.owes quizId reviewId then 1 else 0)
        = s.calls.rows.countP (owes quizId reviewId) +
          (if owes quizId reviewId { c with phase } then 1 else 0) :=
    countP_modify _ hc
  exact hcount

theorem Announced.of_same (h : Announced s₀ s) (hreviews : s'.reviews = s.reviews)
    (hevents : s'.events = s.events)
    (hdone : ∀ quizId reviewId,
      s'.announced quizId reviewId + s'.owed quizId reviewId = s.announced quizId reviewId + s.owed quizId reviewId) :
    Announced s₀ s' := by
  refine ⟨?_, ?_⟩
  · intro quizId reviewId
    rw [System.written, hevents, hreviews]
    exact h.rows quizId reviewId
  · intro quizId reviewId
    rw [hdone, hreviews]
    exact h.events quizId reviewId

theorem Announced.answer (h : Announced s₀ s) (hc : s.calls.find? c.callId = some c)
    (huncommitted : ∀ payload, c.phase ≠ .committed payload) (result : Except ReviewError Unit) :
    Announced s₀ (s.answer c.callId result) := by
  refine h.of_same rfl rfl ?_
  intro quizId reviewId
  have howed := owed_answer hc result quizId reviewId
  rw [owes_eq_false huncommitted, if_neg Bool.false_ne_true] at howed
  rw [← howed]
  rfl

theorem Announced.proceed (h : Announced s₀ s) (hinv : Inv s) (hc : s.calls.find? c.callId = some c)
    (hproceed : s.proceed c = some s') : Announced s₀ s' := by
  cases proceed_cases (hinv.calls c (mem_of_find? hc)) hproceed with
  | ends result huncommitted hs => exact hs ▸ h.answer hc huncommitted result
  | advances phase hs hgo =>
    rw [hs]
    refine h.of_same rfl rfl ?_
    intro quizId reviewId
    have howed := owed_advance hc phase quizId reviewId
    rw [owes_eq_false hgo.uncommitted, owes_eq_false (c := { c with phase }) hgo.stays,
      if_neg Bool.false_ne_true] at howed
    exact congrArg (s.announced quizId reviewId + ·) howed
  | dispatches payload payload' hs hphase hquiz hreview =>
    rw [hs]
    refine h.of_same rfl rfl ?_
    intro quizId reviewId
    have howed := owed_answer hc (.ok ()) quizId reviewId
    have howes : c.owes quizId reviewId = ReviewDeletedPayload.isOf quizId reviewId payload' := by
      simp only [owes, hphase, ReviewDeletedPayload.isOf, hquiz, hreview]
    rw [howes] at howed
    rw [← howed]
    show (s.dispatched ++ [payload']).countP _ + _ = s.dispatched.countP _ + _
    rw [List.countP_append, List.countP_singleton]
    exact (Nat.add_assoc ..).trans (congrArg _ (Nat.add_comm ..))

theorem written_insertEvent {payload : ReviewDeletedPayload}
    (hfresh : s.events.find? eventId = none)
    (hfree : keyTaken s.events (some (deletedKey payload.quizId payload.reviewId)) = false)
    (quizId reviewId : Uuid) :
    (insertEvent s.events (scheduleReviewDeleted eventId payload nowIso)).rows.countP
        (isAbout "review.deleted" quizId reviewId)
      = s.written quizId reviewId +
        if payload.quizId = quizId ∧ payload.reviewId = reviewId then 1 else 0 := by
  have hkey : keyTaken s.events (scheduleReviewDeleted eventId payload nowIso).idempotencyKey
      = false := hfree
  have hid : s.events.find? (scheduleReviewDeleted eventId payload nowIso).eventId = none := hfresh
  rw [rows_insertEvent hid, hkey, if_neg Bool.false_ne_true, List.countP_append,
    List.countP_singleton, System.written]
  simp only [isAbout_scheduleReviewDeleted]

theorem announced_commit_iff (h : Announced s₀ s) (hinv : Inv s) (haged : Aged s₀.reviews s.reviews)
    (hc : s.calls.find? c.callId = some c) (hcommit : s.commit c eventId = some s') :
    (c.request.isReport = true → c.phase.work.deletes = none) ↔ Announced s₀ s' := by
  rcases commit_cases hinv hc hcommit with ⟨work, hphase, hreport, rfl⟩ |
    ⟨work, payload, review, hphase, hreport, hdeletes, hreview, hquiz, hfresh, hfree, rfl⟩
  · have hwork : c.phase.work = work := by rw [hphase]; rfl
    have howed : ∀ quizId reviewId,
        ((s.write c work).answer c.callId (.ok ())).owed quizId reviewId = s.owed quizId reviewId := by
      intro quizId reviewId
      have hcount := owed_answer hc (.ok ()) quizId reviewId
      rw [owes_eq_false (by simp [hphase]), if_neg Bool.false_ne_true] at hcount
      exact hcount
    rw [hwork, forall_prop_of_true hreport]
    constructor
    · intro hnone
      refine h.of_same ?_ rfl fun quizId reviewId => congrArg _ (howed quizId reviewId)
      show work.reviews s.reviews c.nowIso = s.reviews
      rw [Work.reviews, hnone]
    · intro h'
      cases hdeletes : work.deletes with
      | none => rfl
      | some deleted =>
        have hok := hinv.calls c (mem_of_find? hc)
        rw [hphase] at hok
        obtain ⟨review, hreview⟩ := hok.1.deletes deleted hdeletes
        have hbefore := h.rows review.quizId deleted
        have hafter : s.written review.quizId deleted = s₀.written review.quizId deleted +
            (deletedSince s₀.reviews (work.reviews s.reviews c.nowIso) review.quizId deleted).toNat :=
          h'.rows review.quizId deleted
        rw [deletedSince_write haged hdeletes hreview, if_pos ⟨rfl, rfl⟩] at hafter
        omega
  · refine iff_of_true (fun hother => absurd hother (by simp [hreport])) ⟨?_, ?_⟩
    · intro quizId reviewId
      show (insertEvent s.events _).rows.countP _ = _ +
        (deletedSince s₀.reviews (work.reviews s.reviews c.nowIso) quizId reviewId).toNat
      rw [written_insertEvent hfresh hfree, deletedSince_write haged hdeletes hreview, h.rows, hquiz,
        Nat.add_assoc]
    · intro quizId reviewId
      show s.announced quizId reviewId +
          (s.advance c.callId (.committed payload)).owed quizId reviewId
        = _ + (deletedSince s₀.reviews (work.reviews s.reviews c.nowIso) quizId reviewId).toNat
      have howed := owed_advance hc (.committed payload) quizId reviewId
      have howes : owes quizId reviewId { c with phase := .committed payload } = true ↔
          payload.quizId = quizId ∧ payload.reviewId = reviewId := by
        simp [owes, ReviewDeletedPayload.isOf]
      rw [owes_eq_false (by simp [hphase]), if_neg Bool.false_ne_true, Nat.add_zero] at howed
      rw [howed, deletedSince_write haged hdeletes hreview, hquiz]
      simp only [howes]
      rw [← Nat.add_assoc, h.events, Nat.add_assoc]

theorem announced_fail_iff (h : Announced s₀ s) (hc : s.calls.find? c.callId = some c)
    (hfail : s.fail c = some s') : (∀ payload, c.phase ≠ .committed payload) ↔ Announced s₀ s' := by
  have hends : s' = s.answer c.callId (.error .database) := by
    unfold System.fail at hfail
    split at hfail
    · cases hfail
    · exact (Option.some.inj hfail).symm
  rw [hends]
  refine ⟨fun huncommitted => h.answer hc huncommitted _, ?_⟩
  intro h' payload hphase
  have howed := owed_answer hc (.error .database) payload.quizId payload.reviewId
  have howes : c.owes payload.quizId payload.reviewId = true := by
    simp [owes, hphase, ReviewDeletedPayload.isOf]
  rw [if_pos howes] at howed
  have hbefore := h.events payload.quizId payload.reviewId
  have hafter : s.announced payload.quizId payload.reviewId + _ = _ +
    (deletedSince s₀.reviews s.reviews payload.quizId payload.reviewId).toNat :=
      h'.events payload.quizId payload.reviewId
  omega

theorem announces_iff (h : Announced s₀ s) (hinv : Inv s) (haged : Aged s₀.reviews s.reviews)
    (hstep : s.step a = some s') : Announces s a ↔ Announced s₀ s' := by
  cases a with
  | begin callId request nowIso =>
    obtain ⟨calls, hcalls, rfl⟩ := map_eq_some_iff.mp hstep
    refine iff_of_true trivial (h.of_same rfl rfl ?_)
    intro quizId reviewId
    have hcount := countP_insert? (owes quizId reviewId) hcalls
    exact congrArg (s.announced quizId reviewId + ·) hcount
  | proceed callId =>
    obtain ⟨c, hc, rfl, hproceed⟩ := of_find?_bind hstep
    exact iff_of_true trivial (h.proceed hinv hc hproceed)
  | commit callId eventId =>
    obtain ⟨c, hc, rfl, hcommit⟩ := of_find?_bind hstep
    rw [← announced_commit_iff h hinv haged hc hcommit]
    simp [Announces, hc]
  | fail callId =>
    obtain ⟨c, hc, rfl, hfail⟩ := of_find?_bind hstep
    rw [← announced_fail_iff h hc hfail]
    simp [Announces, hc]
  | changeQuiz quiz =>
    cases hstep
    exact iff_of_true trivial (h.of_same rfl rfl fun _ _ => rfl)

/-! ## Reports -/

theorem ReportsMove.of_same (h : s'.reports = s.reports) : ReportsMove s s' := by
  intro reportId report report' hreport hreport'
  rw [h, hreport, some.injEq] at hreport'
  exact .inl (hreport' ▸ rfl)

theorem ReportsMove.write (hinv : Inv s) (hc : s.calls.find? c.callId = some c)
    (hphase : c.phase = .writing work stage)
    (hreports : s'.reports = work.reports s.reports c.request c.nowIso) : ReportsMove s s' := by
  intro reportId report report' hreport hreport'
  by_cases hown : work.report = some reportId
  · have hok := hinv.calls c (mem_of_find? hc)
    rw [hphase] at hok
    obtain ⟨status, actorId, current, hrequest, hcurrent, hallowed⟩ := hok.1.report reportId hown
    rw [hreport, some.injEq] at hcurrent
    simp only [hreports, Work.reports, hown, hrequest] at hreport'
    have hwritten : (s.reports.modify reportId (fun report => { report with status, updatedAt :=
        c.nowIso }) fun _ => rfl).find? reportId = some report' := hreport'
    rw [find?_modify_self hreport, some.injEq] at hwritten
    rw [← hwritten, hcurrent]
    exact .inr hallowed
  · rw [hreports, find?_reports hown, hreport, some.injEq] at hreport'
    exact .inl (hreport' ▸ rfl)

theorem reportsMove_step (hinv : Inv s) (hstep : s.step a = some s') : ReportsMove s s' := by
  cases a with
  | begin callId request nowIso =>
    obtain ⟨calls, -, rfl⟩ := map_eq_some_iff.mp hstep
    exact .of_same rfl
  | proceed callId =>
    obtain ⟨c, hc, rfl, hproceed⟩ := of_find?_bind hstep
    cases proceed_cases (hinv.calls c (mem_of_find? hc)) hproceed with
    | ends result _ hs => exact .of_same (hs ▸ rfl)
    | advances phase hs hgo => exact .of_same (hs ▸ rfl)
    | dispatches payload payload' hs => exact .of_same (hs ▸ rfl)
  | commit callId eventId =>
    obtain ⟨c, hc, rfl, hcommit⟩ := of_find?_bind hstep
    rcases commit_cases hinv hc hcommit with ⟨work, hphase, -, rfl⟩ |
      ⟨work, payload, -, hphase, -, -, -, -, -, -, rfl⟩
    · exact .write hinv hc hphase rfl
    · exact .write hinv hc hphase rfl
  | fail callId =>
    obtain ⟨c, hc, rfl, hfail⟩ := of_find?_bind hstep
    unfold System.fail at hfail
    split at hfail
    · cases hfail
    · cases hfail
      exact .of_same rfl
  | changeQuiz quiz =>
    cases hstep
    exact .of_same rfl

end Steps

/-! ## Runs -/

/-- What should hold of a run: in every state the deletions since its start are announced, and every
step moves reports as the policy allows. -/
def EveryDeletionAnnounced (s : System) (actions : List Action) : Prop :=
  Always System.step (Announced s) s actions ∧
    EachStep System.step (fun m _ m' => ReportsMove m m') s actions

/-- **Which runs announce every deletion**: those in which no `updateReportStatus` commits that has
deleted the review itself, and no request is cut off between its commit and its event. -/
theorem deletions_announced_iff (db : Database) {actions : List Action} {t : System}
    (h : exec System.step (System.start db) actions = some t) :
    EveryDeletionAnnounced (System.start db) actions ↔
      Along System.step Announces (System.start db) actions := by
  have hstart : Announced (System.start db) (System.start db) := by
    have hnothing : ∀ quizId reviewId, deletedSince db.reviews db.reviews quizId reviewId = false := by
      intro quizId reviewId
      rw [Bool.eq_false_iff]
      intro hdeleted
      rw [deletedSince, Bool.and_eq_true, Option.isSome_iff_exists] at hdeleted
      obtain ⟨⟨review, hreview⟩, hany⟩ := hdeleted
      obtain ⟨hfind, hactive⟩ := getReviewById_eq_some_iff.mp hreview
      rw [hfind, Option.any_some, Bool.and_eq_true, ReviewRow.isActive, hactive] at hany
      exact absurd hany.2 (by decide)
    refine ⟨?_, ?_⟩
    · intro quizId reviewId
      rw [show (System.start db).reviews = db.reviews from rfl, hnothing]
      rfl
    · intro quizId reviewId
      rw [show (System.start db).reviews = db.reviews from rfl, hnothing]
      rfl
  refine along_iff_good (I := fun s => Inv s ∧ Aged db.reviews s.reviews) ?_ ?_ h
    ⟨Inv.start db, Aged.refl db.reviews⟩ hstart
  · intro s a s' hi hstep
    exact ⟨hi.1.step hstep, Aged.step hi.1 hi.2 hstep⟩
  · intro s a s' hi hp hstep
    exact (announces_iff hp hi.1 hi.2 hstep).trans (and_iff_left (reportsMove_step hi.1 hstep)).symm

def reported : Database :=
  { quizzes := ⟨[⟨1, 10, "Capitals", false, some 100, none⟩], by decide⟩
    reviews := ⟨[⟨1, 1, 20, 0, none⟩], by decide⟩
    reports := ⟨[⟨1, 1, .open, 0⟩], by decide⟩
    events := empty _
    unannounced := fun _ _ _ => rfl }

def deletesOwn : List Action :=
  [.begin "a" (.deleteReview 1 ⟨20, .user⟩) 5, .proceed "a", .proceed "a", .proceed "a",
    .proceed "a", .commit "a" "e1", .proceed "a"]

theorem deletions_announced_own :
    ∃ t, exec System.step (System.start reported) deletesOwn = some t ∧
      EveryDeletionAnnounced (System.start reported) deletesOwn := by
  refine exists_of_read (fun t => t.announced 1 1) 1 (by decide +kernel) fun t ht _ => ?_
  exact (deletions_announced_iff reported ht).mpr (by decide +kernel)

def actionsReport : List Action :=
  [.begin "a" (.updateReportStatus 1 .actioned 30) 5, .proceed "a", .proceed "a", .proceed "a",
    .proceed "a", .proceed "a", .commit "a" "e1"]

/-- The review is deleted, and nobody is told. -/
theorem deletion_unannounced : ∃ t,
    exec System.step (System.start reported) actionsReport = some t ∧
      deletedSince reported.reviews t.reviews 1 1 = true ∧ t.events.rows = [] ∧
        t.dispatched = [] ∧ ¬ EveryDeletionAnnounced (System.start reported) actionsReport := by
  refine exists_of_read
    (fun t => (deletedSince reported.reviews t.reviews 1 1, t.events.rows, t.dispatched))
    (true, [], []) (by decide +kernel) fun t ht hread => ?_
  obtain ⟨hdeleted, hrows, hdispatched⟩ : deletedSince reported.reviews t.reviews 1 1 = true ∧
      t.events.rows = [] ∧ t.dispatched = [] := by simpa using hread
  refine ⟨hdeleted, hrows, hdispatched, ?_⟩
  intro hall
  have hcount := (hall.1 actionsReport t (List.prefix_refl _) ht).rows 1 1
  rw [show (System.start reported).reviews = reported.reviews from rfl, hdeleted, System.written,
    hrows] at hcount
  cases hcount

end QuizBackend.Review.Deletion
