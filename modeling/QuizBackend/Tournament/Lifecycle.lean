import QuizBackend.Lib.Exclusive
import QuizBackend.Tournament.Effects

/-!
# No tournament ever starts

The life of a tournament is meant to lead from `upcoming` through `registration` and `ongoing` to
`finished`. The job that opens the registration, `dispatchStartingSoonNotifications`, passes over
tournaments without active participants; and participants come in through `registerForTournament`
only, which wants the registration to be open. So from an empty database no tournament gets a
participant and none leaves `upcoming`, except to be cancelled: `Stalled` is an invariant of every
run (`stalled_step`), and no run can be continued to a finished tournament (`never_completed`).
The last step of the way is blocked a second time: `finalizeDueTournaments` looks for tournaments
that are already `finished`.
-/

namespace QuizBackend.Tournament

open Lib Outbox

def Db.empty (users : Table Uuid Streak.UserRow Streak.UserRow.userId) : Db :=
  { attempt := .initial users (Table.empty _), tournaments := Table.empty _,
    rounds := Table.empty _, participants := Table.empty _ }

/-- The run can be continued so that the tournament goes through `registration` and `ongoing` to
`finished`, with a participant who has a rank. -/
def CanBeCompleted (cat : Catalog) (s : State) (tournamentId : Uuid) : Prop :=
  ∃ as s₁ bs s₂ cs s₃,
    exec (step cat) s as = some s₁ ∧ s₁.db.status tournamentId = some .registration ∧
    exec (step cat) s₁ bs = some s₂ ∧ s₂.db.status tournamentId = some .ongoing ∧
    exec (step cat) s₂ cs = some s₃ ∧ s₃.db.status tournamentId = some .finished ∧
    ∃ p ∈ s₃.db.participants.rows, p.tournamentId = tournamentId ∧ p.rankFinal ≠ none

/-! ## The invariant -/

def TournamentStatus.IsStalled (status : TournamentStatus) : Prop :=
  status = .upcoming ∨ status = .cancelled

/-- The request is not at a point that needs an open registration, a participant or a tournament
that has begun. -/
def Request.isStalled : Request → Bool
  | .enrol (.registerTx ..) => false
  | .cron (.dispatchMark ..) => false
  | .cron (.finalizeRank ..) => false
  | .cron (.finalizeCommit ..) => false
  | _ => true

/-- Nobody takes part, and no tournament has begun. -/
structure Stalled (s : State) : Prop where
  participants : s.db.participants.rows = []
  status : ∀ tournamentId status, s.db.status tournamentId = some status → status.IsStalled
  requests : ∀ r ∈ s.requests, r.isStalled = true

variable {r : Request} {w : Write}

section Invariant

variable {cat : Catalog} {s s' : State} {a : Action} {d : Drawn}

theorem isStalled_of_mayArrive {emitted : List Attempt.DomainEvent} (h : r.mayArrive emitted = true) :
    r.isStalled = true := by
  cases r with
  | enrol r => cases r <;> first | rfl | cases h
  | cron r => cases r <;> first | rfl | cases h
  | _ => rfl

section

variable (h : Stalled s)
include h

theorem Stalled.countParticipants (tournamentId : Uuid) :
    s.db.countParticipants tournamentId = 0 := by
  simp [Db.countParticipants, h.participants]

/-- The points a request comes to stay harmless: nobody reads an open registration, no job finds a
participant, and none finds a tournament under way. -/
theorem Stalled.request {r' : Request} (hr : r.isStalled = true)
    (hreach : Reaches cat s r r') : r'.isStalled = true := by
  cases hreach with
  | enrol hreach =>
    cases hreach with
    | registerTx found status =>
      have hstatus := h.status _ _ (status_of_getTournamentById found)
      rw [status] at hstatus
      rcases hstatus with hst | hst <;> cases hst
    | _ => rfl
  | @cron r r' hreach =>
    cases hreach with
    | plain hplain => cases r' <;> first | rfl | cases hplain
    | dispatchMark count => exact absurd (h.countParticipants _) count
    | finalizeRank free found =>
      have hstatus := h.status _ _ (status_of_markable found)
      rcases hstatus with hst | hst <;> cases hst
    | finalizeCommit => cases hr
  | _ => rfl

theorem Stalled.sets (hr : r.isStalled = true) (hw : Licensed s r w)
    {tournamentId : Uuid} {status : TournamentStatus} (hset : w.sets = some (tournamentId, status)) :
    status = .cancelled := by
  cases hw with
  | cancelTournament =>
    cases hset
    rfl
  | openRegistration | finalizeTournament => cases hr
  | startPlay free found =>
    rcases h.status _ _ (status_of_markable found) with hst | hst <;> cases hst
  | _ => cases hset

theorem Stalled.noParticipant (hr : r.isStalled = true) (hw : Licensed s r w) :
    (s.db.apply w).participants.rows = [] := by
  cases hw with
  | insertParticipant | reactivateParticipant | finalizeTournament => cases hr
  | withdrawParticipant request free present =>
    obtain ⟨t, -, hp⟩ := Option.bind_eq_some_iff.mp present
    rw [h.participants] at hp
    cases hp
  | @scoreRound score totals now =>
    cases totals with
    | none => exact h.participants
    | some totals => simp [Db.apply, Db.scoreRound, Table.modify, h.participants]
  | _ => exact h.participants

theorem Stalled.status_apply (hr : r.isStalled = true) (hw : Licensed s r w)
    (tournamentId : Uuid) (status : TournamentStatus)
    (hst : (s.db.apply w).status tournamentId = some status) : status.IsStalled := by
  rcases status_of_apply hw.fresh hst with hst | hset | ⟨row, rfl, rfl⟩
  · exact h.status _ _ hst
  · exact .inr (h.sets hr hw hset)
  · cases hw with
    | createTournament fresh upcoming checks => exact .inl upcoming

theorem stalled_step (hs : step cat s a = some s') : Stalled s' := by
  cases stepped_of_step hs with
  | arrive may =>
    exact ⟨h.participants, h.status, forall_mem_join h.requests (isStalled_of_mayArrive may)⟩
  | @advance i d r g request next =>
    have hr := h.requests r (List.mem_of_getElem? request)
    have hw := request_licensed next
    exact ⟨h.noParticipant hr hw, h.status_apply hr hw,
      forall_mem_set h.requests (h.request hr (request_reaches next))⟩
  | abort request => exact ⟨h.participants, h.status, forall_mem_set h.requests rfl⟩
  | attempt own next => exact ⟨h.participants, h.status, h.requests⟩

end

theorem stalled_empty (users : Table Uuid Streak.UserRow Streak.UserRow.userId) :
    Stalled (.initial (.empty users)) := by
  refine ⟨rfl, ?_, ?_⟩
  · intro tournamentId status hst
    cases hst
  · intro r hr
    cases hr

theorem Stalled.not_canBeCompleted (h : Stalled s) (tournamentId : Uuid) :
    ¬ CanBeCompleted cat s tournamentId := by
  rintro ⟨as, s₁, bs, s₂, cs, s₃, hrun, hopen, -⟩
  have hstalled := exec_invariant (fun _ _ _ hI hstep => stalled_step hI hstep) hrun h
  rcases hstalled.status _ _ hopen with hst | hst <;> cases hst

end Invariant

/-! ## Every run from an empty database -/

/-- Whatever has happened since the database was empty, no tournament can be completed any more. -/
theorem never_completed {cat : Catalog} {users : Table Uuid Streak.UserRow Streak.UserRow.userId}
    {as : List Action} {s : State} (hrun : exec (step cat) (.initial (.empty users)) as = some s)
    (tournamentId : Uuid) : ¬ CanBeCompleted cat s tournamentId := by
  have hstalled : Stalled s :=
    exec_invariant (fun _ _ _ hI hstep => stalled_step hI hstep) hrun (stalled_empty users)
  exact hstalled.not_canBeCompleted tournamentId

def created : List Action :=
  .arrive (.manage (.create organiser
    { title := "Cup", description := none, difficulty := .easy, prize := none, startAt := 1000,
      endAt := 2000, maxParticipants := none, categoryId := none } 0)) :: runs 0 2 1

theorem never_completed_when_created : ∃ s,
    exec (step cupCatalog) (.initial (.empty accounts)) created = some s ∧
      ¬ CanBeCompleted cupCatalog s (Attempt.attemptNo 1) := by
  obtain ⟨s, hs⟩ : ∃ s, exec (step cupCatalog) (.initial (.empty accounts)) created = some s :=
    Option.isSome_iff_exists.mp (by decide +kernel)
  exact ⟨s, hs, never_completed hs _⟩

/-- The tournament is there, upcoming, neither cancelled nor deleted, and starts in the future; it
cannot be completed. -/
theorem stuck_once_created : ∃ s,
    exec (step cupCatalog) (.initial (.empty accounts)) created = some s ∧
      (∃ t, s.db.getTournamentById (Attempt.attemptNo 1) = some t ∧ t.status = .upcoming ∧
        0 < t.startAt) ∧
      ¬ CanBeCompleted cupCatalog s (Attempt.attemptNo 1) := by
  obtain ⟨s, hs, hread⟩ : ∃ s,
      exec (step cupCatalog) (.initial (.empty accounts)) created = some s ∧
        (s.db.getTournamentById (Attempt.attemptNo 1)).map (fun t => (t.status, t.startAt))
          = some (.upcoming, 1000) := by
    refine Option.map_eq_some_iff.mp ?_
    decide +kernel
  obtain ⟨t, ht, heq⟩ := Option.map_eq_some_iff.mp hread
  obtain ⟨hstatus, hstart⟩ := Prod.mk.inj heq
  refine ⟨s, hs, ⟨t, ht, hstatus, by omega⟩, ?_⟩
  have hstalled : Stalled s :=
    exec_invariant (fun _ _ _ hI hstep => stalled_step hI hstep) hs (stalled_empty accounts)
  exact hstalled.not_canBeCompleted _

end QuizBackend.Tournament
