import QuizBackend.DailyChallenge.Recording

/-!
# Answers are recorded once

Submissions of one user that overlap should come out as if they had come one after another: the
recorded answers grow by one answer for each submission that returns, the challenge is completed and
rewarded once, and what is announced is committed. Two things break this.

* Before there is an attempt, `SELECT … FOR UPDATE` locks nothing. Two first answers both find none,
  and the upsert of the second overwrites the attempt of the first, or the attempt of all that have
  answered since. Of a challenge with one question both announce that it is completed.
* The event is dispatched before the commit, so a transaction that is aborted after it has announced
  what never happened.

Nothing else does (`answers_recorded_once`): where a submission that has found no attempt announces or
commits only while there still is none, and no transaction is aborted after its event, the run is
right; and a run in which one of these happens is not.
-/

namespace QuizBackend.DailyChallenge

open Lib Table Submission
open Attempt (QuestionJoinRow)
open Outbox (OutboxEvents OutboxRow NewEvent)
open List (length_append map_append mem_append_left mem_singleton not_mem_nil range')

/-! ## What should hold -/

def IsXp (ch : Challenge) (row : OutboxRow) : Prop :=
  row.eventType = "daily_challenge.xp_to_publish" ∧
    row.idempotencyKey = some (xpIdempotencyKey ch.userId ch.row.challengeId)

instance (ch : Challenge) (row : OutboxRow) : Decidable (IsXp ch row) :=
  inferInstanceAs (Decidable (_ ∧ _))

def returned (answers : List (String × Except DailyChallengeError DailyChallengeAnswerResponseDto)) :
    List DailyChallengeAnswerResponseDto :=
  answers.filterMap fun x => x.2.toOption

namespace System

def nextIndex (s : System) : Nat := s.attempt.elim 0 (·.nextQuestionIndex)

def recorded (s : System) : List String := s.attempt.elim [] (·.answers)

def Committing (s : System) (callId : String) : Prop :=
  ∃ c ∈ s.calls.rows, c.callId = callId ∧ c.committing = true

def callOf (s : System) : Act → Option Submission
  | .begin .. | .process .. => none
  | .lock callId | .write callId _ | .announce callId | .schedule callId _ _ | .commit callId
  | .abort callId => s.calls.find? callId

end System

/-- What was answered is what is recorded, in order, with one XP event at most. -/
structure Recorded (ch : Challenge) (s : System) : Prop where
  index : s.nextIndex = s.recorded.length
  numbered : (returned s.answers).map (·.nextQuestionIndex) = range' 1 s.nextIndex
  once : s.emitted.length ≤ 1
  xpOnce : s.outbox.rows.countP (fun row => IsXp ch row) ≤ 1
  commits : ∀ e ∈ s.emitted, s.Committing e.1 ∨
    ∃ r, (e.1, .ok r) ∈ s.answers ∧ r.completed = true

/-- A step records what it answers. -/
structure Records (s : System) (a : Act) (s' : System) : Prop where
  throws : returned s'.answers = returned s.answers →
    s'.attempt = s.attempt ∧ s'.outbox.rows.map (·.eventId) = s.outbox.rows.map (·.eventId)
  returns : returned s'.answers ≠ returned s.answers →
    ∃ c, s.callOf a = some c ∧ s'.recorded = s.recorded ++ [c.recorded]

/-- Who has found no attempt goes on only while there is none, and who has announced commits. -/
def Serial (s : System) : Act → Prop
  | .announce callId | .commit callId =>
    ∀ c, s.calls.find? callId = some c → c.read = none → s.attempt = none
  | .abort callId => ∀ c, s.calls.find? callId = some c → c.committing = false
  | .begin .. | .lock _ | .write .. | .schedule .. | .process .. => True

instance (s : System) (a : Act) : Decidable (Serial s a) :=
  match a with
  | .announce callId | .commit callId =>
    decidableOfFind (s.calls.find? callId) fun c => c.read = none → s.attempt = none
  | .abort callId => decidableOfFind (s.calls.find? callId) fun c => c.committing = false
  | .begin .. | .lock _ | .write .. | .schedule .. | .process .. => .isTrue trivial

/-! ## Locks -/

structure SubmissionOk (ch : Challenge) (s : System) (c : Submission) : Prop where
  fresh : ∀ result, (c.callId, result) ∉ s.answers
  current : ∀ r, c.read = some r → s.attempt = some r
  prepared : ∀ p, c.prepared = some p →
    answered ch.row ch.getQuestionByPosition p.read c.payload = .ok p.answered ∧
      p.written.answers = p.answered.nextAnswers ∧
      p.written.nextQuestionIndex = p.answered.nextQuestionIndex
  announced : ∀ p, c.prepared = some p → c.committing = true →
    p.answered.completed = true ∧ c.callId ∈ s.emitted.map Prod.fst
  scheduled : ∀ p event, c.phase = .scheduled p (some event) → IsXp ch event.row

structure Inv (ch : Challenge) (s : System) : Prop where
  calls : ∀ c ∈ s.calls.rows, SubmissionOk ch s c
  exclusive : ∀ c ∈ s.calls.rows, ∀ c' ∈ s.calls.rows, c.holds = true → c'.holds = true → c = c'
  attempt : ∀ r, s.attempt = some r → 1 ≤ r.nextQuestionIndex ∧
    r.nextQuestionIndex = r.answers.length
  responses : ∀ r ∈ returned s.answers, r.nextQuestionIndex ≤ ch.row.totalQuestions ∧
    r.completed = decide (ch.row.totalQuestions ≤ r.nextQuestionIndex)
  emitted : ∀ callId r, (callId, .ok r) ∈ s.answers → r.completed = true →
    callId ∈ s.emitted.map Prod.fst
  xp : s.outbox.rows.countP (fun row => IsXp ch row)
    ≤ (returned s.answers).countP (·.completed)

section Submissions

variable {c : Submission}

theorem Submission.holds_of_read {r : DailyChallengeAttemptRow} (h : c.read = some r) :
    c.holds = true := by
  obtain ⟨callId, payload, phase⟩ := c
  cases phase with
  | begun => cases h
  | locked read => exact Option.isSome_of_eq_some h
  | written p => rfl
  | announced p => rfl
  | scheduled p event => rfl

theorem Submission.holds_of_committing (h : c.committing = true) : c.holds = true := by
  obtain ⟨callId, payload, phase⟩ := c
  cases phase with
  | begun => cases h
  | locked read => cases h
  | written p => cases h
  | announced p => rfl
  | scheduled p event => rfl

end Submissions

variable {phase : Phase} {callId : String} {p : Prepared}

section Steps

variable {ch : Challenge} {s s' : System}

theorem Inv.start {outbox : OutboxEvents} (h : ∀ row ∈ outbox.rows, ¬ IsXp ch row) :
    Inv ch (System.start outbox) where
  calls := fun _ hc => absurd hc not_mem_nil
  exclusive := fun _ hc => absurd hc not_mem_nil
  attempt := fun _ hr => by cases hr
  responses := fun _ hr => absurd hr not_mem_nil
  emitted := fun _ _ hr => absurd hr not_mem_nil
  xp := by
    have hnone : outbox.rows.countP (fun row => IsXp ch row) = 0 :=
      List.countP_eq_zero.mpr fun row hrow => by simpa using h row hrow
    exact Nat.le_of_eq hnone

theorem Recorded.start {outbox : OutboxEvents} (h : ∀ row ∈ outbox.rows, ¬ IsXp ch row) :
    Recorded ch (System.start outbox) where
  index := rfl
  numbered := rfl
  once := Nat.zero_le _
  xpOnce := (Inv.start h).xp.trans (Nat.zero_le _)
  commits := fun _ he => absurd he not_mem_nil

theorem returned_snoc_error
    (answers : List (String × Except DailyChallengeError DailyChallengeAnswerResponseDto))
    (callId : String) (e : DailyChallengeError) :
    returned (answers ++ [(callId, .error e)]) = returned answers := by
  simp [returned, Except.toOption]

theorem returned_snoc_ok
    (answers : List (String × Except DailyChallengeError DailyChallengeAnswerResponseDto))
    (callId : String) (r : DailyChallengeAnswerResponseDto) :
    returned (answers ++ [(callId, .ok r)]) = returned answers ++ [r] := by
  simp [returned, Except.toOption]

theorem mem_returned
    {answers : List (String × Except DailyChallengeError DailyChallengeAnswerResponseDto)}
    {r : DailyChallengeAnswerResponseDto} :
    r ∈ returned answers ↔ ∃ callId, (callId, .ok r) ∈ answers := by
  simp only [returned, List.mem_filterMap]
  constructor
  · rintro ⟨⟨callId, result⟩, hmem, hr⟩
    cases result with
    | error e => cases hr
    | ok x =>
      cases hr
      exact ⟨callId, hmem⟩
  · rintro ⟨callId, hmem⟩
    exact ⟨_, hmem, rfl⟩

/-! ## What a step leaves alone -/

structure Quiet (ch : Challenge) (s s' : System) : Prop where
  attempt : s'.attempt = s.attempt
  returned : returned s'.answers = returned s.answers
  answers : ∀ x ∈ s.answers, x ∈ s'.answers
  emitted : s'.emitted = s.emitted
  eventIds : s'.outbox.rows.map (·.eventId) = s.outbox.rows.map (·.eventId)
  xp : s'.outbox.rows.countP (fun row => IsXp ch row)
    = s.outbox.rows.countP (fun row => IsXp ch row)
  committing : ∀ callId, s.Committing callId → s'.Committing callId

theorem Quiet.recorded (h : Quiet ch s s') (hp : Recorded ch s) : Recorded ch s' where
  index := by
    unfold System.nextIndex System.recorded
    rw [h.attempt]
    exact hp.index
  numbered := by
    unfold System.nextIndex
    rw [h.returned, h.attempt]
    exact hp.numbered
  once := by
    rw [h.emitted]
    exact hp.once
  xpOnce := by
    rw [h.xp]
    exact hp.xpOnce
  commits := by
    intro e he
    rw [h.emitted] at he
    rcases hp.commits e he with hopen | ⟨r, hr, hcompleted⟩
    · exact .inl (h.committing e.1 hopen)
    · exact .inr ⟨r, h.answers _ hr, hcompleted⟩

theorem Quiet.records (h : Quiet ch s s') (a : Act) : Records s a s' where
  throws := fun _ => ⟨h.attempt, h.eventIds⟩
  returns := fun hne => absurd h.returned hne

theorem committing_advance {c : Submission} (hc : s.calls.find? c.callId = some c)
    (hphase : c.committing = true → ({ c with phase } : Submission).committing = true)
    (h : s.Committing callId) : (s.advance c.callId phase).Committing callId := by
  obtain ⟨x, hx, rfl, hcommitting⟩ := h
  by_cases hxc : x.callId = c.callId
  · obtain rfl := eq_of_key_eq hx (mem_of_find? hc) hxc
    have hgoes : (s.calls.modify x.callId (fun c => { c with phase }) fun _ => rfl).find? x.callId
        = some { x with phase } := find?_modify_self hc
    exact ⟨{ x with phase }, mem_of_find? hgoes, rfl, hphase hcommitting⟩
  · have hstays : x ∈ (s.calls.modify c.callId (fun c => { c with phase }) fun _ => rfl).rows :=
      mem_modify.mpr ⟨x, hx, if_neg hxc⟩
    exact ⟨x, hstays, rfl, hcommitting⟩

theorem Quiet.advance {c : Submission} (hc : s.calls.find? c.callId = some c)
    (hphase : c.committing = true → ({ c with phase } : Submission).committing = true) :
    Quiet ch s (s.advance c.callId phase) :=
  ⟨rfl, rfl, fun _ hx => hx, rfl, rfl, rfl, fun _ h => committing_advance hc hphase h⟩

theorem Quiet.throw {c : Submission} (hc : s.calls.find? c.callId = some c)
    (hcommitting : c.committing = false) (e : DailyChallengeError) :
    Quiet ch s (s.answer c.callId (.error e)) := by
  refine ⟨rfl, returned_snoc_error s.answers c.callId e, fun x hx => mem_append_left _ hx, rfl,
    rfl, rfl, ?_⟩
  rintro callId ⟨x, hx, rfl, hopen⟩
  refine ⟨x, mem_erase.mpr ⟨hx, ?_⟩, rfl, hopen⟩
  intro hsame
  obtain rfl := eq_of_key_eq hx (mem_of_find? hc) hsame
  rw [hcommitting] at hopen
  cases hopen

/-! ## The invariant -/

theorem SubmissionOk.mono {c : Submission} (h : SubmissionOk ch s c)
    (hfresh : ∀ result, (c.callId, result) ∉ s'.answers)
    (hattempt : c.holds = true → s'.attempt = s.attempt)
    (hemitted : ∀ id ∈ s.emitted.map Prod.fst, id ∈ s'.emitted.map Prod.fst) :
    SubmissionOk ch s' c := by
  refine ⟨hfresh, ?_, h.prepared, ?_, h.scheduled⟩
  · intro r hr
    rw [hattempt (holds_of_read hr)]
    exact h.current r hr
  · intro p hp hcommitting
    obtain ⟨hcompleted, hannounced⟩ := h.announced p hp hcommitting
    exact ⟨hcompleted, hemitted _ hannounced⟩

theorem SubmissionOk.unprepared {c : Submission} (hfresh : ∀ result, (c.callId, result) ∉ s.answers)
    (hcurrent : ∀ r, c.read = some r → s.attempt = some r) (hnone : c.prepared = none) :
    SubmissionOk ch s c := by
  refine ⟨hfresh, hcurrent, ?_, ?_, ?_⟩
  · intro p hp
    rw [hnone] at hp
    cases hp
  · intro p hp
    rw [hnone] at hp
    cases hp
  · intro p event hphase
    simp only [Submission.prepared, hphase] at hnone
    cases hnone

theorem Inv.advance (h : Inv ch s) {c : Submission} (hc : s.calls.find? c.callId = some c)
    {emitted : List (String × DailyChallengeCompletedEvent)}
    (hemitted : ∀ id ∈ s.emitted.map Prod.fst, id ∈ emitted.map Prod.fst)
    (hok : SubmissionOk ch { s.advance c.callId phase with emitted } { c with phase })
    (hfree : ({ c with phase } : Submission).holds = true → c.holds = true ∨ ∀ x ∈ s.calls.rows,
      x.callId ≠ c.callId → x.holds = false) :
    Inv ch { s.advance c.callId phase with emitted } := by
  have hcases : ∀ x ∈ (s.advance c.callId phase).calls.rows,
      x = { c with phase } ∨ (x ∈ s.calls.rows ∧ x.callId ≠ c.callId) := by
    intro x hx
    have hmodified :
      x ∈ (s.calls.modify c.callId (fun c => { c with phase }) fun _ => rfl).rows := hx
    exact mem_modify_cases hc hmodified
  -- nobody else holds what this submission comes to hold
  have hother : ({ c with phase } : Submission).holds = true →
      ∀ x ∈ s.calls.rows, x.callId ≠ c.callId → x.holds = true → False := by
    intro hholds x hx hne hxholds
    rcases hfree hholds with hheld | hfree
    · exact hne (congrArg _ (h.exclusive x hx c (mem_of_find? hc) hxholds hheld))
    · rw [hfree x hx hne] at hxholds
      cases hxholds
  refine ⟨?_, ?_, h.attempt, h.responses, ?_, h.xp⟩
  · intro x hx
    rcases hcases x hx with rfl | ⟨hx, -⟩
    · exact hok
    · exact (h.calls x hx).mono (h.calls x hx).fresh (fun _ => rfl) hemitted
  · intro x hx y hy hxholds hyholds
    rcases hcases x hx with rfl | ⟨hx, hxne⟩
    · rcases hcases y hy with rfl | ⟨hy, hyne⟩
      · rfl
      · exact absurd hyholds (hother hxholds y hy hyne)
    · rcases hcases y hy with rfl | ⟨hy, -⟩
      · exact absurd hxholds (hother hyholds x hx hxne)
      · exact h.exclusive x hx y hy hxholds hyholds
  · intro callId r hr hcompleted
    exact hemitted callId (h.emitted callId r hr hcompleted)

theorem Inv.advance_silent (h : Inv ch s) {c : Submission} (hc : s.calls.find? c.callId = some c)
    (hok : SubmissionOk ch (s.advance c.callId phase) { c with phase })
    (hfree : ({ c with phase } : Submission).holds = true → c.holds = true ∨ ∀ x ∈ s.calls.rows,
      x.callId ≠ c.callId → x.holds = false) :
    Inv ch (s.advance c.callId phase) := by
  have hsame : Inv ch { s.advance c.callId phase with emitted := s.emitted } :=
    h.advance hc (fun _ hid => hid) hok hfree
  exact hsame

theorem Inv.throw (h : Inv ch s) (e : DailyChallengeError) :
    Inv ch (s.answer callId (.error e)) := by
  have hok : ∀ id r, (id, .ok r) ∈ (s.answer callId (.error e)).answers → (id, .ok r) ∈ s.answers := by
    intro id r hr
    rcases List.mem_append.mp hr with hr | hr
    · exact hr
    · cases mem_singleton.mp hr
  refine ⟨?_, ?_, h.attempt, ?_, fun id r hr => h.emitted id r (hok id r hr), ?_⟩
  · intro c hc
    obtain ⟨hc, hne⟩ := mem_erase.mp hc
    refine (h.calls c hc).mono ?_ (fun _ => rfl) fun _ hid => hid
    intro result hresult
    rcases List.mem_append.mp hresult with hresult | hresult
    · exact (h.calls c hc).fresh result hresult
    · exact hne (congrArg Prod.fst (mem_singleton.mp hresult))
  · intro c hc c' hc'
    exact h.exclusive c (mem_erase.mp hc).1 c' (mem_erase.mp hc').1
  · intro r hr
    obtain ⟨id, hid⟩ := mem_returned.mp hr
    exact h.responses r (mem_returned.mpr ⟨id, hok id r hid⟩)
  · show s.outbox.rows.countP _ ≤ (returned (s.answers ++ [(callId, .error e)])).countP _
    rw [returned_snoc_error]
    exact h.xp

/-! ## Steps before the commit -/

theorem not_heldByOther_iff :
    s.heldByOther callId = false ↔
      ∀ c ∈ s.calls.rows, c.callId ≠ callId → c.holds = false := by
  simp [System.heldByOther]

def Good (ch : Challenge) (s : System) (a : Act) (s' : System) : Prop :=
  Inv ch s' ∧ (Recorded ch s → (Serial s a ↔ Recorded ch s' ∧ Records s a s'))

theorem Quiet.good (h : Quiet ch s s') {a : Act} (hinv : Inv ch s') (hserial : Serial s a) :
    Good ch s a s' :=
  ⟨hinv, fun hp => iff_of_true hserial ⟨h.recorded hp, h.records a⟩⟩

section

variable (h : Inv ch s)
include h

theorem begin_step {payload : DailyChallengeAnswerDto}
    (hstep : s.begin callId payload = some s') : Good ch s (.begin callId payload) s' := by
  unfold System.begin at hstep
  split at hstep
  · cases hstep
  · next hnew =>
    obtain ⟨calls, hinsert, rfl⟩ := Option.map_eq_some_iff.mp hstep
    have hrows := rows_of_insert? hinsert
    have hcases : ∀ c ∈ calls.rows, c ∈ s.calls.rows ∨ c = ⟨callId, payload, .begun⟩ := by
      intro c hc
      rw [hrows, List.mem_append, mem_singleton] at hc
      exact hc
    have hfresh : ∀ result, (callId, result) ∉ s.answers := by
      intro result hresult
      exact hnew (List.any_eq_true.mpr ⟨_, hresult, decide_eq_true rfl⟩)
    have hquiet : Quiet ch s { s with calls } := by
      refine ⟨rfl, rfl, fun _ hx => hx, rfl, rfl, rfl, ?_⟩
      rintro id ⟨c, hc, hid, hcommitting⟩
      refine ⟨c, ?_, hid, hcommitting⟩
      rw [hrows]
      exact mem_append_left _ hc
    refine hquiet.good ?_ trivial
    · refine ⟨?_, ?_, h.attempt, h.responses, h.emitted, h.xp⟩
      · intro c hc
        rcases hcases c hc with hc | rfl
        · exact (h.calls c hc).mono (h.calls c hc).fresh (fun _ => rfl) fun _ hid => hid
        · exact .unprepared hfresh (fun _ hr => by cases hr) rfl
      · intro c hc c' hc' hholds hholds'
        rcases hcases c hc with hc | rfl
        · rcases hcases c' hc' with hc' | rfl
          · exact h.exclusive c hc c' hc' hholds hholds'
          · cases hholds'
        · cases hholds

theorem lock_step {c : Submission} (hc : s.calls.find? c.callId = some c)
    (hstep : s.lock c = some s') : Good ch s (.lock c.callId) s' := by
  obtain ⟨callId, payload, phase⟩ := c
  cases phase with
  | begun =>
    simp only [System.lock] at hstep
    split at hstep
    · cases hstep
    · next hfree =>
      cases hstep
      have hok := h.calls _ (mem_of_find? hc)
      refine (Quiet.advance hc fun hcommitting => by cases hcommitting).good ?_ trivial
      refine h.advance_silent hc ?_ ?_
      · exact .unprepared hok.fresh (fun _ hr => hr) rfl
      · intro hholds
        rw [Bool.and_eq_true, not_and, Bool.not_eq_true] at hfree
        exact .inr (not_heldByOther_iff.mp (hfree hholds))
  | locked read => cases hstep
  | written p => cases hstep
  | announced p => cases hstep
  | scheduled p event => cases hstep

theorem write_step {c : Submission} (hc : s.calls.find? c.callId = some c)
    {nowIso : Int} (hstep : s.write ch c nowIso = some s') :
    Good ch s (.write c.callId nowIso) s' := by
  obtain ⟨callId, payload, phase⟩ := c
  cases phase with
  | locked read =>
    simp only [System.write] at hstep
    split at hstep
    · cases hstep
      exact (Quiet.throw hc rfl _).good (h.throw _) trivial
    · next a hanswered =>
      split at hstep
      · cases hstep
      · next hfree =>
        cases hstep
        have hok := h.calls _ (mem_of_find? hc)
        refine (Quiet.advance hc fun hcommitting => by cases hcommitting).good ?_ trivial
        refine h.advance_silent hc ?_ fun _ => .inr ?_
        · refine ⟨hok.fresh, hok.current, ?_, (fun _ _ hcommitting => by cases hcommitting),
            fun _ _ hphase => Phase.noConfusion hphase⟩
          intro p hp
          cases hp
          exact ⟨hanswered, rfl, rfl⟩
        · exact not_heldByOther_iff.mp (Bool.not_eq_true _ ▸ hfree)
  | begun => cases hstep
  | written p => cases hstep
  | announced p => cases hstep
  | scheduled p event => cases hstep

theorem schedule_step {c : Submission} (hc : s.calls.find? c.callId = some c)
    {eventId correlationId : String} (hstep : s.schedule ch c eventId correlationId = some s') :
    Good ch s (.schedule c.callId eventId correlationId) s' := by
  obtain ⟨callId, payload, phase⟩ := c
  cases phase with
  | announced p =>
    simp only [System.schedule] at hstep
    split at hstep
    · cases hstep
      have hok := h.calls _ (mem_of_find? hc)
      refine (Quiet.advance hc fun _ => rfl).good ?_ trivial
      refine h.advance_silent hc ?_ fun _ => .inl rfl
      refine ⟨hok.fresh, hok.current, hok.prepared, hok.announced, ?_⟩
      intro p' event hphase
      have hinserted := (Phase.scheduled.inj hphase).2
      split at hinserted
      · cases hinserted
      · cases hinserted
        exact ⟨rfl, rfl⟩
    · cases hstep
  | begun => cases hstep
  | locked read => cases hstep
  | written p => cases hstep
  | scheduled p event => cases hstep

theorem process_step (eventId : String) (nowIso : Int) :
    Good ch s (.process eventId nowIso)
      { s with outbox := s.outbox.modify eventId (markProcessed nowIso) fun _ => rfl } := by
  have hxp : (s.outbox.modify eventId (markProcessed nowIso) fun _ => rfl).rows.countP
      (fun row => IsXp ch row) = s.outbox.rows.countP (fun row => IsXp ch row) :=
    countP_modify_of_eq s.outbox eventId fun _ => rfl
  have hids : (s.outbox.modify eventId (markProcessed nowIso) fun _ => rfl).rows.map (·.eventId)
      = s.outbox.rows.map (·.eventId) := map_key_modify s.outbox eventId
  have hquiet : Quiet ch s
      { s with outbox := s.outbox.modify eventId (markProcessed nowIso) fun _ => rfl } :=
    ⟨rfl, rfl, fun _ hx => hx, rfl, hids, hxp, fun _ hopen => hopen⟩
  refine hquiet.good ⟨?_, h.exclusive, h.attempt, h.responses, h.emitted, ?_⟩ trivial
  · intro c hc
    exact (h.calls c hc).mono (h.calls c hc).fresh (fun _ => rfl) fun _ hid => hid
  · exact le_of_eq_of_le hxp h.xp

end

/-! ## The steps that can go wrong -/

theorem Submission.read_of_prepared {c : Submission} (h : c.prepared = some p) :
    c.read = p.read ∧ c.holds = true := by
  obtain ⟨callId, payload, phase⟩ := c
  cases phase with
  | begun => cases h
  | locked read => cases h
  | written p => cases h; exact ⟨rfl, rfl⟩
  | announced p => cases h; exact ⟨rfl, rfl⟩
  | scheduled p event => cases h; exact ⟨rfl, rfl⟩

theorem SubmissionOk.written {c : Submission} (h : SubmissionOk ch s c) (hp : c.prepared = some p) :
    c.read.elim 0 (·.nextQuestionIndex) < ch.row.totalQuestions ∧
      p.answered.nextQuestionIndex = c.read.elim 0 (·.nextQuestionIndex) + 1 ∧
      p.answered.completed = decide (ch.row.totalQuestions ≤ p.answered.nextQuestionIndex) ∧
      p.written.nextQuestionIndex = c.read.elim 0 (·.nextQuestionIndex) + 1 ∧
      p.written.answers = buildNextAnswers (c.read.elim [] (·.answers))
        (c.read.elim 0 (·.nextQuestionIndex)) c.payload.selectedOptionId := by
  obtain ⟨hanswered, hanswers, hindex⟩ := h.prepared p hp
  rw [(read_of_prepared hp).1]
  obtain ⟨question, -, hfound, hnext, hnextIndex, hcompleted⟩ := answered_eq_ok hanswered
  refine ⟨(ch.lookup _).mp (by rw [hfound]; rfl), hnextIndex, hcompleted, ?_, ?_⟩
  · rw [hindex, hnextIndex]
  · rw [hanswers, hnext]

theorem Inv.written_answers (h : Inv ch s) {c : Submission} (hc : c ∈ s.calls.rows)
    (hp : c.prepared = some p) :
    p.written.answers = c.read.elim [] (·.answers) ++ [c.recorded] ∧
      p.written.nextQuestionIndex = p.written.answers.length := by
  obtain ⟨-, -, -, hindex, hanswers⟩ := (h.calls c hc).written hp
  have hlength : c.read.elim 0 (·.nextQuestionIndex) = (c.read.elim [] (·.answers)).length := by
    cases hread : c.read with
    | none => rfl
    | some r => exact (h.attempt r ((h.calls c hc).current r hread)).2
  rw [hlength, buildNextAnswers_length] at hanswers
  refine ⟨hanswers, ?_⟩
  rw [hindex, hanswers, hlength, length_append, List.length_singleton]

theorem Inv.xpOnce (h : Inv ch s)
    (hnumbered : (returned s.answers).map (·.nextQuestionIndex) = range' 1 s.nextIndex) :
    s.outbox.rows.countP (fun row => IsXp ch row) ≤ 1 := by
  refine h.xp.trans ?_
  have hlast : (returned s.answers).countP (·.completed)
      = ((returned s.answers).map (·.nextQuestionIndex)).countP
        (fun i => decide (i = ch.row.totalQuestions)) := by
    rw [List.countP_map]
    refine List.countP_congr fun r hr => ?_
    obtain ⟨hle, hcompleted⟩ := h.responses r hr
    rw [hcompleted, Function.comp_apply, decide_eq_true_iff, decide_eq_true_iff]
    omega
  rw [hlast, hnumbered]
  exact List.nodup_iff_count_le_one.mp List.nodup_range' ch.row.totalQuestions

theorem Recorded.le_nextIndex (hp : Recorded ch s) {r : DailyChallengeAnswerResponseDto}
    (hr : r ∈ returned s.answers) : r.nextQuestionIndex ≤ s.nextIndex := by
  have hmem : r.nextQuestionIndex ∈ range' 1 s.nextIndex :=
    hp.numbered ▸ List.mem_map_of_mem hr
  have hrange := List.mem_range'_1.mp hmem
  omega

theorem Recorded.first (hp : Recorded ch s) (h : Inv ch s) {r : DailyChallengeAttemptRow}
    (hr : s.attempt = some r) : ∃ x ∈ returned s.answers, x.nextQuestionIndex = 1 := by
  have hpositive := (h.attempt r hr).1
  have hindex : s.nextIndex = r.nextQuestionIndex := by
    unfold System.nextIndex
    rw [hr, Option.elim_some]
  have hmem : 1 ∈ (returned s.answers).map (·.nextQuestionIndex) := by
    rw [hp.numbered]
    exact List.mem_range'_1.mpr ⟨le_refl 1, by omega⟩
  exact List.mem_map.mp hmem

theorem SubmissionOk.read_eq {c : Submission} (h : SubmissionOk ch s c)
    (hcurrent : c.read = none → s.attempt = none) : c.read = s.attempt := by
  cases hread : c.read with
  | none => exact (hcurrent hread).symm
  | some r => exact (h.current r hread).symm

theorem announce_cases {c : Submission} (h : s.announce ch c = some s') :
    ∃ p event, c.phase = .written p ∧ p.answered.completed = true ∧
      s' = { s.advance c.callId (.announced p) with emitted := s.emitted ++ [(c.callId, event)] } := by
  obtain ⟨callId, payload, phase⟩ := c
  cases phase with
  | written p =>
    simp only [System.announce] at h
    split at h
    · next hcompleted =>
      cases h
      exact ⟨p, _, rfl, hcompleted, rfl⟩
    · cases h
  | begun => cases h
  | locked read => cases h
  | announced p => cases h
  | scheduled p event => cases h

theorem Inv.emitted_eq_nil (h : Inv ch s) (hp : Recorded ch s) {c : Submission}
    (hc : s.calls.find? c.callId = some c) (hphase : c.phase = .written p)
    (hcurrent : c.read = none → s.attempt = none) : s.emitted = [] := by
  have hmem := mem_of_find? hc
  have hprepared : c.prepared = some p := by
    simp only [prepared, hphase]
  obtain ⟨hlt, -⟩ := (h.calls c hmem).written hprepared
  rw [(h.calls c hmem).read_eq hcurrent] at hlt
  refine List.eq_nil_iff_forall_not_mem.mpr ?_
  intro e he
  rcases hp.commits e he with ⟨x, hx, -, hcommitting⟩ | ⟨r, hr, hcompleted⟩
  · -- two transactions would hold the row
    obtain rfl := h.exclusive x hx c hmem (holds_of_committing hcommitting)
      (read_of_prepared hprepared).2
    simp only [committing, hphase] at hcommitting
    cases hcommitting
  · -- or the last question would have been answered
    have hmemr : r ∈ returned s.answers := mem_returned.mpr ⟨_, hr⟩
    have hlast := (h.responses r hmemr).2
    rw [hcompleted, eq_comm, decide_eq_true_iff] at hlast
    have hle := hp.le_nextIndex hmemr
    unfold System.nextIndex at hle
    omega

theorem announce_step (h : Inv ch s) {c : Submission} (hc : s.calls.find? c.callId = some c)
    (hstep : s.announce ch c = some s') : Good ch s (.announce c.callId) s' := by
  obtain ⟨p, event, hphase, hcompleted, rfl⟩ := announce_cases hstep
  have hmem := mem_of_find? hc
  have hok := h.calls c hmem
  have hprepared : c.prepared = some p := by
    simp only [prepared, hphase]
  have hids : ∀ id ∈ s.emitted.map Prod.fst,
      id ∈ (s.emitted ++ [(c.callId, event)]).map Prod.fst := by
    intro id hid
    rw [map_append]
    exact mem_append_left _ hid
  refine ⟨?_, ?_⟩
  · refine h.advance hc hids ?_ fun _ => .inl (read_of_prepared hprepared).2
    refine ⟨hok.fresh, ?_, ?_, ?_, fun _ _ hphase => Phase.noConfusion hphase⟩
    · intro r hr
      refine hok.current r ?_
      rw [(read_of_prepared hprepared).1]
      exact hr
    · intro p' hp'
      cases hp'
      exact hok.prepared p hprepared
    · intro p' hp' _
      cases hp'
      refine ⟨hcompleted, ?_⟩
      rw [map_append]
      exact List.mem_append_right _ (mem_singleton.mpr rfl)
  · intro hp
    have hopen : ∀ id, s.Committing id → (s.advance c.callId (.announced p)).Committing id :=
      fun id hid => committing_advance hc (fun _ => rfl) hid
    constructor
    · intro hserial
      have hnil := h.emitted_eq_nil hp hc hphase (hserial c hc)
      refine ⟨⟨hp.index, hp.numbered, ?_, hp.xpOnce, ?_⟩, fun _ => ⟨rfl, rfl⟩, fun hne => absurd rfl hne⟩
      · show (s.emitted ++ [(c.callId, event)]).length ≤ 1
        rw [hnil]
        exact le_refl 1
      · intro e he
        rcases List.mem_append.mp he with he | he
        · rw [hnil] at he
          exact absurd he not_mem_nil
        · rw [mem_singleton.mp he]
          have hgoes : (s.calls.modify c.callId (fun c => { c with phase := .announced p })
              fun _ => rfl).find? c.callId = some { c with phase := .announced p } :=
            find?_modify_self hc
          exact .inl ⟨_, mem_of_find? hgoes, rfl, rfl⟩
    · rintro ⟨hp', -⟩ x hx hnone
      rw [hc, Option.some.injEq] at hx
      subst hx
      -- of one question, and there is an attempt: somebody has completed and announced it
      by_contra hsome
      obtain ⟨r, hr⟩ := Option.ne_none_iff_exists'.mp hsome
      obtain ⟨-, hindex, hlast, -, -⟩ := hok.written hprepared
      rw [hcompleted, hindex, hnone, eq_comm, decide_eq_true_iff, Option.elim_none] at hlast
      obtain ⟨first, hfirst, hone⟩ := hp.first h hr
      obtain ⟨id, hid⟩ := mem_returned.mp hfirst
      have hcompletedFirst : first.completed = true := by
        rw [(h.responses first hfirst).2, hone, decide_eq_true_iff]
        exact hlast
      have hannounced := List.length_pos_of_mem (h.emitted id first hid hcompletedFirst)
      rw [List.length_map] at hannounced
      have honce : (s.emitted ++ [(c.callId, event)]).length ≤ 1 := hp'.once
      rw [length_append, List.length_singleton] at honce
      omega

theorem abort_step (h : Inv ch s) {c : Submission} (hc : s.calls.find? c.callId = some c) :
    Good ch s (.abort c.callId) (s.answer c.callId (.error .database)) := by
  refine ⟨h.throw _, ?_⟩
  intro hp
  constructor
  · intro hserial
    have hquiet : Quiet ch s (s.answer c.callId (.error .database)) :=
      Quiet.throw hc (hserial c hc) .database
    exact ⟨hquiet.recorded hp, hquiet.records _⟩
  · rintro ⟨hp', -⟩ x hx
    rw [hc, Option.some.injEq] at hx
    subst hx
    by_contra hcommitting
    rw [Bool.not_eq_false] at hcommitting
    have hmem := mem_of_find? hc
    obtain ⟨p, hprepared⟩ : ∃ p, c.prepared = some p := by
      obtain ⟨callId, payload, phase⟩ := c
      cases phase with
      | begun => cases hcommitting
      | locked read => cases hcommitting
      | written p => cases hcommitting
      | announced p => exact ⟨p, rfl⟩
      | scheduled p event => exact ⟨p, rfl⟩
    obtain ⟨e, he, hid⟩ := List.mem_map.mp ((h.calls c hmem).announced p hprepared hcommitting).2
    rcases hp'.commits e he with ⟨x, hx, hsame, -⟩ | ⟨r, hr, -⟩
    · exact (mem_erase.mp hx).2 (hsame.trans hid)
    · rw [hid] at hr
      rcases List.mem_append.mp hr with hr | hr
      · exact (h.calls c hmem).fresh _ hr
      · cases mem_singleton.mp hr

theorem commit_cases {c : Submission} (h : s.commit ch c = some s') :
    ∃ p event, c.prepared = some p ∧ (p.answered.completed = true → c.committing = true) ∧
      (∀ e, event = some e → c.phase = .scheduled p (some e)) ∧
      s' = s.commitWith ch c.callId p event := by
  obtain ⟨callId, payload, phase⟩ := c
  cases phase with
  | begun => cases h
  | locked read => cases h
  | written p =>
    simp only [System.commit] at h
    split at h
    · cases h
    · next hopen =>
      cases h
      exact ⟨p, none, rfl, fun hcompleted => absurd hcompleted hopen, (fun _ he => by cases he), rfl⟩
  | announced p =>
    simp only [System.commit] at h
    split at h
    · cases h
    · cases h
      exact ⟨p, none, rfl, fun _ => rfl, (fun _ he => by cases he), rfl⟩
  | scheduled p event =>
    cases h
    exact ⟨p, event, rfl, fun _ => rfl, fun _ he => by rw [he], rfl⟩

theorem Inv.xp_commit (h : Inv ch s) {c : Submission} (hc : c ∈ s.calls.rows)
    (hprepared : c.prepared = some p) {event : Option NewEvent}
    (hevent : ∀ e, event = some e → c.phase = .scheduled p (some e)) :
    (s.commitWith ch c.callId p event).outbox.rows.countP (fun row => IsXp ch row)
      ≤ (returned (s.commitWith ch c.callId p event).answers).countP (·.completed) := by
  have hgrows : (returned (s.commitWith ch c.callId p event).answers).countP (·.completed)
      = (returned s.answers).countP (·.completed) + if p.answered.completed then 1 else 0 := by
    show (returned (s.answers ++ [(c.callId, .ok _)])).countP _ = _
    rw [returned_snoc_ok, List.countP_append, List.countP_singleton]
    rfl
  rw [hgrows]
  cases event with
  | none => exact h.xp.trans (Nat.le_add_right _ _)
  | some e =>
    have hphase := hevent e rfl
    have hcompleted : p.answered.completed = true := by
      refine ((h.calls c hc).announced p hprepared ?_).1
      simp only [committing, hphase]
    rw [if_pos hcompleted]
    refine le_trans ?_ (Nat.add_le_add_right h.xp 1)
    show ((s.outbox.insert? e.row).getD s.outbox).rows.countP _ ≤ _
    cases hinsert : s.outbox.insert? e.row with
    | none => exact Nat.le_succ _
    | some outbox =>
      rw [Option.getD_some, countP_insert? _ hinsert]
      split
      · exact le_refl _
      · exact Nat.le_succ _

theorem Inv.commit (h : Inv ch s) {c : Submission} (hc : s.calls.find? c.callId = some c)
    (hprepared : c.prepared = some p)
    (hcommitting : p.answered.completed = true → c.committing = true) {event : Option NewEvent}
    (hevent : ∀ e, event = some e → c.phase = .scheduled p (some e)) :
    Inv ch (s.commitWith ch c.callId p event) := by
  have hmem := mem_of_find? hc
  have hok := h.calls c hmem
  obtain ⟨hlt, hnext, hcompleted, hindex, -⟩ := hok.written hprepared
  have hanswers : ∀ id r, (id, .ok r) ∈ (s.commitWith ch c.callId p event).answers →
      (id, .ok r) ∈ s.answers ∨ id = c.callId ∧ r = response ch.row ch.allQuestions p.answered := by
    intro id r hr
    rcases List.mem_append.mp hr with hr | hr
    · exact .inl hr
    · cases mem_singleton.mp hr
      exact .inr ⟨rfl, rfl⟩
  refine ⟨?_, ?_, ?_, ?_, ?_, h.xp_commit hmem hprepared hevent⟩
  · intro x hx
    obtain ⟨hx, hne⟩ := mem_erase.mp hx
    refine (h.calls x hx).mono ?_ ?_ fun _ hid => hid
    · intro result hresult
      rcases List.mem_append.mp hresult with hresult | hresult
      · exact (h.calls x hx).fresh result hresult
      · exact hne (congrArg Prod.fst (mem_singleton.mp hresult))
    · intro hholds
      have hsame := h.exclusive x hx c hmem hholds (read_of_prepared hprepared).2
      exact absurd (congrArg _ hsame) hne
  · intro x hx y hy
    exact h.exclusive x (mem_erase.mp hx).1 y (mem_erase.mp hy).1
  · intro r hr
    cases hr
    refine ⟨?_, (h.written_answers hmem hprepared).2⟩
    rw [hindex]
    exact Nat.le_add_left 1 _
  · intro r hr
    obtain ⟨id, hid⟩ := mem_returned.mp hr
    rcases hanswers id r hid with hid | ⟨-, rfl⟩
    · exact h.responses r (mem_returned.mpr ⟨id, hid⟩)
    · refine ⟨?_, hcompleted⟩
      show p.answered.nextQuestionIndex ≤ _
      rw [hnext]
      exact hlt
  · intro id r hr hdone
    rcases hanswers id r hr with hr | ⟨rfl, rfl⟩
    · exact h.emitted id r hr hdone
    · exact (hok.announced p hprepared (hcommitting hdone)).2

theorem commit_step (h : Inv ch s) {c : Submission} (hc : s.calls.find? c.callId = some c)
    (hstep : s.commit ch c = some s') : Good ch s (.commit c.callId) s' := by
  obtain ⟨p, event, hprepared, hcommitting, hevent, rfl⟩ := commit_cases hstep
  have hmem := mem_of_find? hc
  have hok := h.calls c hmem
  have hinv := h.commit hc hprepared hcommitting hevent
  obtain ⟨hwritten, hlength⟩ := h.written_answers hmem hprepared
  have hreturned : returned (s.commitWith ch c.callId p event).answers
      = returned s.answers ++ [response ch.row ch.allQuestions p.answered] :=
    returned_snoc_ok s.answers c.callId _
  have hne : returned (s.commitWith ch c.callId p event).answers ≠ returned s.answers := by
    intro hsame
    rw [hreturned] at hsame
    exact absurd (congrArg List.length hsame) (by simp)
  refine ⟨hinv, fun hp => ?_⟩
  constructor
  · intro hserial
    have hread := hok.read_eq (hserial c hc)
    obtain ⟨-, hnext, -, hindex, -⟩ := hok.written hprepared
    rw [hread] at hwritten hnext hindex
    have hnumbered : (returned (s.commitWith ch c.callId p event).answers).map (·.nextQuestionIndex)
        = range' 1 (s.commitWith ch c.callId p event).nextIndex := by
      have hlast : (s.commitWith ch c.callId p event).nextIndex = s.nextIndex + 1 := hindex
      rw [hreturned, map_append, hp.numbered, hlast, List.range'_1_concat, Nat.add_comm 1]
      exact congrArg (fun i => range' 1 s.nextIndex ++ [i]) hnext
    refine ⟨⟨hlength, hnumbered, hp.once, hinv.xpOnce hnumbered, ?_⟩, fun hsame => absurd hsame hne,
      fun _ => ⟨c, hc, hwritten⟩⟩
    intro e he
    rcases hp.commits e he with ⟨x, hx, hid, hopen⟩ | ⟨r, hr, hdone⟩
    · by_cases hxc : x.callId = c.callId
      · -- this is the transaction that commits
        obtain rfl := eq_of_key_eq hx hmem hxc
        refine .inr ⟨response ch.row ch.allQuestions p.answered, ?_, (hok.announced p hprepared hopen).1⟩
        rw [← hid]
        exact List.mem_append_right _ (mem_singleton.mpr rfl)
      · exact .inl ⟨x, mem_erase.mpr ⟨hx, hxc⟩, hid, hopen⟩
    · exact .inr ⟨r, mem_append_left _ hr, hdone⟩
  · rintro ⟨-, hq⟩ x hx hnone
    rw [hc, Option.some.injEq] at hx
    subst hx
    obtain ⟨x, hx, hrecorded⟩ := hq.returns hne
    -- an overwritten attempt had an answer already
    cases hattempt : s.attempt with
    | none => rfl
    | some r =>
      rw [hnone, Option.elim_none] at hwritten
      have hone : (s.commitWith ch c.callId p event).recorded.length = 1 := by
        show p.written.answers.length = 1
        rw [hwritten]
        rfl
      have hpositive := h.attempt r hattempt
      rw [hrecorded, length_append, List.length_singleton] at hone
      simp only [System.recorded, hattempt, Option.elim_some] at hone
      omega

/-! ## Every run -/

theorem step_good (h : Inv ch s) {a : Act} (hstep : System.step ch s a = some s') :
    Good ch s a s' := by
  cases a with
  | begin callId payload => exact begin_step h hstep
  | lock callId =>
    obtain ⟨c, hc, hlock⟩ := Option.bind_eq_some_iff.mp hstep
    obtain rfl := key_of_find? hc
    exact lock_step h hc hlock
  | write callId nowIso =>
    obtain ⟨c, hc, hwrite⟩ := Option.bind_eq_some_iff.mp hstep
    obtain rfl := key_of_find? hc
    exact write_step h hc hwrite
  | announce callId =>
    obtain ⟨c, hc, hannounce⟩ := Option.bind_eq_some_iff.mp hstep
    obtain rfl := key_of_find? hc
    exact announce_step h hc hannounce
  | schedule callId eventId correlationId =>
    obtain ⟨c, hc, hschedule⟩ := Option.bind_eq_some_iff.mp hstep
    obtain rfl := key_of_find? hc
    exact schedule_step h hc hschedule
  | commit callId =>
    obtain ⟨c, hc, hcommit⟩ := Option.bind_eq_some_iff.mp hstep
    obtain rfl := key_of_find? hc
    exact commit_step h hc hcommit
  | abort callId =>
    obtain ⟨c, hc, rfl⟩ := Option.map_eq_some_iff.mp hstep
    obtain rfl := key_of_find? hc
    exact abort_step h hc
  | process eventId nowIso =>
    cases hstep
    exact process_step h eventId nowIso

/-- **When submissions are recorded once.** In every run of submissions of one user for one challenge,
all that should hold holds in every state and of every step just when nobody who has found no attempt
announces or commits once there is one, and nobody aborts who has announced. -/
theorem answers_recorded_once (ch : Challenge) {outbox : OutboxEvents}
    (hxp : ∀ row ∈ outbox.rows, ¬ IsXp ch row) {actions : List Act} {s : System}
    (hexec : exec (System.step ch) (System.start outbox) actions = some s) :
    (Always (System.step ch) (Recorded ch) (System.start outbox) actions ∧
        EachStep (System.step ch) Records (System.start outbox) actions) ↔
      Along (System.step ch) Serial (System.start outbox) actions :=
  along_iff_good (I := Inv ch) (fun _ _ _ h hstep => (step_good h hstep).1)
    (fun _ _ _ h hp hstep => (step_good h hstep).2 hp) hexec (Inv.start hxp) (Recorded.start hxp)

end Steps

def challengeOf (totalQuestions : Nat) : Challenge where
  row :=
    { challengeId := 1, challengeDate := "2026-01-01", quizId := 2, quizVersionId := 3
      rewardXp := 10, createdAt := 0, expiresAt := 86400000, totalQuestions }
  userId := 4
  getQuestionByPosition i :=
    if i < totalQuestions then
      some (⟨5, 3, i + 1, "2 + 2", none, 0, 0, ⟨6, .user⟩⟩, some ⟨7, 5, 1, "4", true, 0⟩)
    else none
  allQuestions := [(⟨5, 3, 1, "2 + 2", none, 0, 0, ⟨6, .user⟩⟩, some ⟨7, 5, 1, "4", true, 0⟩)]
  lookup i := by
    split
    · next hlt => exact iff_of_true rfl hlt
    · next hge => exact iff_of_false Bool.false_ne_true hge

/-- Two questions, answered one after the other, and a submission that comes too late. -/
theorem answers_recorded_in_turn :
    ∃ s, exec (System.step (challengeOf 2)) (.start (.empty _))
        [.begin "a" ⟨0, some "x"⟩, .lock "a", .write "a" 1, .commit "a", .begin "b" ⟨1, none⟩,
          .begin "c" ⟨1, some "y"⟩, .lock "b", .write "b" 2, .announce "b", .schedule "b" "e" "t",
          .commit "b", .lock "c", .write "c" 3, .process "e" 4] = some s ∧
      s.recorded = ["x", "__skipped__"] ∧
      (Always (System.step (challengeOf 2)) (Recorded (challengeOf 2)) (.start (.empty _))
          [.begin "a" ⟨0, some "x"⟩, .lock "a", .write "a" 1, .commit "a", .begin "b" ⟨1, none⟩,
            .begin "c" ⟨1, some "y"⟩, .lock "b", .write "b" 2, .announce "b", .schedule "b" "e" "t",
            .commit "b", .lock "c", .write "c" 3, .process "e" 4] ∧
        EachStep (System.step (challengeOf 2)) Records (.start (.empty _))
          [.begin "a" ⟨0, some "x"⟩, .lock "a", .write "a" 1, .commit "a", .begin "b" ⟨1, none⟩,
            .begin "c" ⟨1, some "y"⟩, .lock "b", .write "b" 2, .announce "b", .schedule "b" "e" "t",
            .commit "b", .lock "c", .write "c" 3, .process "e" 4]) := by
  refine exists_of_read (fun s => s.recorded) ["x", "__skipped__"] (by decide +kernel)
    fun s hs hread => ?_
  exact ⟨hread, (answers_recorded_once (challengeOf 2) (fun _ hrow =>
    absurd hrow List.not_mem_nil) hs).mpr (by decide +kernel)⟩

/-- Two first answers of two questions that overlap: both return as the first, and one is lost. And
the only question is completed twice. -/
theorem answers_recorded_over :
    ¬ Always (System.step (challengeOf 2)) (Recorded (challengeOf 2)) (.start (.empty _))
        [.begin "a" ⟨0, some "x"⟩, .begin "b" ⟨0, some "y"⟩, .lock "a", .lock "b", .write "a" 1,
          .commit "a", .write "b" 2, .commit "b"] ∧
      ¬ Always (System.step (challengeOf 1)) (Recorded (challengeOf 1)) (.start (.empty _))
        [.begin "a" ⟨0, some "x"⟩, .begin "b" ⟨0, some "y"⟩, .lock "a", .lock "b", .write "a" 1,
          .announce "a", .schedule "a" "e" "t", .commit "a", .write "b" 2, .announce "b"] := by
  refine ⟨?_, ?_⟩
  · intro h
    obtain ⟨s, hok, hread⟩ := h.read
      (fun s => ((returned s.answers).map (·.nextQuestionIndex), s.nextIndex, s.recorded))
      ([1, 1], 1, ["y"]) (by decide +kernel)
    rw [Prod.mk.injEq, Prod.mk.injEq] at hread
    have hnumbered := hok.numbered
    rw [hread.1, hread.2.1] at hnumbered
    exact absurd hnumbered (by decide)
  · intro h
    obtain ⟨s, hok, hread⟩ := h.read (fun s => s.emitted.length) 2 (by decide +kernel)
    have honce := hok.once
    omega

end QuizBackend.DailyChallenge
