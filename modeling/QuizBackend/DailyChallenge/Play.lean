import QuizBackend.DailyChallenge.Answers
import QuizBackend.Lib.Run
import QuizBackend.Lib.UniqueTable

/-!
# Playing the daily challenge

Every midnight a quiz is picked and its published version becomes the challenge of the day
(`rotate`); users answer its questions one by one (`submitAnswer`). Requests come here one after
another; what happens when they overlap is in `DailyChallenge.Recording`.

The index of a question counts from zero and is looked up among positions, which the schema has
positive. So the first answer finds no question, no attempt is ever stored, and nobody plays
(`unplayed_run`). That the score counts rows of the join and is not stored does not even come to
light.

The flag `isRunning` of the scheduler keeps two rotations apart and is left out with them, and so are
the lines both services log.
-/

namespace QuizBackend.DailyChallenge

open Lib
open Attempt (QuestionJoinRow getQuestionsByVersionId)
open Outbox (OutboxEvents insertEvent)
open Quiz (QuizRow QuizVersionRow QuizDifficulty QuizQuestionRow)

abbrev Challenges :=
  UniqueTable Uuid String DailyChallengeRow (·.challengeId) (fun row => some row.challengeDate)

abbrev Attempts :=
  Table (Uuid × Uuid) DailyChallengeAttemptRow fun row => (row.challengeId, row.userId)

structure World where
  quiz : Quiz.Db
  featured : List Uuid
  challenges : Challenges
  attempts : Attempts
  outbox : OutboxEvents
  emitted : List DailyChallengeCompletedEvent

/-! ## The rotation (`daily-challenge-scheduler.service.ts`) -/

open World

structure FeaturedQuiz where
  quizId : Uuid
  quizVersionId : Uuid
  difficulty : QuizDifficulty
  questionCount : Nat
  rewardXp : Int

def utcDate (now : Int) : String := String.ofList ((toISOString now).toList.take 10)

namespace World

section

variable (w : World)

def candidates : List (QuizRow × QuizVersionRow) :=
  (w.quiz.quizzes.rows.filter fun q => !q.flags.isHidden && !q.flags.isDeleted).flatMap fun q =>
    (w.quiz.quizVersions.rows.filter fun v =>
      decide (v.quizId = q.quizId) && decide (v.status = .published)).map fun v => (q, v)

/-- `ORDER BY is_featured DESC, published_at DESC NULLS LAST, created_at DESC`. -/
def sortKey (c : QuizRow × QuizVersionRow) : Bool ×ₗ Bool ×ₗ Int ×ₗ Int :=
  toLex (decide (c.1.quizId ∉ w.featured),
    toLex (c.2.publishedAt.isNone, toLex (-c.2.publishedAt.getD 0, -c.1.createdAt)))

def pickFeaturedQuiz : Option FeaturedQuiz :=
  (w.candidates.insertionSort fun a b => w.sortKey a ≤ w.sortKey b).head?.map fun (q, v) =>
    { quizId := q.quizId, quizVersionId := v.quizVersionId, difficulty := v.settings.difficulty
      questionCount := w.quiz.countQuestionsByVersionId v.quizVersionId
      rewardXp := v.settings.rewardXp }

/-- `insertDailyChallenge`: a second challenge of a day is not inserted, and a negative reward is an
error of the statement, which the scheduler logs. -/
def insertDailyChallenge (row : DailyChallengeRow) : World :=
  if row.rewardXp < 0 then w
  else { w with challenges := (w.challenges.insert? row).getD w.challenges }

def rotate (now later : Int) (challengeId : Uuid) : World :=
  match w.pickFeaturedQuiz with
  | none => w
  | some selected =>
    w.insertDailyChallenge
      { challengeId, challengeDate := utcDate now, quizId := selected.quizId
        quizVersionId := selected.quizVersionId, rewardXp := selected.rewardXp, createdAt := now
        expiresAt := later + 24 * 60 * 60 * 1000, totalQuestions := selected.questionCount }

end

end World

/-! ## Submitting an answer -/

structure Drawn where
  now : Int
  eventId : String
  correlationId : String

def getQuestionByPosition (quiz : Quiz.Db) (quizVersionId : Uuid) (position : Nat) :
    Option QuestionJoinRow :=
  (getQuestionsByVersionId quiz quizVersionId).find? fun row => row.1.position = position

namespace World

def findByDate (w : World) (date : String) : Option DailyChallengeRow :=
  w.challenges.rows.find? fun row =>
    decide (row.challengeDate = date) &&
      (w.quiz.quizzes.find? row.quizId).any (fun quiz => !quiz.flags.isDeleted) &&
      (w.quiz.quizVersions.find? row.quizVersionId).isSome

def record (w : World) (d : Drawn) (row : DailyChallengeRow) (userId : Uuid) (a : Answered) : World :=
  let allQuestions := getQuestionsByVersionId w.quiz row.quizVersionId
  let attempt := upsertAttempt (w.attempts.find? (row.challengeId, userId)) row userId a d.now
  { w with
    attempts := w.attempts.upsert attempt
    emitted :=
      if a.completed then w.emitted ++ [completedEvent row userId allQuestions a.nextAnswers d.now]
      else w.emitted
    outbox :=
      if a.completed ∧ 0 < row.rewardXp then
        insertEvent w.outbox (xpEvent row userId d.eventId d.correlationId d.now)
      else w.outbox }

def submitAnswer (w : World) (d : Drawn) (userId : Uuid) (payload : DailyChallengeAnswerDto) :
    Except DailyChallengeError DailyChallengeAnswerResponseDto × World :=
  match w.findByDate (utcDate d.now) with
  | none => (.error (.notFound notFoundMessage), w)
  | some row =>
    let attempt := w.attempts.find? (row.challengeId, userId)
    match answered row (getQuestionByPosition w.quiz row.quizVersionId) attempt payload with
    | .error e => (.error e, w)
    | .ok a =>
      (.ok (response row (getQuestionsByVersionId w.quiz row.quizVersionId) a),
        w.record d row userId a)

/-- One answer after the other, from the `i`-th question on. -/
def play (w : World) (userId : Uuid) :
    Nat → List (Drawn × Option String) →
      List (Except DailyChallengeError DailyChallengeAnswerResponseDto) × World
  | _, [] => ([], w)
  | i, (d, answer) :: submissions =>
    let first := w.submitAnswer d userId ⟨i, answer⟩
    let rest := first.2.play userId (i + 1) submissions
    (first.1 :: rest.1, rest.2)

end World

/-! ## What should hold -/

def questionsInOrder (quiz : Quiz.Db) (quizVersionId : Uuid) : List QuizQuestionRow :=
  (quiz.questionsOf quizVersionId).insertionSort fun a b => a.position ≤ b.position

/-- The answer names the right option. -/
def IsRight (quiz : Quiz.Db) (question : QuizQuestionRow) (answer : Option String) : Prop :=
  ∃ option ∈ quiz.optionsOf question.questionId,
    option.isCorrect = true ∧ answer = some option.optionId.text

instance (quiz : Quiz.Db) (question : QuizQuestionRow) (answer : Option String) :
    Decidable (IsRight quiz question answer) :=
  inferInstanceAs (Decidable (∃ option ∈ _, _ ∧ _))

def marks (quiz : Quiz.Db) (quizVersionId : Uuid) (answers : List (Option String)) : List Bool :=
  (questionsInOrder quiz quizVersionId).zipWith (fun q answer => decide (IsRight quiz q answer)) answers

def percentOf (k n : Nat) : Nat := (20000 * k + n) / (2 * n)

structure Fits (quiz : Quiz.Db) (quizVersionId : Uuid) : Prop where
  positive : ∀ q ∈ quiz.questionsOf quizVersionId, 0 < q.position
  distinct : ((quiz.questionsOf quizVersionId).map (·.position)).Nodup
  options : ∀ q ∈ quiz.questionsOf quizVersionId, 2 ≤ (quiz.optionsOf q.questionId).length
  oneCorrect : ∀ q ∈ quiz.questionsOf quizVersionId,
    (quiz.optionsOf q.questionId).countP (·.isCorrect) = 1

structure Rotated (w : World) (row : DailyChallengeRow) : Prop where
  stands : row ∈ w.challenges.rows
  inserted : ∃ (before : World) (now later : Int), before.quiz = w.quiz ∧
    row ∉ before.challenges.rows ∧
    row ∈ (before.rotate now later row.challengeId).challenges.rows

/-- All answers were right, and counted as such. -/
structure PlayedRight (w : World) (row : DailyChallengeRow) (userId : Uuid)
    (submissions : List (Drawn × Option String))
    (responses : List DailyChallengeAnswerResponseDto) (w' : World) : Prop where
  succeed : w.play userId 0 submissions = (responses.map .ok, w')
  correct : responses.map (·.correct)
    = marks w.quiz row.quizVersionId (submissions.map Prod.snd)
  last : ∃ response, responses.getLast? = some response ∧ response.completed = true ∧
    response.scorePercent = some (percentOf
      ((marks w.quiz row.quizVersionId (submissions.map Prod.snd)).countP id) row.totalQuestions)
  event : ∃ event, w'.emitted = w.emitted ++ [event] ∧ event.challengeId = row.challengeId ∧
    event.userId = userId ∧ event.correctCount
      = (marks w.quiz row.quizVersionId (submissions.map Prod.snd)).countP id
  stored : ∃ attempt, w'.attempts.find? (row.challengeId, userId) = some attempt ∧
    attempt.scorePercent = some (percentOf
      ((marks w.quiz row.quizVersionId (submissions.map Prod.snd)).countP id) row.totalQuestions)

/-! ## Rotations -/

section Rotations

variable {w : World} {now later : Int} {challengeId : Uuid} {row : DailyChallengeRow}

theorem quiz_rotate (w : World) (now later : Int) (challengeId : Uuid) :
    (w.rotate now later challengeId).quiz = w.quiz ∧
      (w.rotate now later challengeId).attempts = w.attempts ∧
      (w.rotate now later challengeId).outbox = w.outbox ∧
      (w.rotate now later challengeId).emitted = w.emitted := by
  unfold rotate
  split
  · exact ⟨rfl, rfl, rfl, rfl⟩
  · unfold insertDailyChallenge
    split <;> exact ⟨rfl, rfl, rfl, rfl⟩

/-- A rotation inserts at most one challenge: that of a published version of a quiz that is neither
hidden nor deleted, with the number of its questions. -/
theorem mem_rotate (h : row ∈ (w.rotate now later challengeId).challenges.rows) :
    row ∈ w.challenges.rows ∨
      row.challengeId = challengeId ∧ row.challengeDate = utcDate now ∧
        row.totalQuestions = w.quiz.countQuestionsByVersionId row.quizVersionId ∧
        ∃ q ∈ w.quiz.quizzes.rows, ∃ v ∈ w.quiz.quizVersions.rows,
          row.quizId = q.quizId ∧ row.quizVersionId = v.quizVersionId ∧ v.quizId = q.quizId ∧
          v.status = .published ∧ q.flags.isHidden = false ∧ q.flags.isDeleted = false := by
  unfold rotate at h
  split at h
  · exact .inl h
  · next selected hselected =>
    unfold insertDailyChallenge at h
    split at h
    · exact .inl h
    · cases hinsert : w.challenges.insert? _ with
      | none =>
        rw [hinsert] at h
        exact .inl h
      | some challenges =>
        rw [hinsert, Option.getD_some, UniqueTable.rows_of_insert? hinsert, List.mem_append,
          List.mem_singleton] at h
        rcases h with h | rfl
        · exact .inl h
        · obtain ⟨⟨q, v⟩, hhead, rfl⟩ := Option.map_eq_some_iff.mp hselected
          have hcandidate : (q, v) ∈ w.candidates :=
            (List.mem_insertionSort _).mp (List.mem_of_head? hhead)
          obtain ⟨q', hq, hpair⟩ := List.mem_flatMap.mp hcandidate
          obtain ⟨v', hv, hqv⟩ := List.mem_map.mp hpair
          cases hqv
          obtain ⟨hq, hshown⟩ := List.mem_filter.mp hq
          obtain ⟨hv, hversion⟩ := List.mem_filter.mp hv
          rw [Bool.and_eq_true, Bool.not_eq_true', Bool.not_eq_true'] at hshown
          rw [Bool.and_eq_true, decide_eq_true_iff, decide_eq_true_iff] at hversion
          exact .inr ⟨rfl, rfl, rfl, q, hq, v, hv, rfl, rfl, hversion.1, hversion.2, hshown.1,
            hshown.2⟩

theorem Rotated.totalQuestions (h : Rotated w row) :
    row.totalQuestions = w.quiz.countQuestionsByVersionId row.quizVersionId := by
  obtain ⟨before, now, later, hquiz, hnew, hrow⟩ := h.inserted
  rcases mem_rotate hrow with hold | ⟨-, -, hcount, -⟩
  · exact absurd hold hnew
  · rw [← hquiz]
    exact hcount

end Rotations

/-! ## No question is found first -/

section Submissions

variable {w : World} {row : DailyChallengeRow} {d : Drawn} {userId : Uuid}

theorem getQuestionByPosition_zero {quiz : Quiz.Db} {quizVersionId : Uuid}
    (h : ∀ q ∈ quiz.questionsOf quizVersionId, 0 < q.position) :
    getQuestionByPosition quiz quizVersionId 0 = none := by
  refine List.find?_eq_none.mpr ?_
  intro row hrow
  have hmem : row ∈ leftJoin (fun question => quiz.optionsOf question.questionId)
      (quiz.questionsOf quizVersionId) :=
    (Attempt.getQuestionsByVersionId_perm quiz quizVersionId).mem_iff.mp hrow
  obtain ⟨q, hq, hjoined⟩ := List.mem_flatMap.mp hmem
  have hquestion : row.1 = q := by
    split at hjoined
    · rw [List.mem_singleton.mp hjoined]
    · obtain ⟨option, -, rfl⟩ := List.mem_map.mp hjoined
      rfl
  have hpositive := h q hq
  rw [← hquestion] at hpositive
  rw [decide_eq_true_iff]
  omega

theorem findByDate_eq (hrow : row ∈ w.challenges.rows) {x : DailyChallengeRow}
    (h : w.findByDate row.challengeDate = some x) : x = row := by
  have hmatch := List.find?_some h
  rw [Bool.and_eq_true, Bool.and_eq_true, decide_eq_true_iff] at hmatch
  refine UniqueTable.eq_of_index_eq (List.mem_of_find?_eq_some h) hrow ?_ rfl
  rw [hmatch.1.1]

theorem answered_zero {attempt : Option DailyChallengeAttemptRow} {answer : Option String}
    (h : ∀ q ∈ w.quiz.questionsOf row.quizVersionId, 0 < q.position) :
    ∃ e, answered row (getQuestionByPosition w.quiz row.quizVersionId) attempt ⟨0, answer⟩
      = .error e := by
  cases hanswered : answered row (getQuestionByPosition w.quiz row.quizVersionId) attempt ⟨0, answer⟩
    with
  | error e => exact ⟨e, rfl⟩
  | ok a =>
    obtain ⟨currentQuestion, hindex, hfound, -⟩ := answered_eq_ok hanswered
    have hzero : attempt.elim 0 (·.nextQuestionIndex) = 0 := Int.natCast_eq_zero.mp hindex.symm
    rw [hzero, getQuestionByPosition_zero h] at hfound
    cases hfound

/-- **The first answer of a day throws**, and nothing has been written. -/
theorem submitAnswer_zero (hrow : row ∈ w.challenges.rows)
    (hpositive : ∀ q ∈ w.quiz.questionsOf row.quizVersionId, 0 < q.position)
    (hday : utcDate d.now = row.challengeDate) (answer : Option String) :
    ∃ e, w.submitAnswer d userId ⟨0, answer⟩ = (.error e, w) := by
  unfold submitAnswer
  rw [hday]
  cases hfind : w.findByDate row.challengeDate with
  | none => exact ⟨_, rfl⟩
  | some x =>
    obtain rfl := findByDate_eq hrow hfind
    have hthrows : ∃ e, answered x (getQuestionByPosition w.quiz x.quizVersionId)
        (w.attempts.find? (x.challengeId, userId)) ⟨0, answer⟩ = .error e := answered_zero hpositive
    obtain ⟨e, he⟩ := hthrows
    exact ⟨e, by simp only [he]⟩

end Submissions

/-! ## Nobody plays -/

section Runs

inductive Action where
  | rotate (now later : Int) (challengeId : Uuid)
  | submitAnswer (d : Drawn) (userId : Uuid) (payload : DailyChallengeAnswerDto)

def World.step (w : World) : Action → Option World
  | .rotate now later challengeId => some (w.rotate now later challengeId)
  | .submitAnswer d userId payload => some (w.submitAnswer d userId payload).2

structure Unplayed (w : World) : Prop where
  positive : ∀ q ∈ w.quiz.quizQuestions.rows, 0 < q.position
  attempts : w.attempts.rows = []

theorem Unplayed.submitAnswer {w : World} (h : Unplayed w) (d : Drawn) (userId : Uuid)
    (payload : DailyChallengeAnswerDto) : ∃ e, w.submitAnswer d userId payload = (.error e, w) := by
  unfold World.submitAnswer
  cases hfind : w.findByDate (utcDate d.now) with
  | none => exact ⟨_, rfl⟩
  | some row =>
    have hnone : w.attempts.find? (row.challengeId, userId) = none := by
      refine Table.find?_eq_none_iff.mpr ?_
      rw [h.attempts]
      exact List.not_mem_nil
    have hzero : getQuestionByPosition w.quiz row.quizVersionId 0 = none :=
      getQuestionByPosition_zero fun q hq => h.positive q (List.mem_filter.mp hq).1
    cases hanswered : answered row (getQuestionByPosition w.quiz row.quizVersionId) none payload with
    | error e => exact ⟨e, by simp only [hnone, hanswered]⟩
    | ok a =>
      obtain ⟨currentQuestion, -, hfound, -⟩ := answered_eq_ok hanswered
      rw [Option.elim_none, hzero] at hfound
      cases hfound

theorem Unplayed.step {w w' : World} {a : Action} (h : Unplayed w) (hstep : w.step a = some w') :
    Unplayed w' ∧ w'.outbox = w.outbox ∧ w'.emitted = w.emitted := by
  cases a with
  | rotate now later challengeId =>
    cases hstep
    obtain ⟨hquiz, hattempts, houtbox, hemitted⟩ := quiz_rotate w now later challengeId
    refine ⟨⟨?_, ?_⟩, houtbox, hemitted⟩
    · rw [hquiz]
      exact h.positive
    · rw [hattempts]
      exact h.attempts
  | submitAnswer d userId payload =>
    cases hstep
    obtain ⟨e, he⟩ := h.submitAnswer d userId payload
    rw [he]
    exact ⟨h, rfl, rfl⟩

/-- **Whatever is rotated and submitted, no answer is recorded, nobody completes a challenge and
every submission throws.** -/
theorem unplayed_run {w w' : World} {actions : List Action}
    (hexec : exec step w actions = some w') (h : Unplayed w) :
    Unplayed w' ∧ w'.outbox = w.outbox ∧ w'.emitted = w.emitted ∧
      ∀ d userId payload, ∃ e, w'.submitAnswer d userId payload = (.error e, w') := by
  have hrun : Unplayed w' ∧ w'.outbox = w.outbox ∧ w'.emitted = w.emitted := by
    refine exec_invariant (I := fun x => Unplayed x ∧ x.outbox = w.outbox ∧ x.emitted = w.emitted)
      ?_ hexec ⟨h, rfl, rfl⟩
    rintro x a x' ⟨hx, houtbox, hemitted⟩ hstep
    obtain ⟨hx', houtbox', hemitted'⟩ := hx.step hstep
    exact ⟨hx', houtbox'.trans houtbox, hemitted'.trans hemitted⟩
  exact ⟨hrun.1, hrun.2.1, hrun.2.2, hrun.1.submitAnswer⟩

theorem not_playedRight {w : World} {row : DailyChallengeRow} {userId : Uuid} {d : Drawn}
    {answer : Option String} {e : DailyChallengeError}
    (h : (w.submitAnswer d userId ⟨0, answer⟩).1 = .error e)
    (submissions : List (Drawn × Option String)) :
    ¬ ∃ responses w', PlayedRight w row userId ((d, answer) :: submissions) responses w' := by
  rintro ⟨responses, w', hplayed⟩
  have hfirst := congrArg (fun x => x.1.head?) hplayed.succeed
  simp only [play, Nat.cast_zero, h, List.head?_cons] at hfirst
  cases responses with
  | nil => cases hfirst
  | cons response responses => cases hfirst

/-- **No challenge is played right.** It is one of a published version with questions at positive,
distinct positions and options as they should be, a user answers each of its questions once and on the
day, and the first submission throws. -/
theorem daily_challenge_unplayable {w : World} {row : DailyChallengeRow} (hrotated : Rotated w row)
    (hfits : Fits w.quiz row.quizVersionId)
    (hquestions : 1 ≤ w.quiz.countQuestionsByVersionId row.quizVersionId) (userId : Uuid)
    {submissions : List (Drawn × Option String)}
    (hlength : submissions.length = row.totalQuestions)
    (hday : ∀ s ∈ submissions, utcDate s.1.now = row.challengeDate) :
    ¬ ∃ responses w', PlayedRight w row userId submissions responses w' := by
  cases submissions with
  | nil =>
    rw [← hrotated.totalQuestions, ← hlength] at hquestions
    exact absurd hquestions (by decide)
  | cons s submissions =>
    obtain ⟨d, answer⟩ := s
    have hthrows : ∃ e, w.submitAnswer d userId ⟨0, answer⟩ = (.error e, w) :=
      submitAnswer_zero hrotated.stands hfits.positive (hday (d, answer) (List.mem_cons_self ..)) answer
    obtain ⟨e, he⟩ := hthrows
    exact not_playedRight (by rw [he]) submissions

/-! A quiz with one question, on the day it is published. -/

def arithmeticQuiz : Quiz.Db where
  quizzes := ⟨[{ quizId := 1, creatorId := none, flags := {}, publishedVersionId := some 2
                 createdAt := 0, updatedAt := 0 }], by decide⟩
  quizVersions := ⟨[{ quizVersionId := 2, quizId := 1, versionNumber := 1, status := .published
                      settings := ⟨.easy, 60000, 50, 10⟩, createdByUserId := none, createdAt := 0
                      publishedAt := some 0, updatedAt := 0 }], by decide⟩
  quizQuestions := ⟨[{ questionId := 3, quizVersionId := 2, position := 1
                       questionText := "2 + 2", imageUrl := none, createdAt := 0, updatedAt := 0
                       insertedBy := ⟨6, .user⟩ }], by decide⟩
  quizAnswerOptions := ⟨[⟨4, 3, 1, "4", true, 0⟩, ⟨5, 3, 2, "5", false, 0⟩], by decide⟩

def launchDay : World where
  quiz := arithmeticQuiz
  featured := []
  challenges := .empty _ _
  attempts := .empty _
  outbox := .empty _
  emitted := []

theorem launchDay_unplayed : ∃ w', exec World.step launchDay [.rotate 0 0 7,
    .submitAnswer ⟨0, "event", "correlation"⟩ 8 ⟨0, some (Uuid.text 4)⟩] = some w' ∧
      Unplayed w' ∧ w'.emitted = [] :=
  exists_of_read (fun w' => w'.emitted) [] rfl fun w' hw' hemitted =>
    ⟨(unplayed_run hw' ⟨by decide, rfl⟩).1, hemitted⟩

def launchChallenge : DailyChallengeRow where
  challengeId := 7
  challengeDate := "1970-01-01"
  quizId := 1
  quizVersionId := 2
  rewardXp := 10
  createdAt := 0
  expiresAt := 86400000
  totalQuestions := 1

theorem rotated_launchDay : Rotated (launchDay.rotate 0 0 7) launchChallenge where
  stands := by decide +kernel
  inserted := ⟨launchDay, 0, 0, (quiz_rotate launchDay 0 0 7).1.symm, by decide, by decide +kernel⟩

theorem fits_launchDay : Fits (launchDay.rotate 0 0 7).quiz launchChallenge.quizVersionId where
  positive := by decide +kernel
  distinct := by decide +kernel
  options := by decide +kernel
  oneCorrect := by decide +kernel

/-- The right answer, and it is refused. -/
theorem daily_challenge_unplayable_launchDay :
    ¬ ∃ responses w', PlayedRight (launchDay.rotate 0 0 7) launchChallenge 8
      [(⟨0, "event", "correlation"⟩, some (Uuid.text 4))] responses w' :=
  daily_challenge_unplayable rotated_launchDay fits_launchDay (by decide +kernel) 8
    (by decide +kernel) (by decide +kernel)

theorem daily_challenge_refused : ¬ ∀ (w : World) (row : DailyChallengeRow), Rotated w row →
    Fits w.quiz row.quizVersionId →
    1 ≤ w.quiz.countQuestionsByVersionId row.quizVersionId →
    ∀ (userId : Uuid) (submissions : List (Drawn × Option String)),
      submissions.length = row.totalQuestions →
      (∀ s ∈ submissions, utcDate s.1.now = row.challengeDate) →
      ∃ responses w', PlayedRight w row userId submissions responses w' := by
  intro h
  have hrefused : ((launchDay.rotate 0 0 7).submitAnswer ⟨0, "event", "correlation"⟩ 8
      ⟨0, some (Uuid.text 4)⟩).1 = .error (.notFound questionNotFoundMessage) := by decide +kernel
  exact not_playedRight hrefused [] (h _ _ rotated_launchDay fits_launchDay (by decide +kernel) 8
    [(⟨0, "event", "correlation"⟩, some (Uuid.text 4))] (by decide +kernel) (by decide +kernel))

end Runs

end QuizBackend.DailyChallenge
