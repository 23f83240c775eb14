import QuizBackend.Attempt.Invariant

/-!
# Answers and the score of a completed attempt

What an attempt scored is computed from its answers before the transaction that stores it, and
nothing keeps the answers still meanwhile: the status that `submitAnswer` reads inside its
transaction is not locked (although the row is called `locked`), and `deleteAnswer` does not look
at the status at all. So the stored score is that of the stored answers (`ScoredRight`) and the
answers of an attempt that has ended stay (`AnswersKept`) only in runs in which three kinds of
statement come in time (`Timely`): an answer is inserted, and an answer is removed, while the
attempt is not over yet, and a completion commits while the answers still score what it read.
`answers_freeze_iff` says that these are exactly the runs.
-/

namespace QuizBackend.Attempt

open Lib

def ScoringData.scorePercent (data : ScoringData) : Nat :=
  calculateScorePercent data.correctCount data.totalAnswers

/-- Every completed attempt has the count and the score of the answers stored for it. -/
def Db.ScoredRight (cat : Catalog) (db : Db) : Prop :=
  ∀ a row, db.completedRow a = some row →
    row.correctCount = some (db.getAttemptAnswerScoringData cat a).correctCount ∧
    row.scorePercent = some (db.getAttemptAnswerScoringData cat a).scorePercent

def Db.ended (db : Db) (a : Uuid) : Bool :=
  (db.quizAttempts.find? a).any fun row => row.status ≠ .started

/-- Answers of attempts that have ended stay. -/
def AnswersKept (s : State) (_ : Action) (s' : State) : Prop :=
  ∀ b, s.db.ended b = true → s'.db.answersOf b = s.db.answersOf b

/-- Answers go to attempts in progress, and a score is that of the answers there are. -/
def Write.Timely (cat : Catalog) (db : Db) : Write → Prop
  | .submitAnswer _ p => db.ended p.attemptId = false
  | .deleteAnswer attemptId questionId =>
    db.quizAttemptAnswers.find? (attemptId, questionId) = none ∨ db.ended attemptId = false
  | .completeAttempt _ p =>
    p.correctCount = (db.getAttemptAnswerScoringData cat p.attemptId).correctCount ∧
      p.scorePercent = (db.getAttemptAnswerScoringData cat p.attemptId).scorePercent
  | _ => True

instance (cat : Catalog) (db : Db) : (w : Write) → Decidable (w.Timely cat db)
  | .submitAnswer .. => inferInstanceAs (Decidable (_ = _))
  | .deleteAnswer .. => inferInstanceAs (Decidable (_ ∨ _))
  | .completeAttempt .. => inferInstanceAs (Decidable (_ ∧ _))
  | .nothing | .createAttempt .. | .startRoundAttempt .. | .abandonAttempt .. | .writeBack .. =>
    inferInstanceAs (Decidable True)

/-! ## Writes and the answers -/

def Write.answers : Write → Bool
  | .submitAnswer .. | .deleteAnswer .. => true
  | _ => false

section Answers

variable {cat : Catalog} {db : Db} {w : Write} {a b questionId : Uuid}

theorem ended_of_completedRow {row : AttemptRow} (h : db.completedRow a = some row) :
    db.ended a = true := by
  obtain ⟨hrow, hst⟩ := Option.filter_eq_some_iff.mp h
  rw [Db.ended, hrow]
  simp [of_decide_eq_true hst]

theorem answersOf_submit {d : Drawn} {p : AnswerParams}
    (hfree : db.quizAttemptAnswers.find? (p.attemptId, p.questionId) = none) (b : Uuid) :
    (db.apply (.submitAnswer d p)).answersOf b
      = db.answersOf b ++ if p.attemptId = b then [p.row d.id] else [] := by
  obtain ⟨t, ht⟩ := Table.insert?_isSome (r := p.row d.id) hfree
  simp only [Db.answersOf, Db.apply, Db.submitAnswer, ht, Option.getD_some,
    Table.rows_of_insert? ht, List.filter_append]
  by_cases hb : p.attemptId = b <;> simp [hb, AnswerParams.row]

theorem answersOf_delete (db : Db) (a questionId b : Uuid) :
    (db.apply (.deleteAnswer a questionId)).answersOf b
      = (db.answersOf b).filter fun row => row.key ≠ (a, questionId) := by
  simp only [Db.answersOf, Db.apply, Db.deleteAnswer, Table.erase, List.filter_filter]
  exact List.filter_congr fun row _ => Bool.and_comm _ _

theorem answersOf_delete_of_ne (hb : b ≠ a) :
    (db.apply (.deleteAnswer a questionId)).answersOf b = db.answersOf b := by
  rw [answersOf_delete]
  refine List.filter_eq_self.mpr ?_
  intro row hrow
  have hrow : row.attemptId = b := by simpa using (List.mem_filter.mp hrow).2
  simp [AttemptAnswerRow.key, hrow, hb]

theorem answersOf_delete_of_none
    (hnone : db.quizAttemptAnswers.find? (a, questionId) = none) :
    (db.apply (.deleteAnswer a questionId)).answersOf b = db.answersOf b := by
  rw [answersOf_delete]
  refine List.filter_eq_self.mpr ?_
  intro row hrow
  have hkey := Table.find?_eq_none_iff.mp hnone
  have hne : row.key ≠ (a, questionId) :=
    fun he => hkey (he ▸ List.mem_map_of_mem (List.mem_filter.mp hrow).1)
  simpa using hne

theorem answersOf_delete_ne {answer : AttemptAnswerRow}
    (hsome : db.quizAttemptAnswers.find? (a, questionId) = some answer) :
    (db.apply (.deleteAnswer a questionId)).answersOf a ≠ db.answersOf a := by
  have hkey : answer.key = (a, questionId) := Table.key_of_find? hsome
  have hattempt : answer.attemptId = a := congrArg Prod.fst hkey
  have hmem : answer ∈ db.answersOf a :=
    List.mem_filter.mpr ⟨Table.mem_of_find? hsome, by simpa using hattempt⟩
  intro hsame
  rw [← hsame, answersOf_delete, List.mem_filter] at hmem
  simp [hkey] at hmem

theorem answersOf_apply (hw : w.answers = false) : (db.apply w).answersOf b = db.answersOf b := by
  cases w with
  | submitAnswer | deleteAnswer => cases hw
  | _ => rfl

end Answers

/-! ## One step -/

section Steps

variable {cat : Catalog} {s s' : State} {a : Action} {w : Write} {es : List DomainEvent}

/-- Where the completed attempts and the answers of ended attempts stay, the scores stay right. -/
theorem Db.ScoredRight.of_kept {db db' : Db} (h : db.ScoredRight cat)
    (hrow : ∀ b, db'.completedRow b = db.completedRow b)
    (hans : ∀ b, db.ended b = true → db'.answersOf b = db.answersOf b) : db'.ScoredRight cat := by
  intro b row hb
  rw [hrow b] at hb
  have hsame : db'.getAttemptAnswerScoringData cat b = db.getAttemptAnswerScoringData cat b := by
    rw [Db.getAttemptAnswerScoringData, hans b (ended_of_completedRow hb),
      Db.getAttemptAnswerScoringData]
  rw [hsame]
  exact h b row hb

/-- Good before, a step is good and leads to a good state exactly when its write comes in time. -/
theorem timely_iff (hinv : Inv cat s) (hright : s.db.ScoredRight cat)
    (h : step cat s a = some s') :
    (s.writes cat a).Timely cat s.db ↔ s'.db.ScoredRight cat ∧ AnswersKept s a s' := by
  obtain ⟨hdb, es, -, hlic⟩ := step_licensed h
  rw [hdb, AnswersKept, hdb]
  generalize s.writes cat a = w at hlic
  -- for a write that completes nothing, the answers decide
  have hother : w.completes = none →
      ((s.db.apply w).ScoredRight cat ∧
        (∀ b, s.db.ended b = true → (s.db.apply w).answersOf b = s.db.answersOf b) ↔
      ∀ b, s.db.ended b = true → (s.db.apply w).answersOf b = s.db.answersOf b) :=
    fun hw => and_iff_right_of_imp (hright.of_kept (hinv.completedRow_apply hlic hw))
  cases hlic with
  | submitAnswer request free =>
    rename_i i d p
    rw [hother rfl]
    constructor
    · intro hopen b hb
      have hne : p.attemptId ≠ b := by
        rintro rfl
        simp [show s.db.ended p.attemptId = false from hopen] at hb
      rw [answersOf_submit free, if_neg hne, List.append_nil]
    · intro hkept
      show s.db.ended p.attemptId = false
      by_contra hended
      have hsame := hkept p.attemptId (by simpa using hended)
      rw [answersOf_submit free, if_pos rfl] at hsame
      simp at hsame
  | deleteAnswer request =>
    rename_i i d attemptId questionId
    rw [hother rfl]
    constructor
    · rintro (hnone | hopen) b hb
      · exact answersOf_delete_of_none hnone
      · refine answersOf_delete_of_ne ?_
        rintro rfl
        rw [hopen] at hb
        cases hb
    · intro hkept
      cases hfind : s.db.quizAttemptAnswers.find? (attemptId, questionId) with
      | none => exact .inl hfind
      | some answer =>
        refine .inr ?_
        by_contra hended
        exact answersOf_delete_ne hfind (hkept attemptId (by simpa using hended))
  | completeAttempt request fresh =>
    rename_i i d p n
    obtain ⟨row, hrow, hst, -⟩ := hinv.completing request
    have hkept : ∀ b, (s.db.apply (.completeAttempt d p)).answersOf b = s.db.answersOf b :=
      fun b => answersOf_apply rfl
    have hdata : ∀ b, (s.db.apply (.completeAttempt d p)).getAttemptAnswerScoringData cat b
        = s.db.getAttemptAnswerScoringData cat b := fun b => by
      rw [Db.getAttemptAnswerScoringData, hkept, Db.getAttemptAnswerScoringData]
    rw [and_iff_left fun b _ => hkept b]
    constructor
    · rintro ⟨hcorrect, hscore⟩ b r hb
      rw [completedRow_complete hrow] at hb
      rw [hdata b]
      split at hb
      · rename_i hbp
        cases hb
        subst hbp
        exact ⟨congrArg some hcorrect, congrArg some hscore⟩
      · exact hright b r hb
    · intro hright'
      have hnow := hright' p.attemptId (setCompleted p row)
        (by rw [completedRow_complete hrow, if_pos rfl])
      rw [hdata] at hnow
      exact ⟨Option.some.inj hnow.1, Option.some.inj hnow.2⟩
  | _ =>
    rw [hother rfl]
    exact iff_of_true trivial fun b _ => answersOf_apply rfl

end Steps

/-! ## Whole runs -/

/-- **The freeze, exactly.** In a run of any requests from a database without attempts, every
completed attempt has the score of its stored answers in every state, and no step changes the
answers of an attempt that has ended, if and only if every write of the run comes in time. -/
theorem answers_freeze_iff (cat : Catalog)
    (users : Table Uuid Streak.UserRow Streak.UserRow.userId)
    (roundParticipants : Table (Uuid × Uuid) RoundParticipantRow RoundParticipantRow.key)
    (as : List Action) (s : State)
    (h : exec (step cat) (State.initial users roundParticipants) as = some s) :
    (Always (step cat) (fun s => s.db.ScoredRight cat)
        (State.initial users roundParticipants) as ∧
      EachStep (step cat) AnswersKept (State.initial users roundParticipants) as) ↔
    Along (step cat) (fun s a => (s.writes cat a).Timely cat s.db)
      (State.initial users roundParticipants) as := by
  have hinit : (State.initial users roundParticipants).db.ScoredRight cat := by
    intro a row hrow
    cases hrow
  exact along_iff_good (I := Inv cat) (fun _ _ _ hinv hstep => hinv.next hstep)
    (fun _ _ _ hinv hright hstep => timely_iff hinv hright hstep) h (Inv.initial cat _ _) hinit

def changedMind : List Action :=
  .arrive (.start 1 player .solo none 0) :: runs 0 2 0 ++
  .arrive (.submit player ⟨attemptNo 0, 3, some 5, 1, none⟩) :: runs 1 3 1 ++
  .arrive (.withdraw (attemptNo 0) 3 player) :: runs 2 3 2 ++
  .arrive (.submit player ⟨attemptNo 0, 3, some 4, 2, none⟩) :: runs 3 3 3 ++
  .arrive (.complete (attemptNo 0) player 3) :: runs 4 5 4

theorem answers_freeze_after_changed_mind :
    Always (step oneQuiz) (fun s => s.db.ScoredRight oneQuiz) lobby changedMind ∧
      EachStep (step oneQuiz) AnswersKept lobby changedMind := by
  obtain ⟨s, hs⟩ : ∃ s, exec (step oneQuiz) lobby changedMind = some s :=
    Option.isSome_iff_exists.mp (by decide +kernel)
  exact (answers_freeze_iff oneQuiz _ _ changedMind s hs).mpr (by decide +kernel)

/-- The player takes back a right answer: the withdrawal reads the attempt as `started` and finds
the answer, the attempt is completed, and the `DELETE` runs after that. -/
def lateWithdrawal : List Action :=
  .arrive (.start 1 player .solo none 0) :: runs 0 2 0 ++
  .arrive (.submit player ⟨attemptNo 0, 3, some 4, 1, none⟩) :: runs 1 3 1 ++
  .arrive (.withdraw (attemptNo 0) 3 player) :: runs 2 2 2 ++
  .arrive (.complete (attemptNo 0) player 2) :: runs 3 5 3

theorem late_withdrawal_unscores : ∃ m s,
    exec (step oneQuiz) lobby lateWithdrawal = some m ∧
      exec (step oneQuiz) lobby (lateWithdrawal ++ runs 2 1 2) = some s ∧
      m.db.status (attemptNo 0) = some .completed ∧
      s.db.answersOf (attemptNo 0) ≠ m.db.answersOf (attemptNo 0) ∧
      ¬ s.db.ScoredRight oneQuiz := by
  obtain ⟨m, hm, hread⟩ : ∃ m, exec (step oneQuiz) lobby lateWithdrawal = some m ∧
      (m.db.status (attemptNo 0), (m.db.answersOf (attemptNo 0)).length)
      = (some .completed, 1) := Option.map_eq_some_iff.mp (by decide +kernel)
  obtain ⟨s, hs, hread'⟩ : ∃ s,
      exec (step oneQuiz) lobby (lateWithdrawal ++ runs 2 1 2) = some s ∧
      ((s.db.answersOf (attemptNo 0)).length,
        (s.db.completedRow (attemptNo 0)).map (·.correctCount),
        (s.db.getAttemptAnswerScoringData oneQuiz (attemptNo 0)).correctCount)
      = (0, some (some 1), 0) := Option.map_eq_some_iff.mp (by decide +kernel)
  simp only [Prod.mk.injEq] at hread hread'
  obtain ⟨hstatus, hbefore⟩ := hread
  obtain ⟨hafter, hstored, hcorrect⟩ := hread'
  refine ⟨m, s, hm, hs, hstatus, ?_, ?_⟩
  · intro hsame
    rw [hsame, hbefore] at hafter
    cases hafter
  · intro hright
    obtain ⟨row, hrow, hcount⟩ := Option.map_eq_some_iff.mp hstored
    have hscored := (hright _ row hrow).1
    rw [hcount, hcorrect] at hscored
    cases hscored

end QuizBackend.Attempt
