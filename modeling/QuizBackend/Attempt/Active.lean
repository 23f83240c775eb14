import QuizBackend.Attempt.Invariant

/-!
# One active attempt per user and version

`startAttempt` looks for a started attempt of the user on the version and inserts one when it
finds none; the index over these two columns is not unique, and `startRoundAttemptTx` does not
look at all. The rule that there is at most one (`OneActive`) is therefore a property of the
schedule: it holds throughout a run exactly when every `INSERT` into `quiz_attempts` happens to run
at a moment without an active attempt (`oneActive_iff`). Two requests that both look before either
inserts break it.
-/

namespace QuizBackend.Attempt

open Lib

/-- No two attempts of one user on one version are `started`. -/
def Db.OneActive (db : Db) : Prop :=
  ∀ x ∈ db.quizAttempts.rows, ∀ y ∈ db.quizAttempts.rows, x.status = .started →
    y.status = .started → x.userId = y.userId → x.quizVersionId = y.quizVersionId →
    x.attemptId = y.attemptId

instance (db : Db) : Decidable db.OneActive := inferInstanceAs (Decidable (∀ _ ∈ _, _))

/-- What is started is not active already. -/
def StartsFree (cat : Catalog) (s : State) (a : Action) : Prop :=
  ∀ row ∈ (s.writes cat a).opens,
    s.db.getActiveAttemptByUserAndVersion row.userId row.quizVersionId = none

instance (cat : Catalog) (s : State) (a : Action) : Decidable (StartsFree cat s a) :=
  inferInstanceAs (Decidable (∀ _ ∈ _, _))

theorem getActive_eq_none_iff {db : Db} {userId quizVersionId : Uuid} :
    db.getActiveAttemptByUserAndVersion userId quizVersionId = none ↔
      ∀ row ∈ db.quizAttempts.rows, row.userId = userId → row.quizVersionId = quizVersionId →
        row.status ≠ .started := by
  simp [Db.getActiveAttemptByUserAndVersion]

theorem started_apply {db : Db} {w : Write} (hf : w.Fresh db) {row : AttemptRow}
    (hmem : row ∈ (db.apply w).quizAttempts.rows) (hst : row.status = .started) :
    w.opens = some row ∨ row ∈ db.quizAttempts.rows := by
  cases ho : w.opens with
  | some new =>
    have hrows := Table.rows_of_insert? (insert?_apply_open ho (hf new ho))
    rw [hrows, List.mem_append, List.mem_singleton] at hmem
    rcases hmem with hmem | rfl
    · exact .inr hmem
    · exact .inl rfl
  | none =>
    cases hc : w.closes with
    | none =>
      rw [quizAttempts_apply ho hc] at hmem
      exact .inr hmem
    | some c =>
      rw [quizAttempts_apply_close hc] at hmem
      obtain ⟨old, hold, rfl⟩ := Table.mem_modify.mp hmem
      split at hst
      · cases w <;> first | cases hst | cases hc
      · rw [if_neg ‹_›]
        exact .inr hold

theorem mem_apply_of_opens {db : Db} {w : Write} {new row : AttemptRow} (ho : w.opens = some new)
    (hf : w.Fresh db) (hmem : row ∈ db.quizAttempts.rows ∨ row = new) :
    row ∈ (db.apply w).quizAttempts.rows := by
  rw [Table.rows_of_insert? (insert?_apply_open ho (hf new ho)), List.mem_append,
    List.mem_singleton]
  exact hmem

/-- From a state with at most one active attempt each, a step keeps it so exactly when it inserts
nothing or inserts where there is none. -/
theorem startsFree_iff {cat : Catalog} {s s' : State} {a : Action} (hone : s.db.OneActive)
    (h : step cat s a = some s') : StartsFree cat s a ↔ s'.db.OneActive := by
  obtain ⟨hdb, es, -, hlic⟩ := step_licensed h
  have hf := hlic.fresh
  rw [hdb, StartsFree]
  generalize s.writes cat a = w at hf
  constructor
  · intro hfree x hx y hy hxs hys huser hversion
    have hnew : ∀ new ∈ w.opens, ∀ old ∈ s.db.quizAttempts.rows, old.userId = new.userId →
        old.quizVersionId = new.quizVersionId → old.status ≠ .started :=
      fun new ho => getActive_eq_none_iff.mp (hfree new ho)
    rcases started_apply hf hx hxs with hxo | hxm
    · rcases started_apply hf hy hys with hyo | hym
      · rw [hxo, Option.some.injEq] at hyo
        rw [hyo]
      · exact absurd hys (hnew x hxo y hym huser.symm hversion.symm)
    · rcases started_apply hf hy hys with hyo | hym
      · exact absurd hxs (hnew y hyo x hxm huser hversion)
      · exact hone x hxm y hym hxs hys huser hversion
  · intro hone' new ho
    refine getActive_eq_none_iff.mpr ?_
    intro old hold huser hversion hst
    -- the active attempt and the new one would both be there afterwards
    have hsame := hone' old (mem_apply_of_opens ho hf (.inl hold)) new
      (mem_apply_of_opens ho hf (.inr rfl)) hst (Write.opens_status ho) huser hversion
    have hfound := Table.find?_of_mem hold
    rw [hsame, hf new ho] at hfound
    cases hfound

/-- **One active attempt, exactly.** In a run of any requests from a database without attempts, no
state has two `started` attempts of one user on one version if and only if each attempt was
inserted — by `startAttempt` or by `startRoundAttemptTx` — at a moment at which
`getActiveAttemptByUserAndVersion` finds none. -/
theorem oneActive_iff (cat : Catalog) (users : Table Uuid Streak.UserRow Streak.UserRow.userId)
    (roundParticipants : Table (Uuid × Uuid) RoundParticipantRow RoundParticipantRow.key)
    (as : List Action) (s : State)
    (h : exec (step cat) (State.initial users roundParticipants) as = some s) :
    Always (step cat) (·.db.OneActive) (State.initial users roundParticipants) as ↔
      Along (step cat) (StartsFree cat) (State.initial users roundParticipants) as := by
  have hinit : (State.initial users roundParticipants).db.OneActive := by
    intro x hx
    cases hx
  exact along_iff_always (I := fun _ => True) (fun _ _ _ _ _ => trivial)
    (fun _ _ _ _ hone hstep => startsFree_iff hone hstep) h trivial hinit

def startAgain : List Action :=
  .arrive (.start 1 player .solo none 0) :: runs 0 2 0 ++
  .arrive (.abandon (attemptNo 0) player 1) :: runs 1 3 0 ++
  .arrive (.start 1 player .solo none 2) :: runs 2 2 1

theorem oneActive_when_started_again :
    Always (step oneQuiz) (·.db.OneActive) lobby startAgain := by
  obtain ⟨s, hs⟩ : ∃ s, exec (step oneQuiz) lobby startAgain = some s :=
    Option.isSome_iff_exists.mp (by decide +kernel)
  exact (oneActive_iff oneQuiz _ _ startAgain s hs).mpr (by decide +kernel)

/-- Two requests of one user look for an active attempt before either inserts its own. -/
def twoStarts : List Action :=
  [.arrive (.start 1 player .solo none 0), .arrive (.start 1 player .solo none 0)] ++
  runs 0 1 0 ++ runs 1 1 1 ++ runs 0 1 0 ++ runs 1 1 1

theorem two_active_attempts : ∃ s,
    exec (step oneQuiz) lobby twoStarts = some s ∧ ¬ s.db.OneActive := by
  refine exists_of_read (fun s => decide s.db.OneActive) false (by decide +kernel)
    fun s hs hread => ?_
  exact of_decide_eq_false hread

end QuizBackend.Attempt
