import QuizBackend.Attempt.Invariant

/-!
# Milestones

A completion counts the completed attempts of its user in one statement of its transaction and
updates the status of its attempt in the next, and what it announces is the threshold that lies one
above that count. The source takes the common transaction for a protection against overlapping
completions; under READ COMMITTED it is none. Each statement sees what was committed when it began,
so two transactions of one user can both count before either commits.

`MilestonesOnce` is what the events should say: each threshold once when it has been reached, and
nothing else. `milestones_once_iff` says exactly for which runs they do. The count a transaction
has read must still be right when it commits, except that an error nobody can see is harmless: when
neither the count announced nor the count reached is a threshold.
-/

namespace QuizBackend.Attempt

open Lib DomainEvent

def DomainEvent.isMilestone (userId : Uuid) (m : Nat) : DomainEvent → Bool
  | .quizMilestone u _ milestone _ => u = userId ∧ milestone = m
  | .attemptCompleted _ => false

/-- Each threshold passed is announced once, and no other. -/
def MilestonesOnce (s : State) : Prop :=
  ∀ userId m, s.emitted.countP (isMilestone userId m)
    = if m ∈ quizCompletionMilestones ∧ m ≤ s.db.completedCount userId then 1 else 0

/-- The completion the action is about to commit announces what it should: the count it has read
is the current one, or neither count leads to a threshold. -/
def CountsCurrent (s : State) (a : Action) : Prop :=
  ∀ c ∈ s.commits a,
    c.2 = s.db.completedCount c.1.userId ∨
      (c.2 + 1 ∉ quizCompletionMilestones ∧
        s.db.completedCount c.1.userId + 1 ∉ quizCompletionMilestones)

instance (s : State) (a : Action) : Decidable (CountsCurrent s a) :=
  inferInstanceAs (Decidable (∀ _ ∈ _, _))

/-! ## One step -/

theorem find?_milestone (k : Nat) :
    (quizCompletionMilestones.find? fun m => k = m)
      = if k ∈ quizCompletionMilestones then some k else none := by
  cases h : quizCompletionMilestones.find? fun m => k = m with
  | none =>
    have hnot : k ∉ quizCompletionMilestones := by
      intro hk
      simpa using List.find?_eq_none.mp h k hk
    rw [if_neg hnot]
  | some m =>
    have hm : k = m := by simpa using List.find?_some h
    subst hm
    rw [if_pos (List.mem_of_find?_eq_some h)]

theorem countP_completionEvents (p : CompletionParams) (n : Nat) (userId : Uuid) (m : Nat) :
    (completionEvents p n).countP (isMilestone userId m)
      = if p.userId = userId ∧ n + 1 = m ∧ m ∈ quizCompletionMilestones then 1 else 0 := by
  simp only [completionEvents, find?_milestone]
  by_cases hk : n + 1 ∈ quizCompletionMilestones
  · by_cases hm : n + 1 = m
    · subst hm
      simp [hk, isMilestone, List.countP_cons]
    · simp [hk, hm, isMilestone]
  · by_cases hm : n + 1 = m
    · subst hm
      simp [hk, isMilestone]
    · simp [hk, hm, isMilestone]

theorem milestonesOnce_of_no_commit {cat : Catalog} {s s' : State} {a : Action}
    (hinv : Inv cat s) (hc : s.commits a = none) (h : step cat s a = some s')
    (hone : MilestonesOnce s) : MilestonesOnce s' := by
  obtain ⟨hdb, es, hemitted, hlic⟩ := step_licensed h
  obtain ⟨hes, hne⟩ := hlic.no_commit hc
  have hw : (s.writes cat a).completes = none := by
    cases hw : s.writes cat a with
    | completeAttempt d p => exact absurd hw (hne d p)
    | _ => rfl
  intro userId m
  have hcount : s'.db.completedCount userId = s.db.completedCount userId := by
    rw [hdb]
    exact hinv.countP_apply hlic hw fun row hq => (of_decide_eq_true hq).2
  rw [hemitted, hes, List.append_nil, hcount]
  exact hone userId m

theorem completedCount_complete {cat : Catalog} {s : State} {d : Drawn} {i n : Nat}
    {p : CompletionParams} (hinv : Inv cat s)
    (hr : s.requests[i]? = some (.completeCommit p n)) (userId : Uuid) :
    (s.db.apply (.completeAttempt d p)).completedCount userId
      = s.db.completedCount userId + if p.userId = userId then 1 else 0 := by
  obtain ⟨row, hrow, hst, huser, -⟩ := hinv.completing hr
  rw [Db.completedCount, countP_complete (fun row hq => (of_decide_eq_true hq).2) hrow hst,
    Db.completedCount]
  simp [setCompleted, huser]

theorem countsCurrent_iff {cat : Catalog} {s s' : State} {a : Action} (hinv : Inv cat s)
    (hone : MilestonesOnce s) (h : step cat s a = some s') :
    CountsCurrent s a ↔ MilestonesOnce s' := by
  cases hc : s.commits a with
  | none =>
    simp only [CountsCurrent, hc, Option.not_mem_none, IsEmpty.forall_iff, implies_true, true_iff]
    exact milestonesOnce_of_no_commit hinv hc h hone
  | some c =>
    obtain ⟨i, d, rfl, hr⟩ := commits_eq_some_iff.mp hc
    obtain ⟨hdb, hemitted⟩ := step_commit hr h
    obtain ⟨p, n⟩ := c
    -- both sides of `MilestonesOnce`, after the step
    have hafter : MilestonesOnce s' ↔ ∀ userId m,
        (if m ∈ quizCompletionMilestones ∧ m ≤ s.db.completedCount userId then 1 else 0)
          + (if p.userId = userId ∧ n + 1 = m ∧ m ∈ quizCompletionMilestones then 1 else 0)
        = if m ∈ quizCompletionMilestones ∧
            m ≤ s.db.completedCount userId + (if p.userId = userId then 1 else 0)
          then 1 else 0 := by
      refine forall_congr' ?_
      intro userId
      refine forall_congr' ?_
      intro m
      rw [hemitted, List.countP_append, hone userId m, countP_completionEvents, hdb,
        completedCount_complete hinv hr]
    rw [hafter]
    simp only [CountsCurrent, hc, Option.mem_def, Option.some.injEq, forall_eq']
    constructor
    · intro hcur userId m
      by_cases hu : p.userId = userId
      · subst hu
        by_cases hm : m ∈ quizCompletionMilestones
        · have hreach : n = s.db.completedCount p.userId ∨
              (n + 1 ≠ m ∧ s.db.completedCount p.userId + 1 ≠ m) :=
            hcur.imp_right fun hno => ⟨fun he => hno.1 (he ▸ hm), fun he => hno.2 (he ▸ hm)⟩
          simp only [hm, true_and, and_true, if_true]
          split_ifs <;> omega
        · simp [hm]
      · simp [hu]
    · intro hall
      by_cases hn : n = s.db.completedCount p.userId
      · exact .inl hn
      · refine .inr ⟨fun hm => hn ?_, fun hm => hn ?_⟩
        · have hat := hall p.userId (n + 1)
          simp only [hm, true_and, and_true, if_true] at hat
          split_ifs at hat <;> omega
        · have hat := hall p.userId (s.db.completedCount p.userId + 1)
          simp only [hm, true_and, and_true, if_true] at hat
          split_ifs at hat <;> omega

/-! ## Whole runs -/

/-- **Milestones, exactly.** In a run of any requests from a database without attempts, the events
announce in every state just the thresholds passed, each once, if and only if at every commit of a
completion the count its transaction has read is the user's current count, or neither of the two
leads to a threshold. -/
theorem milestones_once_iff (cat : Catalog)
    (users : Table Uuid Streak.UserRow Streak.UserRow.userId)
    (roundParticipants : Table (Uuid × Uuid) RoundParticipantRow RoundParticipantRow.key)
    (as : List Action) (s : State)
    (h : exec (step cat) (State.initial users roundParticipants) as = some s) :
    Always (step cat) MilestonesOnce (State.initial users roundParticipants) as ↔
      Along (step cat) CountsCurrent (State.initial users roundParticipants) as := by
  have hinit : MilestonesOnce (State.initial users roundParticipants) := by
    intro userId m
    have hpos : ¬ (m ∈ quizCompletionMilestones ∧ m ≤ 0) := by
      rintro ⟨hm, hle⟩
      rw [Nat.le_zero.mp hle] at hm
      simp [quizCompletionMilestones] at hm
    exact (if_neg hpos).symm
  exact along_iff_always (I := Inv cat) (fun _ _ _ hinv hstep => hinv.next hstep)
    (fun _ _ _ hinv hone hstep => countsCurrent_iff hinv hone hstep) h (Inv.initial cat _ _) hinit

/-- Ten quizzes, one after the other. -/
theorem milestones_once_in_sequence :
    Always (step oneQuiz) MilestonesOnce lobby ((List.range 10).flatMap played) := by
  obtain ⟨s, hs⟩ : ∃ s, exec (step oneQuiz) lobby ((List.range 10).flatMap played) = some s :=
    Option.isSome_iff_exists.mp (by decide +kernel)
  exact (milestones_once_iff oneQuiz _ _ _ s hs).mpr (by decide +kernel)

/-- With a second quiz, published as version `8`. -/
def twoQuizzes : Catalog :=
  { oneQuiz with
    publishedVersionId := fun quizId => if quizId = 6 then some 8 else oneQuiz.publishedVersionId quizId
    version := fun id => if id = 8 then some ⟨6, 50, 20⟩ else oneQuiz.version id }

/-- After eight attempts the player completes two more at the same time, one of each quiz: both
transactions count eight before either commits. -/
def tenthAtOnce : List Action :=
  (List.range 8).flatMap played ++
  Action.arrive (.start 1 player .solo none 0) :: runs 16 2 8 ++
  Action.arrive (.start 6 player .solo none 0) :: runs 17 2 9 ++
  [Action.arrive (.complete (attemptNo 8) player 1), .arrive (.complete (attemptNo 9) player 1)] ++
  runs 18 3 8 ++ runs 19 3 9 ++ runs 18 2 8 ++ runs 19 2 9

theorem tenth_milestone_is_skipped : ∃ s,
    exec (step twoQuizzes) lobby tenthAtOnce = some s ∧ s.db.completedCount player.sub = 10 ∧
      s.emitted.countP (DomainEvent.isMilestone player.sub 10) = 0 ∧ ¬ MilestonesOnce s := by
  refine exists_of_read
    (fun s => (s.db.completedCount player.sub,
      s.emitted.countP (DomainEvent.isMilestone player.sub 10)))
    (10, 0) (by decide +kernel) fun s hs hread => ?_
  obtain ⟨hcount, hnone⟩ := Prod.mk.inj hread
  refine ⟨hcount, hnone, ?_⟩
  intro hone
  have hten := hone player.sub 10
  rw [hnone, hcount, if_pos (by decide)] at hten
  cases hten

end QuizBackend.Attempt
