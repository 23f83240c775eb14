import QuizBackend.Quiz.Effects

/-!
# The numbers of a quiz's versions

A request that creates a version reads the largest number of the quiz and inserts a row with the next
one, in two statements and without a lock. By the time of the insert the number may be taken; then the
unique index refuses the row. It cannot be too large: numbers are only added, so what was the next
number once is at most the next number now (`NumberOk`). A number that is neither taken nor too large
is the next one.
-/

namespace QuizBackend.Quiz

open Lib Request
open Attempt (JwtPayload)

/-! ## Statements -/

/-- The numbers of every quiz are 1, 2, …, n, in the order in which the versions were created. -/
def Gapless (db : Db) : Prop :=
  ∀ quizId, db.versionNumbers quizId
    = (List.range (db.versionNumbers quizId).length).map fun i : Nat => (i : Int) + 1

/-- The points of `createQuizWithInitialVersion`, `createQuizVersion` and
`createDraftFromSourceVersion`. -/
def Request.createsVersion : Request → Bool
  | .createQuiz _ | .createVersion .. | .createVersionFrom .. | .nextNumber _ => true
  | .insertVersion .. => true
  | _ => false

/-- A step of such a request succeeds, or it changes no row and the request goes on or fails. -/
def FailsClean (s : State) (a : Action) (s' : State) : Prop :=
  ∀ i r, (a = .abort i ∨ ∃ d, a = .advance i d) → s.requests[i]? = some r → r.createsVersion = true →
    s'.requests[i]? = some .done ∨
      s'.db = s.db ∧ ∃ r', s'.requests[i]? = some r' ∧
        (r'.createsVersion = true ∨ ∃ e, r' = .failed e)

/-! ## The numbers after a write -/

def QuizVersionRow.number (row : QuizVersionRow) : Uuid × Int := (row.quizId, row.versionNumber)

def Db.numbers (db : Db) : List (Uuid × Int) := db.quizVersions.rows.map (·.number)

theorem versionNumbers_eq (db : Db) (quizId : Uuid) :
    db.versionNumbers quizId = (db.numbers.filter fun x => x.1 = quizId).map (·.2) := by
  simp only [Db.versionNumbers, Db.numbers, List.filter_map, List.map_map]
  rfl

theorem numbers_map {rows : List QuizVersionRow} {f : QuizVersionRow → QuizVersionRow}
    (h : ∀ row, (f row).number = row.number) :
    (rows.map f).map (·.number) = rows.map (·.number) := by
  rw [List.map_map]
  exact List.map_congr_left fun row _ => h row

theorem number_archiveOther (quizId quizVersionId : Uuid) (nowIso : Int) (row : QuizVersionRow) :
    (row.archiveOther quizId quizVersionId nowIso).number = row.number := by
  unfold QuizVersionRow.archiveOther
  split <;> rfl

theorem numbers_archiveOthers (db : Db) (quizId quizVersionId : Uuid) (nowIso : Int) :
    (db.archiveOthers quizId quizVersionId nowIso).numbers = db.numbers :=
  numbers_map (number_archiveOther quizId quizVersionId nowIso)

theorem numbers_publishDraft (db : Db) (quizId quizVersionId : Uuid) (nowIso : Int) :
    (db.publishDraft quizId quizVersionId nowIso).numbers = db.numbers := by
  refine numbers_map ?_
  intro row
  split <;> rfl

theorem numbers_publish (db : Db) (quizId quizVersionId : Uuid) (nowIso : Int) :
    (db.publishQuizVersionAndSetQuiz quizId quizVersionId nowIso).numbers = db.numbers := by
  unfold Db.publishQuizVersionAndSetQuiz
  split
  · rfl
  · split
    · rfl
    · split
      · rw [numbers_publishDraft, numbers_archiveOthers]
      · exact numbers_archiveOthers db quizId quizVersionId nowIso

variable {w : Write} {r : Request} {d : Drawn} {p : Progress} {row : QuizVersionRow}

/-- **A write adds the number of the version it inserts**, and changes no other. -/
theorem numbers_apply {db : Db} (h : Licensed db w) :
    (db.apply w).numbers = db.numbers ++ (w.newVersion.map (·.number)).toList := by
  have hnew : ∀ row : QuizVersionRow, db.quizVersions.find? row.quizVersionId = none →
      ((db.quizVersions.insert? row).getD db.quizVersions).rows.map (·.number)
        = db.numbers ++ [row.number] := by
    intro row hfresh
    obtain ⟨t, ht⟩ := Table.insert?_isSome hfresh
    rw [ht, Option.getD_some, Table.rows_of_insert? ht, List.map_append, List.map_singleton]
    rfl
  cases w with
  | createQuizWithInitialVersion quiz version => exact hnew version h.2.1
  | insertVersion row => exact hnew row h.1
  | updateQuizVersion quizVersionId settings nowIso =>
    refine Eq.trans ?_ (List.append_nil _).symm
    refine numbers_map ?_
    intro row
    split <;> rfl
  | publishQuizVersionAndSetQuiz quizId quizVersionId nowIso =>
    exact (numbers_publish db quizId quizVersionId nowIso).trans (List.append_nil _).symm
  | _ => exact (List.append_nil _).symm

theorem versionNumbers_apply {db : Db} (h : Licensed db w) (quizId : Uuid) :
    (db.apply w).versionNumbers quizId = db.versionNumbers quizId ++
      ((w.newVersion.filter fun row => row.quizId = quizId).map (·.versionNumber)).toList := by
  rw [versionNumbers_eq, versionNumbers_eq, numbers_apply h, List.filter_append, List.map_append]
  cases w.newVersion with
  | none => rfl
  | some row =>
    by_cases hrow : row.quizId = quizId
    · simp [QuizVersionRow.number, hrow, Option.filter_some]
    · simp [QuizVersionRow.number, hrow, Option.filter_some]

/-! ## The next number -/

def NumberOk (db : Db) : Request → Prop
  | .insertVersion v versionNumber =>
    1 ≤ versionNumber ∧ versionNumber ≤ (db.versionNumbers v.quizId).length + 1
  | _ => True

theorem foldl_max_range (n : Nat) :
    ((List.range n).map fun i : Nat => (i : Int) + 1).foldl max 0 = n := by
  induction n with
  | zero => rfl
  | succ n ih =>
    rw [List.range_succ, List.map_append, List.foldl_append, ih]
    show max (n : Int) ((n : Int) + 1) = ((n + 1 : Nat) : Int)
    omega

theorem getNextVersionNumber_eq {db : Db} (h : Gapless db) (quizId : Uuid) :
    db.getNextVersionNumber quizId = (db.versionNumbers quizId).length + 1 := by
  rw [Db.getNextVersionNumber, h quizId, foldl_max_range]
  simp

theorem mem_versionNumbers_iff {db : Db} {quizId : Uuid} {k : Int} :
    k ∈ db.versionNumbers quizId ↔
      ∃ row ∈ db.quizVersions.rows, row.quizId = quizId ∧ row.versionNumber = k := by
  simp [Db.versionNumbers, and_assoc]

/-- **A number that is free and not too large is the next one.** -/
theorem eq_next_of_numberFree {db : Db} {quizId : Uuid} {k : Int} (h : Gapless db)
    (hfree : db.NumberFree quizId k) (hpos : 1 ≤ k)
    (hle : k ≤ (db.versionNumbers quizId).length + 1) :
    k = (db.versionNumbers quizId).length + 1 := by
  refine Int.le_antisymm hle (Int.not_lt.mp fun hlt => ?_)
  have hmem : k ∈ db.versionNumbers quizId := by
    rw [h quizId, List.mem_map]
    exact ⟨(k - 1).toNat, List.mem_range.mpr (by omega), by omega⟩
  obtain ⟨row, hrow, hquiz, hnumber⟩ := mem_versionNumbers_iff.mp hmem
  exact hfree row hrow hquiz hnumber

theorem range_append_next (n : Nat) :
    ((List.range n).map fun i : Nat => (i : Int) + 1) ++ [(n : Int) + 1]
      = (List.range (n + 1)).map fun i : Nat => (i : Int) + 1 := by
  rw [List.range_succ, List.map_append, List.map_singleton]

theorem Gapless.apply {db : Db} (h : Gapless db) (hl : Licensed db w)
    (hnext : ∀ row, w.newVersion = some row → row.versionNumber = (db.versionNumbers row.quizId).length + 1) :
    Gapless (db.apply w) := by
  intro quizId
  rw [versionNumbers_apply hl]
  cases hw : w.newVersion with
  | none =>
    rw [Option.filter_none, Option.map_none, Option.toList_none, List.append_nil]
    exact h quizId
  | some row =>
    by_cases hquiz : row.quizId = quizId
    · subst hquiz
      rw [Option.filter_some, if_pos (decide_eq_true rfl), Option.map_some, Option.toList_some,
        List.length_append, List.length_singleton, hnext row hw]
      generalize hn : (db.versionNumbers row.quizId).length = n
      rw [h row.quizId, hn]
      exact range_append_next n
    · rw [Option.filter_some, if_neg (by simpa using hquiz), Option.map_none, Option.toList_none,
        List.append_nil]
      exact h quizId

theorem length_versionNumbers_le {db : Db} (h : Licensed db w) (quizId : Uuid) :
    (db.versionNumbers quizId).length ≤ ((db.apply w).versionNumbers quizId).length := by
  rw [versionNumbers_apply h, List.length_append]
  exact Nat.le_add_right _ _

theorem NumberOk.apply {db : Db} (h : Licensed db w) (hr : NumberOk db r) :
    NumberOk (db.apply w) r := by
  cases r with
  | insertVersion v versionNumber =>
    have hle := length_versionNumbers_le h v.quizId
    exact ⟨hr.1, by have := hr.2; omega⟩
  | _ => trivial

theorem numberOk_next {db : Db} (h : Gapless db) (hnext : r.next db d = some p) :
    NumberOk db p.request := by
  cases r with
  | nextNumber v =>
    cases hnext
    show 1 ≤ db.getNextVersionNumber v.quizId ∧ _
    rw [getNextVersionNumber_eq h]
    exact ⟨by omega, Int.le_refl _⟩
  | insertQuestion quizVersionId user question nowIso =>
    obtain ⟨result, -, rfl⟩ := Option.map_eq_some_iff.mp hnext
    cases result <;> trivial
  | insertQuestions quizVersionId user questions nowIso rowResults =>
    cases questions with
    | nil =>
      cases hnext
      trivial
    | cons question questions =>
      simp only [next, insertQuestionsRound] at hnext
      split at hnext
      · cases hnext
        trivial
      · obtain ⟨result, -, rfl⟩ := Option.map_eq_some_iff.mp hnext
        cases result <;> trivial
  | createQuiz payload =>
    simp only [next] at hnext
    repeat' split at hnext
    all_goals
      cases hnext
      try trivial
  | insertVersion v versionNumber =>
    simp only [next] at hnext
    repeat' split at hnext
    all_goals
      cases hnext
      try trivial
  | updateVersionWrite quizVersionId settings nowIso =>
    simp only [next] at hnext
    repeat' split at hnext
    all_goals
      cases hnext
      trivial
  | publishCount quizId quizVersionId nowIso =>
    simp only [next] at hnext
    split at hnext
    all_goals
      cases hnext
      trivial
  | _ =>
    -- the statements that only read
    cases hnext
    try simp only [Progress.goto, createQuizVersion, createQuizVersionFrom, updateQuizVersion,
      publishQuizVersion, createQuizQuestion, createQuizQuestions]
    repeat' split
    all_goals trivial

theorem newVersion_next {db : Db} (hnext : r.next db d = some p)
    (hrow : p.write.newVersion = some row) :
    (∃ v k, r = .insertVersion v k ∧ p.write = .insertVersion row ∧ row.quizId = v.quizId ∧
      row.versionNumber = k) ∨ ∃ quiz, p.write = .createQuizWithInitialVersion quiz row := by
  have hmakes := makes_of_next hnext
  cases hw : p.write with
  | insertVersion version =>
    rw [hw] at hmakes hrow
    cases hrow
    obtain ⟨v, quizVersionId, versionNumber, rfl, rfl⟩ := hmakes
    exact .inl ⟨v, versionNumber, rfl, rfl, rfl, rfl⟩
  | createQuizWithInitialVersion quiz version =>
    rw [hw] at hrow
    cases hrow
    exact .inr ⟨quiz, rfl⟩
  | _ =>
    rw [hw] at hrow
    cases hrow

/-- **A statement of a request that creates a version succeeds, or it writes nothing.** -/
theorem createsVersion_next {db : Db} (hr : r.createsVersion = true) (hnext : r.next db d = some p) :
    p.request = .done ∨
      p.write = .nothing ∧ (p.request.createsVersion = true ∨ ∃ e, p.request = .failed e) := by
  cases r with
  | createQuiz payload =>
    simp only [next] at hnext
    split at hnext
    · cases hnext
    · split at hnext
      · cases hnext
        exact .inr ⟨rfl, .inr ⟨_, rfl⟩⟩
      · cases hnext
        exact .inl rfl
  | createVersion quizId user command nowIso =>
    cases hnext
    refine .inr ⟨rfl, ?_⟩
    simp only [Progress.goto, createQuizVersion]
    repeat' split
    · exact .inr ⟨_, rfl⟩
    · exact .inr ⟨_, rfl⟩
    · exact .inl rfl
    · exact .inl rfl
  | createVersionFrom quizId user settings sourceVersionId nowIso =>
    cases hnext
    refine .inr ⟨rfl, ?_⟩
    simp only [Progress.goto, createQuizVersionFrom]
    repeat' split
    · exact .inr ⟨_, rfl⟩
    · exact .inr ⟨_, rfl⟩
    · exact .inr ⟨_, rfl⟩
    · exact .inl rfl
  | nextNumber v =>
    cases hnext
    exact .inr ⟨rfl, .inl rfl⟩
  | insertVersion v versionNumber =>
    simp only [next] at hnext
    split at hnext
    · cases hnext
    · split at hnext
      · cases hnext
        exact .inr ⟨rfl, .inr ⟨_, rfl⟩⟩
      · cases hnext
        exact .inl rfl
  | _ => cases hr

theorem mem_rows_apply {db : Db} (h : Licensed db w) (hrow : row ∈ (db.apply w).quizVersions.rows) :
    w.newVersion = some row ∨ ∃ old ∈ db.quizVersions.rows, old.quizId = row.quizId := by
  have hfind := Table.find?_of_mem hrow
  rw [find?_quizVersions_apply h] at hfind
  split at hfind
  · rename_i new hnew
    split at hfind
    · cases hfind
      exact .inl hnew
    · exact .inr ⟨row, Table.mem_of_find? hfind, rfl⟩
  · obtain ⟨old, hold, rfl⟩ := Option.map_eq_some_iff.mp hfind
    exact .inr ⟨old, Table.mem_of_find? hold, (editsVersion_identity w old).2.1.symm⟩

theorem isSome_quiz_of_newVersion {db : Db} (h : Licensed db w) (hnew : w.newVersion = some row) :
    ((db.apply w).quizzes.find? row.quizId).isSome := by
  cases w with
  | createQuizWithInitialVersion quiz version =>
    cases hnew
    rw [find?_quizzes_apply h]
    show (if quiz.quizId = row.quizId then some quiz else db.quizzes.find? row.quizId).isSome
    rw [if_pos h.2.2.1.symm]
    rfl
  | insertVersion version =>
    cases hnew
    obtain ⟨quiz, hquiz⟩ := h.2.2.1
    obtain ⟨quiz', hquiz', -⟩ := find?_quizzes_of_find? h hquiz
    rw [hquiz']
    rfl
  | _ => cases hnew

def Db.Owned (db : Db) : Prop :=
  ∀ row ∈ db.quizVersions.rows, (db.quizzes.find? row.quizId).isSome

theorem Db.Owned.apply {db : Db} (howned : db.Owned) (h : Licensed db w) : (db.apply w).Owned := by
  intro row hrow
  rcases mem_rows_apply h hrow with hnew | ⟨old, hold, hquizId⟩
  · exact isSome_quiz_of_newVersion h hnew
  · obtain ⟨quiz, hquiz⟩ := Option.isSome_iff_exists.mp (howned old hold)
    obtain ⟨quiz', hquiz', -⟩ := find?_quizzes_of_find? h hquiz
    rw [← hquizId, hquiz']
    rfl

/-! ## The invariant -/

/-- Version numbers have no gaps, and what requests know of the next one. -/
structure Numbered (s : State) : Prop where
  ok : Inv s
  gapless : Gapless s.db
  owned : s.db.Owned
  next : ∀ r ∈ s.requests, NumberOk s.db r

theorem numbered_initial : Numbered .initial where
  ok := inv_initial
  gapless := fun _ => rfl
  owned := by
    intro row hrow
    cases hrow
  next := by
    intro r hr
    cases hr

section Step

variable {s s' : State} {a : Action}

/-- **The version a step inserts has the next number of its quiz.** -/
theorem Numbered.next_number (h : Numbered s) (hstep : step s a = some s')
    (hrow : (s.writes a).newVersion = some row) :
    row.versionNumber = (s.db.versionNumbers row.quizId).length + 1 := by
  have hl := licensed_writes h.ok hstep
  rcases step_cases hstep with ⟨r, -, -, hw, -⟩ | ⟨i, d, r, p, -, hr, hp, hw, -⟩ |
    ⟨i, r, -, -, -, hw, -⟩ | ⟨quizId, flags, -, hw, -⟩
  · rw [hw] at hrow
    cases hrow
  · rw [hw] at hrow hl
    rcases newVersion_next hp hrow with ⟨v, k, rfl, hwrite, hquiz, rfl⟩ | ⟨quiz, hwrite⟩
    · obtain ⟨hpos, hle⟩ := h.next _ (List.mem_of_getElem? hr)
      rw [hwrite] at hl
      rw [← hquiz] at hle
      exact eq_next_of_numberFree h.gapless hl.2.1 hpos hle
    · rw [hwrite] at hl
      obtain ⟨hquiz, -, hsame, hone, -⟩ := hl
      -- the quiz is new, so it has no version yet
      have hnone : s.db.versionNumbers row.quizId = [] := by
        refine List.eq_nil_iff_forall_not_mem.mpr fun k hk => ?_
        obtain ⟨old, hold, hof, -⟩ := mem_versionNumbers_iff.mp hk
        have hsome := h.owned old hold
        rw [hof, hsame, hquiz] at hsome
        cases hsome
      rw [hnone, hone]
      rfl
  · rw [hw] at hrow
    cases hrow
  · rw [hw] at hrow
    cases hrow

theorem numberOk_of_isNew {db : Db} (h : r.isNew = true) : NumberOk db r := by
  cases r with
  | insertVersion => cases h
  | _ => trivial

theorem Numbered.step (h : Numbered s) (hstep : step s a = some s') : Numbered s' where
  ok := h.ok.step hstep
  gapless := by
    rw [db_of_step hstep]
    exact h.gapless.apply (licensed_writes h.ok hstep) fun row hrow => h.next_number hstep hrow
  owned := by
    rw [db_of_step hstep]
    exact h.owned.apply (licensed_writes h.ok hstep)
  next := by
    have hl := licensed_writes h.ok hstep
    rw [db_of_step hstep]
    refine forall_requests_of_step hstep ?_ (fun r => numberOk_of_isNew) ?_ (fun _ => trivial)
    · intro r hr
      exact (h.next r hr).apply hl
    · intro d r hr p hp _
      exact (numberOk_next h.gapless hp).apply hl

theorem failsClean_of_step (hstep : step s a = some s') : FailsClean s a s' := by
  intro i r ha hr hcreates
  have hset : ∀ r', (s.requests.set i r')[i]? = some r' := fun r' =>
    List.getElem?_set_self (List.getElem?_eq_some_iff.mp hr).1
  have hdb := db_of_step hstep
  rcases step_cases hstep with ⟨r', rfl, -⟩ | ⟨j, d, r', p, rfl, hr', hp, hw, hs'⟩ |
    ⟨j, r', rfl, hr', -, hw, hs'⟩ | ⟨quizId, flags, rfl, -⟩
  · rcases ha with ha | ⟨d, ha⟩ <;> cases ha
  · rcases ha with ha | ⟨d', ha⟩
    · cases ha
    · cases ha
      cases hr'.symm.trans hr
      rw [hs', hset]
      rcases createsVersion_next hcreates hp with hdone | ⟨hwrite, hon⟩
      · exact .inl (congrArg some hdone)
      · rw [hdb, hw, hwrite]
        exact .inr ⟨rfl, _, rfl, hon⟩
  · rcases ha with ha | ⟨d', ha⟩
    · cases ha
      rw [hs', hset, hdb, hw]
      exact .inr ⟨rfl, _, rfl, .inr ⟨_, rfl⟩⟩
    · cases ha
  · rcases ha with ha | ⟨d, ha⟩ <;> cases ha

end Step

/-- **The numbers of every quiz are 1, 2, …, n**, and a request that fails to create a version leaves
no row. -/
theorem versionNumbers_gapless (as : List Action) (s : State)
    (h : exec step .initial as = some s) :
    Gapless s.db ∧ EachStep step FailsClean .initial as := by
  have hinv : Numbered s :=
    exec_invariant (fun _ _ _ hi hstep => hi.step hstep) h numbered_initial
  refine ⟨hinv.gapless, ?_⟩
  intro pre a m m' _ _ hstep
  exact failsClean_of_step hstep

/-! Two new versions of a quiz at the same time. -/

def author : JwtPayload := ⟨1, .user⟩

def shortQuiz : VersionSettings :=
  { difficulty := .easy, durationMs := 60000, passingScorePercent := 50, rewardXp := 10 }

def drawn (n : Nat) : Drawn :=
  let uuid := fun n : Nat => (⟨BitVec.ofNat 128 n⟩ : Uuid)
  ⟨uuid n, uuid n, [uuid (2 * n), uuid (2 * n + 1)]⟩

def createsQuiz : List Action :=
  [.arrive (.createQuiz ⟨1, false, shortQuiz, 0⟩), .advance 0 (drawn 1)]

/-- Both read the number before either inserts its row; the one that comes second fails, and its
client tries again. -/
def overlapping : List Action :=
  createsQuiz ++
  [Action.arrive (.createVersion 1 author ⟨shortQuiz, none⟩ 1),
   .arrive (.createVersion 1 author ⟨shortQuiz, none⟩ 1),
   .advance 1 (drawn 2), .advance 2 (drawn 2), .advance 1 (drawn 2), .advance 2 (drawn 2),
   .advance 2 (drawn 2), .advance 1 (drawn 3),
   .arrive (.createVersion 1 author ⟨shortQuiz, none⟩ 2),
   .advance 3 (drawn 3), .advance 3 (drawn 3), .advance 3 (drawn 3)]

def State.numbersAnd (s : State) : List Int × Option Request :=
  (s.db.versionNumbers 1, s.requests[1]?)

theorem versionNumbers_gapless_overlapping : ∃ s,
    exec step .initial overlapping = some s ∧
      s.numbersAnd = ([1, 2, 3], some (.failed (.conflict quizVersionConflictMessage))) ∧
      Gapless s.db ∧ EachStep step FailsClean .initial overlapping := by
  refine exists_of_read (fun s => s.numbersAnd)
    ([1, 2, 3], some (.failed (.conflict quizVersionConflictMessage))) (by decide +kernel)
    fun s hs hread => ?_
  exact ⟨hread, versionNumbers_gapless overlapping s hs⟩

end QuizBackend.Quiz
