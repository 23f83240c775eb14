import QuizBackend.Attempt.Review

/-!
# Questions one by one, and in bulk

`createQuizQuestion` inserts a question with its options and answers with the rows that it then reads.
`createQuizQuestions` does the same for each question of a list, reports the errors by row, and keeps one
row of each question it has read. A row of the join is one option, so what is stored and reported is the
same in both ways (`loop_of_each`), and what is returned is not: the mapper puts questions together from
all the rows it is given, and in bulk these hold the first option of each (`bulk_equals_each_iff`).

The calls run alone here; where they meet others is the subject of `Quiz.Requests`. What a call draws
and reads off the clock is given with it.
-/

namespace QuizBackend.Quiz.BulkQuestions

open Lib
open Attempt (JwtPayload QuestionJoinRow)

/-! ## Reads -/

def getQuestionById (db : Db) (questionId : Uuid) : List QuestionJoinRow :=
  (leftJoin (fun question => db.optionsOf question.questionId)
    (db.quizQuestions.find? questionId).toList).insertionSort fun a b => a.sortKey ≤ b.sortKey

/-- A `HydratedQuizQuestion`: the question and its `answerOptions`. -/
abbrev HydratedQuizQuestion := QuizQuestionRow × List QuizAnswerOptionRow

def hydrateQuestions (rows : List QuestionJoinRow) : List HydratedQuizQuestion :=
  (group (·.questionId) rows).map fun question =>
    (question.1, question.2.insertionSort fun left right => left.position ≤ right.position)

/-! ## The calls -/

abbrev Drawing := QuestionCommand × Drawn

section Calls

variable (db : Db) (quizId quizVersionId : Uuid) (user : JwtPayload) (nowIso : Int)

def insertAndRead (missing : String) (x : Drawing) : Option (Db × Except QuizError (List QuestionJoinRow)) :=
  match assertValidAnswerOptions x.1.answerOptions with
  | .error e => some (db, .error e)
  | .ok () =>
    (createQuestionWithOptions db quizVersionId user x.1 nowIso x.2).map fun
      | .error e => (db, .error e)
      | .ok write =>
        match getQuestionById (db.apply write) x.2.id with
        | [] => (db.apply write, .error (.notFound missing))
        | row :: rows => (db.apply write, .ok (row :: rows))

/-- The call for one question; `none` when ids were drawn that are taken. -/
def createQuizQuestion (x : Drawing) : Option (Db × Except QuizError (List QuestionJoinRow)) :=
  match assertCanCreateQuestions db quizId quizVersionId user with
  | .error e => some (db, .error e)
  | .ok () => insertAndRead db quizVersionId user nowIso "Quiz question not found" x

def createEach (db : Db) : List Drawing → Option (Db × List (Except QuizError (List QuestionJoinRow)))
  | [] => some (db, [])
  | x :: xs =>
    (createQuizQuestion db quizId quizVersionId user nowIso x).bind fun first =>
      (createEach first.1 xs).map fun others => (others.1, first.2 :: others.2)

structure BulkAnswer where
  questions : List QuestionJoinRow
  rowResults : List RowResult

def normalize (question : QuestionCommand) : QuestionCommand :=
  { question with
    answerOptions := question.answerOptions.map fun option => { option with value := trim option.value } }

def BulkAnswer.push (answer : BulkAnswer) (index : Nat) :
    Except QuizError (List QuestionJoinRow) → BulkAnswer
  | .error e => { answer with rowResults := answer.rowResults ++ [.ofError index e] }
  | .ok rows =>
    { questions := answer.questions ++ rows.head?.toList
      rowResults := answer.rowResults ++
        [⟨index, 201, "", "", rows.head?.map fun row => row.1.questionId⟩] }

def createQuizQuestionsFrom (db : Db) (index : Nat) (answer : BulkAnswer) :
    List Drawing → Option (Db × BulkAnswer)
  | [] => some (db, answer)
  | x :: xs =>
    (insertAndRead db quizVersionId user nowIso "Quiz question not found after insert"
      (normalize x.1, x.2)).bind fun round =>
        createQuizQuestionsFrom round.1 (index + 1) (answer.push index round.2) xs

def createQuizQuestions (xs : List Drawing) : Option (Db × Except QuizError BulkAnswer) :=
  match assertCanCreateQuestions db quizId quizVersionId user with
  | .error e => some (db, .error e)
  | .ok () =>
    match assertUniqueQuestionPositions (xs.map Prod.fst) with
    | .error e => some (db, .error e)
    | .ok () =>
      (createQuizQuestionsFrom quizVersionId user nowIso db 0 ⟨[], []⟩ xs).map fun last =>
        (last.1, .ok last.2)

end Calls

/-! ## One question -/

/-- Every option belongs to a stored question. -/
def OptionsReferenced (db : Db) : Prop :=
  ∀ option ∈ db.quizAnswerOptions.rows, option.questionId ∈ db.quizQuestions.rows.map (·.questionId)

section Round

variable (db : Db) (quizVersionId : Uuid) (user : JwtPayload) (nowIso : Int)

def questionRow (x : Drawing) : QuizQuestionRow := x.1.row x.2.id quizVersionId user nowIso

def optionRows (x : Drawing) : List QuizAnswerOptionRow := x.1.options x.2.id x.2.optionIds nowIso

/-- The write of one question. -/
def storing (x : Drawing) : Write :=
  .createQuestionWithOptions (questionRow quizVersionId user nowIso x) (optionRows nowIso x)

/-- The checks pass, and the insert too. -/
def Storable (x : Drawing) : Prop :=
  assertValidAnswerOptions x.1.answerOptions = .ok () ∧
    insertQuestionError db (questionRow quizVersionId user nowIso x) (optionRows nowIso x) = none

variable {db quizVersionId user nowIso} {x : Drawing}

theorem assertValidAnswerOptionsFrom_map (f : String → String) (positions : List Int) (correctCount : Nat)
    (options : List AnswerOptionCommand) :
    assertValidAnswerOptionsFrom positions correctCount
        (options.map fun option => { option with value := f option.value }) =
      assertValidAnswerOptionsFrom positions correctCount options := by
  induction options generalizing positions correctCount with
  | nil => rfl
  | cons option options ih =>
    rw [List.map_cons, assertValidAnswerOptionsFrom, assertValidAnswerOptionsFrom, ih]

theorem insertAndRead_normalize (missing : String) :
    insertAndRead db quizVersionId user nowIso missing (normalize x.1, x.2) =
      insertAndRead db quizVersionId user nowIso missing x := by
  have hoptions : (normalize x.1).options x.2.id x.2.optionIds nowIso =
      x.1.options x.2.id x.2.optionIds nowIso := by
    rw [QuestionCommand.options, normalize, List.zipWith_map_left]
    simp only [trim_trim]
    rfl
  have hlength : (normalize x.1).answerOptions.length = x.1.answerOptions.length := List.length_map _
  have hvalid : assertValidAnswerOptions (normalize x.1).answerOptions =
      assertValidAnswerOptions x.1.answerOptions := assertValidAnswerOptionsFrom_map trim [] 0 _
  have hinsert : createQuestionWithOptions db quizVersionId user (normalize x.1) nowIso x.2 =
      createQuestionWithOptions db quizVersionId user x.1 nowIso x.2 := by
    simp only [createQuestionWithOptions, hoptions, hlength]
    rfl
  rw [insertAndRead, insertAndRead, hvalid, hinsert]

section Stored

variable (hstored : Licensed db (storing quizVersionId user nowIso x))

include hstored

theorem optionsOf_stored (hreferenced : OptionsReferenced db) :
    (db.apply (storing quizVersionId user nowIso x)).optionsOf x.2.id = optionRows nowIso x := by
  have hold : db.quizAnswerOptions.rows.filter (fun row => row.questionId = x.2.id) = [] := by
    refine List.filter_eq_nil_iff.mpr fun option hoption hid => ?_
    have hrow := hreferenced option hoption
    rw [of_decide_eq_true hid] at hrow
    exact Table.find?_eq_none_iff.mp hstored.1 hrow
  have hnew : (optionRows nowIso x).filter (fun row => row.questionId = x.2.id) = optionRows nowIso x :=
    List.filter_eq_self.mpr fun option hoption => decide_eq_true (hstored.2.2.2.2.1 option hoption)
  rw [Db.optionsOf, storing, (rows_apply_question hstored).2, List.filter_append, hold, hnew,
    List.nil_append]

theorem find?_stored :
    (db.apply (storing quizVersionId user nowIso x)).quizQuestions.find? x.2.id =
      some (questionRow quizVersionId user nowIso x) := by
  have hmem : questionRow quizVersionId user nowIso x ∈
      (db.apply (storing quizVersionId user nowIso x)).quizQuestions.rows := by
    rw [storing, (rows_apply_question hstored).1]
    exact List.mem_append_right _ (List.mem_singleton_self _)
  exact Table.find?_of_mem hmem

theorem optionRows_ne_nil : optionRows nowIso x ≠ [] := by
  intro hnil
  have hcount := hstored.2.2.2.2.2
  rw [hnil, List.countP_nil] at hcount
  exact absurd hcount Nat.zero_ne_one

theorem getQuestionById_perm (hreferenced : OptionsReferenced db) :
    (getQuestionById (db.apply (storing quizVersionId user nowIso x)) x.2.id).Perm
      ((optionRows nowIso x).map fun option => (questionRow quizVersionId user nowIso x, some option)) := by
  have hempty : (optionRows nowIso x).isEmpty = false :=
    List.isEmpty_eq_false_iff.mpr (optionRows_ne_nil hstored)
  have hjoin : leftJoin (fun question : QuizQuestionRow =>
      (db.apply (storing quizVersionId user nowIso x)).optionsOf question.questionId)
        [questionRow quizVersionId user nowIso x] =
      (optionRows nowIso x).map fun option => (questionRow quizVersionId user nowIso x, some option) := by
    have hoptions : (db.apply (storing quizVersionId user nowIso x)).optionsOf
        (questionRow quizVersionId user nowIso x).questionId = optionRows nowIso x :=
      optionsOf_stored hstored hreferenced
    rw [leftJoin, List.flatMap_cons, List.flatMap_nil, List.append_nil, hoptions, hempty,
      if_neg Bool.false_ne_true]
  rw [getQuestionById, find?_stored hstored, Option.toList_some, hjoin]
  exact List.perm_insertionSort _ _

theorem OptionsReferenced.store (hreferenced : OptionsReferenced db) :
    OptionsReferenced (db.apply (storing quizVersionId user nowIso x)) := by
  intro option hoption
  rw [storing, (rows_apply_question hstored).2] at hoption
  rw [storing, (rows_apply_question hstored).1, List.map_append]
  rcases List.mem_append.mp hoption with hold | hnew
  · exact List.mem_append_left _ (hreferenced option hold)
  · refine List.mem_append_right _ ?_
    rw [hstored.2.2.2.2.1 option hnew]
    exact List.mem_singleton_self _

end Stored

/-- The question as it is read after its insert. -/
structure ReadBack (x : Drawing) (row : QuizQuestionRow) (rows : List QuestionJoinRow) : Prop where
  length : rows.length = x.1.answerOptions.length
  ne_nil : rows ≠ []
  question : ∀ r ∈ rows, r.1 = row
  option : ∀ r ∈ rows, r.2.isSome

theorem readBack_of_stored (hstored : Licensed db (storing quizVersionId user nowIso x))
    (hreferenced : OptionsReferenced db) (hdrawn : x.2.optionIds.length = x.1.answerOptions.length) :
    ReadBack x (questionRow quizVersionId user nowIso x)
      (getQuestionById (db.apply (storing quizVersionId user nowIso x)) x.2.id) := by
  have hperm := getQuestionById_perm hstored hreferenced
  have hlength : (optionRows nowIso x).length = x.1.answerOptions.length := by
    rw [optionRows, QuestionCommand.options, List.length_zipWith, hdrawn, Nat.min_self]
  refine ⟨?_, ?_, ?_, ?_⟩
  · rw [hperm.length_eq, List.length_map, hlength]
  · intro hnil
    rw [hnil] at hperm
    have hmap := List.perm_nil.mp hperm.symm
    exact optionRows_ne_nil hstored (List.map_eq_nil_iff.mp hmap)
  · intro r hr
    obtain ⟨option, -, rfl⟩ := List.mem_map.mp (hperm.subset hr)
    rfl
  · intro r hr
    obtain ⟨option, -, rfl⟩ := List.mem_map.mp (hperm.subset hr)
    rfl

theorem created_cases {created : Except QuizError Write}
    (h : createQuestionWithOptions db quizVersionId user x.1 nowIso x.2 = some created) :
    x.2.optionIds.length = x.1.answerOptions.length ∧
      ((∃ e, created = .error e ∧ insertQuestionError db (questionRow quizVersionId user nowIso x)
          (optionRows nowIso x) = some e) ∨
        created = .ok (storing quizVersionId user nowIso x) ∧
          insertQuestionError db (questionRow quizVersionId user nowIso x) (optionRows nowIso x) = none) := by
  simp only [createQuestionWithOptions] at h
  split at h
  · cases h
  · rename_i hdrawn
    refine ⟨not_not.mp (not_or.mp hdrawn).1, ?_⟩
    split at h
    · rename_i e herror
      exact .inl ⟨e, (Option.some.inj h).symm, herror⟩
    · rename_i herror
      exact .inr ⟨(Option.some.inj h).symm, herror⟩

/-- **What a round does**: it leaves the database and has an error, or it stores the question and has
its rows. -/
theorem round_cases {missing : String} {round : Db × Except QuizError (List QuestionJoinRow)}
    (hmay : db.MayAdd quizVersionId user) (hreferenced : OptionsReferenced db)
    (h : insertAndRead db quizVersionId user nowIso missing x = some round) :
    (¬ Storable db quizVersionId user nowIso x ∧ ∃ e, round = (db, .error e)) ∨
      Storable db quizVersionId user nowIso x ∧ Licensed db (storing quizVersionId user nowIso x) ∧
        ∃ rows, round = (db.apply (storing quizVersionId user nowIso x), .ok rows) ∧
          ReadBack x (questionRow quizVersionId user nowIso x) rows := by
  unfold insertAndRead at h
  cases hvalid : assertValidAnswerOptions x.1.answerOptions with
  | error e =>
    rw [hvalid] at h
    refine .inl ⟨fun hstorable => ?_, e, (Option.some.inj h).symm⟩
    have hok := hstorable.1
    rw [hvalid] at hok
    cases hok
  | ok u =>
    rw [hvalid] at h
    obtain ⟨created, hcreated, hround⟩ := Option.map_eq_some_iff.mp h
    obtain ⟨hdrawn, ⟨e, rfl, herror⟩ | ⟨rfl, herror⟩⟩ := created_cases hcreated
    · refine .inl ⟨fun hstorable => ?_, e, hround.symm⟩
      rw [hstorable.2] at herror
      cases herror
    · have hstored := licensed_createQuestionWithOptions hmay hvalid hcreated
      have hback := readBack_of_stored hstored hreferenced hdrawn
      refine .inr ⟨⟨hvalid, herror⟩, hstored, _, ?_, hback⟩
      rw [← hround]
      cases hrows : getQuestionById (db.apply (storing quizVersionId user nowIso x)) x.2.id with
      | nil => exact absurd hrows hback.ne_nil
      | cons row rows => simp only [hrows]

theorem insertAndRead_missing (hmay : db.MayAdd quizVersionId user) (hreferenced : OptionsReferenced db)
    (missing missing' : String) :
    insertAndRead db quizVersionId user nowIso missing x =
      insertAndRead db quizVersionId user nowIso missing' x := by
  unfold insertAndRead
  cases hvalid : assertValidAnswerOptions x.1.answerOptions with
  | error e => rfl
  | ok u =>
    cases hcreated : createQuestionWithOptions db quizVersionId user x.1 nowIso x.2 with
    | none => rfl
    | some created =>
      obtain ⟨hdrawn, ⟨e, rfl, -⟩ | ⟨rfl, -⟩⟩ := created_cases hcreated
      · rfl
      · have hstored := licensed_createQuestionWithOptions hmay hvalid hcreated
        have hback := readBack_of_stored hstored hreferenced hdrawn
        cases hrows : getQuestionById (db.apply (storing quizVersionId user nowIso x)) x.2.id with
        | nil => exact absurd hrows hback.ne_nil
        | cons row rows => simp only [Option.map_some, hrows]

theorem storable_store {y : Drawing} (hstored : Licensed db (storing quizVersionId user nowIso x))
    (hne : y.1.position ≠ x.1.position) :
    Storable (db.apply (storing quizVersionId user nowIso x)) quizVersionId user nowIso y ↔
      Storable db quizVersionId user nowIso y := by
  have hfree : (db.apply (storing quizVersionId user nowIso x)).PositionFree quizVersionId y.1.position ↔
      db.PositionFree quizVersionId y.1.position := by
    rw [Db.PositionFree, storing, (rows_apply_question hstored).1]
    refine ⟨fun h row hrow => h row (List.mem_append_left _ hrow), fun h row hrow => ?_⟩
    rcases List.mem_append.mp hrow with hold | hnew
    · exact h row hold
    · cases List.mem_singleton.mp hnew
      exact fun _ => Ne.symm hne
  have herror : insertQuestionError (db.apply (storing quizVersionId user nowIso x))
      (questionRow quizVersionId user nowIso y) (optionRows nowIso y) =
      insertQuestionError db (questionRow quizVersionId user nowIso y) (optionRows nowIso y) := by
    unfold insertQuestionError questionFailure
    simp only [show (questionRow quizVersionId user nowIso y).quizVersionId = quizVersionId from rfl,
      show (questionRow quizVersionId user nowIso y).position = y.1.position from rfl, hfree]
    rfl
  rw [Storable, herror]
  rfl

theorem assertCanCreateQuestions_store (x : Drawing) (nowIso : Int) (quizId : Uuid) :
    assertCanCreateQuestions (db.apply (storing quizVersionId user nowIso x)) quizId quizVersionId user =
      assertCanCreateQuestions db quizId quizVersionId user := rfl

end Round

/-! ## The loops -/

/-- An entry of `rowResults`, from what the round came to. -/
def rowResult (index : Nat) : Except QuizError (List QuestionJoinRow) → RowResult
  | .error e => .ofError index e
  | .ok rows => ⟨index, 201, "", "", rows.head?.map fun row => row.1.questionId⟩

def firstRows (results : List (Except QuizError (List QuestionJoinRow))) : List QuestionJoinRow :=
  results.flatMap fun
    | .error _ => []
    | .ok rows => rows.head?.toList

def hydratedEach (results : List (Except QuizError (List QuestionJoinRow))) : List HydratedQuizQuestion :=
  results.flatMap fun
    | .error _ => []
    | .ok rows => hydrateQuestions rows

theorem BulkAnswer.push_eq (answer : BulkAnswer) (index : Nat)
    (result : Except QuizError (List QuestionJoinRow)) :
    answer.push index result =
      ⟨answer.questions ++ firstRows [result], answer.rowResults ++ [rowResult index result]⟩ := by
  cases result with
  | error e => rw [firstRows, List.flatMap_singleton, List.append_nil]; rfl
  | ok rows => rw [firstRows, List.flatMap_singleton]; rfl

theorem firstRows_cons (result : Except QuizError (List QuestionJoinRow))
    (results : List (Except QuizError (List QuestionJoinRow))) :
    firstRows (result :: results) = firstRows [result] ++ firstRows results := by
  rw [firstRows, firstRows, firstRows, ← List.flatMap_append, List.singleton_append]

theorem status_ofError_ne (index : Nat) (e : QuizError) : (RowResult.ofError index e).status ≠ 201 := by
  cases e <;> simp [RowResult.ofError]

variable {xs : List Drawing} {db' : Db} {results : List (Except QuizError (List QuestionJoinRow))}

section Loops

variable {db : Db} {quizId quizVersionId : Uuid} {user : JwtPayload} {nowIso : Int}

variable (db quizVersionId user nowIso) in
/-- It was refused, or stored and read back. -/
def Outcome (x : Drawing) (result : Except QuizError (List QuestionJoinRow)) : Prop :=
  (¬ Storable db quizVersionId user nowIso x ∧ ∃ e, result = .error e) ∨
    Storable db quizVersionId user nowIso x ∧
      ∃ rows, result = .ok rows ∧ ReadBack x (questionRow quizVersionId user nowIso x) rows

section

variable (hcan : assertCanCreateQuestions db quizId quizVersionId user = .ok ())
include hcan

section

variable (hreferenced : OptionsReferenced db)
include hreferenced

/-- **Round for round** the loop does what the single calls do, and keeps of each what `push` keeps. -/
theorem loop_of_each
    (heach : createEach quizId quizVersionId user nowIso db xs = some (db', results)) (index : Nat)
    (answer : BulkAnswer) :
    createQuizQuestionsFrom quizVersionId user nowIso db index answer xs =
      some (db', ⟨answer.questions ++ firstRows results,
        answer.rowResults ++ results.mapIdx fun i => rowResult (index + i)⟩) := by
  induction xs generalizing db results index answer with
  | nil =>
    cases heach
    simp only [createQuizQuestionsFrom, firstRows, List.flatMap_nil, List.mapIdx_nil, List.append_nil]
  | cons x xs ih =>
    obtain ⟨round, hround, hrest⟩ := Option.bind_eq_some_iff.mp heach
    obtain ⟨others, hothers, hresult⟩ := Option.map_eq_some_iff.mp hrest
    cases hresult
    have hmay := mayAdd_of_assertCanCreateQuestions hcan
    rw [createQuizQuestion, hcan] at hround
    have hbulk : insertAndRead db quizVersionId user nowIso "Quiz question not found after insert"
        (normalize x.1, x.2) = some round := by
      rw [insertAndRead_normalize, ← hround]
      exact insertAndRead_missing hmay hreferenced _ _
    have hnext : createQuizQuestionsFrom quizVersionId user nowIso round.1 (index + 1)
        (answer.push index round.2) xs =
        some (others.1, ⟨(answer.push index round.2).questions ++ firstRows others.2,
          (answer.push index round.2).rowResults ++
            others.2.mapIdx fun i => rowResult (index + 1 + i)⟩) := by
      rcases round_cases hmay hreferenced hround with ⟨-, e, rfl⟩ | ⟨-, hstored, rows, rfl, -⟩
      · exact ih hcan hreferenced hothers ..
      · have hstill := (assertCanCreateQuestions_store x nowIso quizId).trans hcan
        exact ih hstill (hreferenced.store hstored) hothers ..
    have hindex : ∀ i, index + 1 + i = index + (i + 1) := fun i => by omega
    rw [createQuizQuestionsFrom, hbulk, Option.bind_some, hnext, BulkAnswer.push_eq,
      firstRows_cons round.2 others.2, List.mapIdx_cons, List.append_assoc, List.append_assoc, List.singleton_append]
    simp only [hindex, Nat.add_zero]

theorem outcomes_of_each (hdistinct : (xs.map (·.1.position)).Nodup)
    (heach : createEach quizId quizVersionId user nowIso db xs = some (db', results)) :
    List.Forall₂ (Outcome db quizVersionId user nowIso) xs results := by
  induction xs generalizing db results with
  | nil =>
    cases heach
    exact .nil
  | cons x xs ih =>
    obtain ⟨round, hround, hrest⟩ := Option.bind_eq_some_iff.mp heach
    obtain ⟨others, hothers, hresult⟩ := Option.map_eq_some_iff.mp hrest
    cases hresult
    rw [List.map_cons, List.nodup_cons] at hdistinct
    have hmay := mayAdd_of_assertCanCreateQuestions hcan
    rw [createQuizQuestion, hcan] at hround
    rcases round_cases hmay hreferenced hround with ⟨hnot, e, rfl⟩ | ⟨hstorable, hstored, rows, rfl, hback⟩
    · exact .cons (.inl ⟨hnot, e, rfl⟩) (ih hcan hreferenced hdistinct.2 hothers)
    · refine .cons (.inr ⟨hstorable, rows, rfl, hback⟩) ?_
      have hstill := (assertCanCreateQuestions_store x nowIso quizId).trans hcan
      obtain ⟨hlength, hlater⟩ :=
        List.forall₂_iff_get.mp (ih hstill (hreferenced.store hstored) hdistinct.2 hothers)
      refine List.forall₂_iff_get.mpr ⟨hlength, fun i hi hi' => ?_⟩
      have hne : (xs.get ⟨i, hi⟩).1.position ≠ x.1.position := fun hsame =>
        hdistinct.1 (hsame ▸ List.mem_map_of_mem (List.get_mem xs ⟨i, hi⟩))
      have houtcome := hlater i hi hi'
      rw [Outcome, storable_store hstored hne] at houtcome
      exact houtcome

theorem fresh_of_each
    (heach : createEach quizId quizVersionId user nowIso db xs = some (db', results)) :
    ((firstRows results).map fun row => row.1.questionId).Nodup ∧
      ∀ row ∈ firstRows results, db.quizQuestions.find? row.1.questionId = none := by
  induction xs generalizing db results with
  | nil =>
    cases heach
    exact ⟨List.nodup_nil, fun row hrow => by cases hrow⟩
  | cons x xs ih =>
    obtain ⟨round, hround, hrest⟩ := Option.bind_eq_some_iff.mp heach
    obtain ⟨others, hothers, hresult⟩ := Option.map_eq_some_iff.mp hrest
    cases hresult
    have hmay := mayAdd_of_assertCanCreateQuestions hcan
    rw [createQuizQuestion, hcan] at hround
    rcases round_cases hmay hreferenced hround with ⟨-, e, rfl⟩ | ⟨-, hstored, rows, rfl, hback⟩
    · have hlater := ih hcan hreferenced hothers
      exact hlater
    · have hstill := (assertCanCreateQuestions_store x nowIso quizId).trans hcan
      obtain ⟨hnodup, hfresh⟩ := ih hstill (hreferenced.store hstored) hothers
      obtain ⟨row, rest, rfl⟩ := List.exists_cons_of_ne_nil hback.ne_nil
      have hid : row.1.questionId = x.2.id := congrArg (·.questionId) (hback.question row List.mem_cons_self)
      have hkeys : (db.apply (storing quizVersionId user nowIso x)).quizQuestions.rows.map (·.questionId) =
          db.quizQuestions.rows.map (·.questionId) ++ [x.2.id] := by
        rw [storing, (rows_apply_question hstored).1, List.map_append, List.map_singleton]
        rfl
      have hlater : ∀ r ∈ firstRows others.2, r.1.questionId ≠ x.2.id ∧
          db.quizQuestions.find? r.1.questionId = none := by
        intro r hr
        have hnew := Table.find?_eq_none_iff.mp (hfresh r hr)
        rw [hkeys, List.mem_append, List.mem_singleton, not_or] at hnew
        exact ⟨hnew.2, Table.find?_eq_none_iff.mpr hnew.1⟩
      have hcons : firstRows (.ok (row :: rest) :: others.2) = row :: firstRows others.2 := rfl
      rw [hcons]
      refine ⟨List.nodup_cons.mpr ⟨?_, hnodup⟩, ?_⟩
      · intro hmem
        obtain ⟨r, hr, hsame⟩ := List.mem_map.mp hmem
        exact (hlater r hr).1 (hsame.trans hid)
      · intro r hr
        rcases List.mem_cons.mp hr with rfl | hr
        · rw [hid]
          exact hstored.1
        · exact (hlater r hr).2

end

end

end Loops

/-! ## What is returned -/

theorem hydrateQuestions_readBack {x : Drawing} {row : QuizQuestionRow} {rows : List QuestionJoinRow}
    (h : ReadBack x row rows) :
    hydrateQuestions rows =
      [(row, (rows.filterMap Prod.snd).insertionSort fun left right => left.position ≤ right.position)] := by
  rw [hydrateQuestions, group_of_forall_eq h.ne_nil h.question, List.map_singleton]

theorem length_filterMap_readBack {x : Drawing} {row : QuizQuestionRow} {rows : List QuestionJoinRow}
    (h : ReadBack x row rows) : (rows.filterMap Prod.snd).length = rows.length :=
  List.filterMap_length_eq_length.mpr fun r hr => h.option r hr

/-- **The questions that are kept are whole** just where each of them has one row. -/
theorem hydrate_firstRows_iff (hnodup : ((firstRows results).map fun row => row.1.questionId).Nodup)
    (hback : ∀ rows, .ok rows ∈ results → ∃ x row, ReadBack x row rows) :
    hydrateQuestions (firstRows results) = hydratedEach results ↔
      ∀ rows, .ok rows ∈ results → rows.length = 1 := by
  rw [hydrateQuestions, group_of_nodup hnodup, List.map_map]
  clear hnodup
  induction results with
  | nil => exact iff_of_true rfl fun rows hrows => by cases hrows
  | cons result results ih =>
    have hrest := ih fun rows hrows => hback rows (List.mem_cons_of_mem _ hrows)
    cases result with
    | error e =>
      refine Iff.trans hrest ⟨fun h rows hrows => ?_, fun h rows hrows => h rows (List.mem_cons_of_mem _ hrows)⟩
      rcases List.mem_cons.mp hrows with he | hrows
      · cases he
      · exact h rows hrows
    | ok rows =>
      obtain ⟨x, row, hread⟩ := hback rows List.mem_cons_self
      have hlength := length_filterMap_readBack hread
      have hhead : ∀ r ∈ rows, r.1 = row ∧ r.2.isSome := fun r hr =>
        ⟨hread.question r hr, hread.option r hr⟩
      have hwhole : hydratedEach (.ok rows :: results) = hydrateQuestions rows ++ hydratedEach results := rfl
      obtain ⟨first, others, rfl⟩ := List.exists_cons_of_ne_nil hread.ne_nil
      obtain ⟨hfirst, hsome⟩ := hhead first List.mem_cons_self
      obtain ⟨option, hoption⟩ := Option.isSome_iff_exists.mp hsome
      have hkept : firstRows (.ok (first :: others) :: results) = first :: firstRows results := rfl
      rw [hwhole, hydrateQuestions_readBack hread, hkept, List.map_cons, List.singleton_append, List.cons.injEq,
        hrest]
      constructor
      · rintro ⟨heq, hothers⟩ rows hrows
        rcases List.mem_cons.mp hrows with he | hrows
        · cases he
          have hlen := congrArg (fun q : HydratedQuizQuestion => q.2.length) heq
          simp only [Function.comp_apply, List.length_insertionSort, hoption, Option.toList_some,
            List.length_singleton, hlength] at hlen
          exact hlen.symm
        · exact hothers rows hrows
      · intro hone
        refine ⟨?_, fun rows hrows => hone rows (List.mem_cons_of_mem _ hrows)⟩
        have hnil : others = [] := by
          have hlen := hone _ List.mem_cons_self
          exact List.length_eq_zero_iff.mp (Nat.succ.inj hlen)
        subst hnil
        simp only [Function.comp_apply, hoption, Option.toList_some, List.filterMap_cons_some hoption,
          List.filterMap_nil, hfirst]

/-! ## Both ways -/

/-- **The call for a list comes to what the single calls come to**: it stores the same, it throws where
each of them throws, it reports each question in its place, and it returns the questions they return. -/
structure Agrees (size : Nat) (each : Db × List (Except QuizError (List QuestionJoinRow)))
    (bulk : Db × Except QuizError BulkAnswer) : Prop where
  stored : bulk.1 = each.1
  refused : ∀ e, bulk.2 = .error e → ∀ result ∈ each.2, result = .error e
  entries : ∀ answer, bulk.2 = .ok answer → answer.rowResults.map (·.index) = List.range size
  created : ∀ answer, bulk.2 = .ok answer → ∀ i : Nat,
    (∃ entry, answer.rowResults[i]? = some entry ∧ entry.status = 201) ↔
      ∃ rows, each.2[i]? = some (.ok rows)
  returned : ∀ answer, bulk.2 = .ok answer → hydrateQuestions answer.questions = hydratedEach each.2

section Both

variable {db : Db} {quizId quizVersionId : Uuid} {user : JwtPayload} {nowIso : Int}

theorem exists_of_mem_right {α β : Type} {R : α → β → Prop} {l : List α} {l' : List β}
    (h : List.Forall₂ R l l') {b : β} (hb : b ∈ l') : ∃ a ∈ l, R a b := by
  induction h with
  | nil => cases hb
  | cons hr hrest ih =>
    rcases List.mem_cons.mp hb with rfl | hb
    · exact ⟨_, List.mem_cons_self, hr⟩
    · obtain ⟨a, ha, hab⟩ := ih hb
      exact ⟨a, List.mem_cons_of_mem _ ha, hab⟩

theorem each_of_refused {e : QuizError}
    (hcan : assertCanCreateQuestions db quizId quizVersionId user = .error e) (xs : List Drawing) :
    createEach quizId quizVersionId user nowIso db xs = some (db, xs.map fun _ => .error e) := by
  induction xs with
  | nil => rfl
  | cons x xs ih =>
    have hfirst : createQuizQuestion db quizId quizVersionId user nowIso x = some (db, .error e) := by
      rw [createQuizQuestion, hcan]
    rw [createEach, hfirst, Option.bind_some, ih]
    rfl

theorem index_rowResult (i : Nat) (result : Except QuizError (List QuestionJoinRow)) :
    (rowResult i result).index = i := by
  cases result with
  | ok rows => rfl
  | error e => cases e <;> rfl

theorem status_rowResult (i : Nat) (result : Except QuizError (List QuestionJoinRow)) :
    (rowResult i result).status = 201 ↔ ∃ rows, result = .ok rows := by
  cases result with
  | ok rows => exact iff_of_true rfl ⟨rows, rfl⟩
  | error e => exact iff_of_false (status_ofError_ne i e) fun h => by cases h.choose_spec

theorem bulk_of_each (hreferenced : OptionsReferenced db)
    (hdistinct : (xs.map (·.1.position)).Nodup)
    {each : Db × List (Except QuizError (List QuestionJoinRow))}
    (heach : createEach quizId quizVersionId user nowIso db xs = some each) :
    ∃ bulk, createQuizQuestions db quizId quizVersionId user nowIso xs = some bulk ∧
      (Agrees xs.length each bulk ↔ ∀ rows, .ok rows ∈ each.2 → rows.length = 1) := by
  cases hcan : assertCanCreateQuestions db quizId quizVersionId user with
  | error e =>
    rw [each_of_refused hcan] at heach
    cases heach
    refine ⟨(db, .error e), by rw [createQuizQuestions, hcan], iff_of_true ⟨rfl, ?_, ?_, ?_, ?_⟩ ?_⟩
    · rintro e' he result hresult
      obtain ⟨x, -, rfl⟩ := List.mem_map.mp hresult
      cases he
      rfl
    · intro answer he
      cases he
    · intro answer he
      cases he
    · intro answer he
      cases he
    · intro rows hrows
      obtain ⟨x, -, he⟩ := List.mem_map.mp hrows
      cases he
  | ok u =>
    obtain ⟨db', results⟩ := each
    have hunique : assertUniqueQuestionPositions (xs.map Prod.fst) = .ok () := by
      rw [assertUniqueQuestionPositions, List.map_map]
      exact if_pos hdistinct
    have hloop := loop_of_each hcan hreferenced heach 0 ⟨[], []⟩
    have houtcomes := outcomes_of_each hcan hreferenced hdistinct heach
    have hback : ∀ rows, .ok rows ∈ results → ∃ x row, ReadBack x row rows := by
      intro rows hrows
      obtain ⟨x, -, houtcome⟩ := exists_of_mem_right houtcomes hrows
      rcases houtcome with ⟨-, e, he⟩ | ⟨-, rows', he, hread⟩
      · cases he
      · cases he
        exact ⟨x, _, hread⟩
    refine ⟨(db', .ok ⟨firstRows results, results.mapIdx rowResult⟩), ?_, ?_⟩
    · rw [createQuizQuestions, hcan]
      simp only [hunique, hloop, Option.map_some, List.nil_append, Nat.zero_add]
    · rw [← hydrate_firstRows_iff (fresh_of_each hcan hreferenced heach).1 hback]
      refine ⟨fun h => h.returned _ rfl, fun hreturned => ⟨rfl, ?_, ?_, ?_, ?_⟩⟩
      · intro e he
        cases he
      · intro answer he
        cases he
        rw [List.mapIdx_eq_zipIdx_map, List.map_map, houtcomes.length_eq, List.range_eq_range',
          ← List.zipIdx_map_snd]
        exact List.map_congr_left fun p _ => index_rowResult p.2 p.1
      · intro answer he i
        cases he
        rw [List.getElem?_mapIdx]
        cases hi : results[i]? with
        | none => exact iff_of_false (fun h => by cases h.choose_spec.1) fun h => by cases h.choose_spec
        | some result =>
          rw [Option.map_some]
          refine Iff.trans ⟨?_, fun h => ⟨_, rfl, (status_rowResult i result).mpr h⟩⟩
            (exists_congr fun rows => (Option.some_inj).symm)
          rintro ⟨entry, he, hstatus⟩
          cases he
          exact (status_rowResult i result).mp hstatus
      · intro answer he
        cases he
        exact hreturned

/-- **Creating questions in bulk equals creating them one by one** just where every question that can be
stored has a single option. -/
theorem bulk_equals_each_iff (hreferenced : OptionsReferenced db) {xs : List Drawing}
    (hdistinct : (xs.map (·.1.position)).Nodup)
    {each : Db × List (Except QuizError (List QuestionJoinRow))}
    (heach : createEach quizId quizVersionId user nowIso db xs = some each) :
    ∃ bulk, createQuizQuestions db quizId quizVersionId user nowIso xs = some bulk ∧
      (Agrees xs.length each bulk ↔
        (assertCanCreateQuestions db quizId quizVersionId user = .ok () →
          ∀ x ∈ xs, Storable db quizVersionId user nowIso x → x.1.answerOptions.length = 1)) := by
  obtain ⟨bulk, hbulk, hagrees⟩ := bulk_of_each hreferenced hdistinct heach
  refine ⟨bulk, hbulk, hagrees.trans ⟨fun hone hcan x hx hstorable => ?_, fun hone rows hrows => ?_⟩⟩
  · have houtcomes := outcomes_of_each hcan hreferenced hdistinct heach
    obtain ⟨result, hresult, houtcome⟩ := exists_of_mem_right houtcomes.flip hx
    rcases houtcome with ⟨hnot, -⟩ | ⟨-, rows, rfl, hread⟩
    · exact absurd hstorable hnot
    · rw [← hread.length]
      exact hone rows hresult
  · cases hcan : assertCanCreateQuestions db quizId quizVersionId user with
    | error e =>
      rw [each_of_refused hcan] at heach
      cases heach
      obtain ⟨x, -, he⟩ := List.mem_map.mp hrows
      cases he
    | ok u =>
      have houtcomes := outcomes_of_each hcan hreferenced hdistinct heach
      obtain ⟨x, hx, houtcome⟩ := exists_of_mem_right houtcomes hrows
      rcases houtcome with ⟨-, e, he⟩ | ⟨hstorable, rows', he, hread⟩
      · cases he
      · cases he
        rw [hread.length]
        exact hone hcan x hx hstorable

end Both

def draftDb : Db where
  quizzes := ⟨[{ quizId := 1, creatorId := some 7, flags := {}, createdAt := 0, updatedAt := 0 }],
    List.nodup_singleton _⟩
  quizVersions := ⟨[{ quizVersionId := 2, quizId := 1, versionNumber := 1
                      settings := ⟨.easy, 60000, 50, 10⟩, createdByUserId := some 7, createdAt := 0
                      updatedAt := 0 }], List.nodup_singleton _⟩
  quizQuestions := Table.empty _
  quizAnswerOptions := Table.empty _

def author : JwtPayload := ⟨7, .user⟩

def oneOption : Drawing := (⟨1, " Capital of France?", none, [⟨1, "Paris ", true⟩]⟩, ⟨10, 0, [20]⟩)

def twoOptions : Drawing :=
  (⟨1, "Capital of France?", none, [⟨1, "Paris", true⟩, ⟨2, "Lyon", false⟩]⟩, ⟨10, 0, [20, 21]⟩)

theorem referenced_draftDb : OptionsReferenced draftDb := fun option hoption => by cases hoption

/-- A quiz with a question in its third position. -/
def askedDb : Db :=
  draftDb.apply (storing 2 author 4 (⟨3, "Capital of Italy?", none, [⟨1, "Rome", true⟩]⟩, ⟨11, 0, [22]⟩))

def thirdQuestion : Drawing :=
  (⟨3, "Capital of Spain?", none, [⟨1, "Madrid", true⟩, ⟨2, "Porto", false⟩]⟩, ⟨12, 0, [23, 24]⟩)

def secondQuestion : Drawing := (⟨2, "Capital of Greece?", none, [⟨1, "Athens", true⟩]⟩, ⟨13, 0, [25]⟩)

/-- The question whose position is taken is refused, and the others are returned whole. -/
theorem bulk_equals_each_singly : ∃ each bulk,
    createEach 1 2 author 5 askedDb [oneOption, thirdQuestion, secondQuestion] = some each ∧
      createQuizQuestions askedDb 1 2 author 5 [oneOption, thirdQuestion, secondQuestion] = some bulk ∧
      Agrees 3 each bulk := by
  have hreferenced : OptionsReferenced askedDb := by unfold OptionsReferenced; decide +kernel
  have hruns : (createEach 1 2 author 5 askedDb [oneOption, thirdQuestion, secondQuestion]).isSome =
      true := by decide +kernel
  obtain ⟨each, heach⟩ := Option.isSome_iff_exists.mp hruns
  have hdistinct : ([oneOption, thirdQuestion, secondQuestion].map (·.1.position)).Nodup := by decide
  obtain ⟨bulk, hbulk, hagrees⟩ := bulk_equals_each_iff hreferenced hdistinct heach
  refine ⟨each, bulk, heach, hbulk, hagrees.mpr fun _ x hx hstorable => ?_⟩
  have hrefused : (insertQuestionError askedDb (questionRow 2 author 5 thirdQuestion)
      (optionRows 5 thirdQuestion)).isSome = true := by decide +kernel
  simp only [List.mem_cons, List.not_mem_nil, or_false] at hx
  rcases hx with rfl | rfl | rfl
  · rfl
  · rw [hstorable.2] at hrefused
    cases hrefused
  · rfl

/-- Of the other one the first option is returned. -/
theorem bulk_returns_first_options : ¬ ∀ (db : Db) (quizId quizVersionId : Uuid) (user : JwtPayload)
    (nowIso : Int) (xs : List Drawing) (each : Db × List (Except QuizError (List QuestionJoinRow))),
    OptionsReferenced db → (xs.map (·.1.position)).Nodup →
    createEach quizId quizVersionId user nowIso db xs = some each →
    ∃ bulk, createQuizQuestions db quizId quizVersionId user nowIso xs = some bulk ∧
      Agrees xs.length each bulk := by
  intro hall
  have hread : (createEach 1 2 author 5 draftDb [twoOptions]).map (fun each => (hydratedEach each.2).map
      fun question => question.2.length) = some [2] := by decide +kernel
  have hkept : (createQuizQuestions draftDb 1 2 author 5 [twoOptions]).map (fun bulk =>
      bulk.2.toOption.map fun answer => (hydrateQuestions answer.questions).map
        fun question => question.2.length) = some (some [1]) := by decide +kernel
  obtain ⟨each, heach, hlengths⟩ := Option.map_eq_some_iff.mp hread
  obtain ⟨bulk, hbulk, hagrees⟩ :=
    hall draftDb 1 2 author 5 [twoOptions] each referenced_draftDb (List.nodup_singleton _) heach
  rw [hbulk, Option.map_some, Option.some.injEq] at hkept
  obtain ⟨answer, hanswer, hshort⟩ := Option.map_eq_some_iff.mp hkept
  have hreturned := hagrees.returned answer (by
    cases hresult : bulk.2 with
    | error e => rw [hresult] at hanswer; cases hanswer
    | ok a => rw [hresult] at hanswer; cases hanswer; rfl)
  rw [hreturned, hlengths] at hshort
  cases hshort

end QuizBackend.Quiz.BulkQuestions
