import QuizBackend.Quiz.Publication

/-!
# What has left `draft` stays as it is

Versions are drafts, then published, then archived, and only a draft is to be edited. Whether a version
is one is asked of a row that was read before: neither the `UPDATE` of `updateQuizVersion` nor the
transaction of `createQuestionWithOptions` asks again. And `assertCanAddQuestions`, *version must be a
draft and user must have edit permission*, lets everybody pass when the version is published: for
`getEditTransition` that is the case in which a draft may be made of it, and it asks for no permission
there.

What a question or new settings are written to has to be a draft at that moment, then: nothing more is
needed, and nothing less will do.
-/

namespace QuizBackend.Quiz

open Lib
open Attempt (JwtPayload)

/-! ## Statements -/

def Db.questionsOf (db : Db) (quizVersionId : Uuid) : List QuizQuestionRow :=
  db.quizQuestions.rows.filter fun row => row.quizVersionId = quizVersionId

def Db.optionsOf (db : Db) (questionId : Uuid) : List QuizAnswerOptionRow :=
  db.quizAnswerOptions.rows.filter fun row => row.questionId = questionId

@[ext] structure Content where
  settings : Option VersionSettings
  questions : List (QuizQuestionRow × List QuizAnswerOptionRow)

def Db.content (db : Db) (quizVersionId : Uuid) : Content where
  settings := (db.quizVersions.find? quizVersionId).map (·.settings)
  questions := (db.questionsOf quizVersionId).map fun row => (row, db.optionsOf row.questionId)

/-- The version has been published. -/
def Db.LeftDraft (db : Db) (quizVersionId : Uuid) : Prop :=
  ∃ row, db.quizVersions.find? quizVersionId = some row ∧ row.status ≠ .draft

/-- What has left `draft` has left it for good, with what it holds. -/
def Frozen (s s' : State) : Prop :=
  ∀ quizVersionId, s.db.LeftDraft quizVersionId →
    s'.db.LeftDraft quizVersionId ∧ s'.db.content quizVersionId = s.db.content quizVersionId

instance (creatorId : Option Uuid) (user : JwtPayload) : Decidable (MayEdit creatorId user) :=
  inferInstanceAs (Decidable (_ ∨ _ ∧ _))

def Db.EditableBy (db : Db) (quizVersionId : Uuid) (user : JwtPayload) : Prop :=
  ∃ row quiz, db.quizVersions.find? quizVersionId = some row ∧
    db.quizzes.find? row.quizId = some quiz ∧ MayEdit quiz.creatorId user

/-- Every question was added by somebody who may. -/
def Db.Authored (db : Db) : Prop :=
  ∀ question ∈ db.quizQuestions.rows, db.EditableBy question.quizVersionId question.insertedBy

/-- Questions are written to drafts, and so are settings other than those that are there. -/
def OnDraft (db : Db) : Write → Prop
  | .createQuestionWithOptions question _ =>
    ((db.quizVersions.find? question.quizVersionId).all fun row => row.status = .draft) = true
  | .updateQuizVersion quizVersionId settings _ =>
    ((db.quizVersions.find? quizVersionId).all fun row =>
      row.status = .draft || row.settings = settings) = true
  | _ => True

instance (db : Db) : (w : Write) → Decidable (OnDraft db w)
  | .createQuestionWithOptions .. | .updateQuizVersion .. => inferInstanceAs (Decidable (_ = true))
  | .nothing | .createQuizWithInitialVersion .. | .insertVersion _
  | .publishQuizVersionAndSetQuiz .. | .setFlags .. => .isTrue trivial

/-! ## Content after a write -/

variable {quizVersionId : Uuid}

section Apply

variable {db : Db} {w : Write}

theorem content_apply_of_none (hw : w.newQuestion = none) (quizVersionId : Uuid) :
    ((db.apply w).content quizVersionId).questions = (db.content quizVersionId).questions := by
  simp only [Db.content, Db.questionsOf, Db.optionsOf, (questions_apply_of_none hw).1,
    (questions_apply_of_none hw).2]

section Question

variable {question : QuizQuestionRow} {options : List QuizAnswerOptionRow}

section

variable (h : Licensed db (.createQuestionWithOptions question options))
include h

theorem questionsOf_apply (quizVersionId : Uuid) :
    (db.apply (.createQuestionWithOptions question options)).questionsOf quizVersionId
      = db.questionsOf quizVersionId ++
        if question.quizVersionId = quizVersionId then [question] else [] := by
  rw [Db.questionsOf, (rows_apply_question h).1, List.filter_append]
  congr 1
  split <;> simp_all

theorem optionsOf_apply {questionId : Uuid} (hne : questionId ≠ question.questionId) :
    (db.apply (.createQuestionWithOptions question options)).optionsOf questionId
      = db.optionsOf questionId := by
  have hnone : options.filter (fun row => row.questionId = questionId) = [] := by
    refine List.filter_eq_nil_iff.mpr fun option hoption => ?_
    rw [decide_eq_true_eq, h.2.2.2.2.1 option hoption]
    exact Ne.symm hne
  rw [Db.optionsOf, (rows_apply_question h).2, List.filter_append, hnone, List.append_nil]
  rfl

theorem map_options_apply (quizVersionId : Uuid) :
    ((db.questionsOf quizVersionId).map fun row =>
        (row, (db.apply (.createQuestionWithOptions question options)).optionsOf row.questionId))
      = (db.content quizVersionId).questions := by
  refine List.map_congr_left fun row hrow => ?_
  have hmem := (List.mem_filter.mp hrow).1
  rw [optionsOf_apply h]
  intro hid
  exact Table.find?_eq_none_iff.mp h.1 (List.mem_map.mpr ⟨row, hmem, hid⟩)

theorem content_apply_of_ne (hne : question.quizVersionId ≠ quizVersionId) :
    ((db.apply (.createQuestionWithOptions question options)).content quizVersionId).questions
      = (db.content quizVersionId).questions := by
  rw [Db.content, questionsOf_apply h, if_neg hne, List.append_nil]
  exact map_options_apply h quizVersionId

theorem length_content_apply :
    ((db.apply (.createQuestionWithOptions question options)).content
        question.quizVersionId).questions.length
      = (db.content question.quizVersionId).questions.length + 1 := by
  rw [Db.content, List.length_map, questionsOf_apply h, if_pos rfl, List.length_append, Db.content,
    List.length_map]
  rfl

end

end Question

theorem settings_apply (h : Licensed db w) {row : QuizVersionRow}
    (hrow : db.quizVersions.find? quizVersionId = some row) :
    ((db.apply w).content quizVersionId).settings = some (w.editsVersion row).settings := by
  rw [Db.content, find?_quizVersions_of_find? h hrow, Option.map_some]

theorem editsVersion_settings (w : Write) (row : QuizVersionRow) :
    (w.editsVersion row).settings = match w with
      | .updateQuizVersion quizVersionId settings _ =>
        if row.quizVersionId = quizVersionId then settings else row.settings
      | _ => row.settings := by
  cases w with
  | updateQuizVersion quizVersionId settings nowIso =>
    simp only [Write.editsVersion]
    split <;> rfl
  | publishQuizVersionAndSetQuiz quizId quizVersionId nowIso =>
    rw [editsVersion_publish]
    split
    · rfl
    · unfold QuizVersionRow.archiveOther
      split <;> rfl
  | _ => rfl

theorem leftDraft_apply (h : Licensed db w) (hleft : db.LeftDraft quizVersionId) :
    (db.apply w).LeftDraft quizVersionId := by
  obtain ⟨row, hrow, hstatus⟩ := hleft
  exact ⟨_, find?_quizVersions_of_find? h hrow, fun hdraft => hstatus (editsVersion_draft hdraft)⟩

/-- **A write to a draft leaves what has left `draft` as it is, and any other write does not.** -/
theorem onDraft_iff (h : Licensed db w) :
    OnDraft db w ↔ ∀ quizVersionId, db.LeftDraft quizVersionId →
      (db.apply w).content quizVersionId = db.content quizVersionId := by
  have hcontent : ∀ {quizVersionId row}, db.quizVersions.find? quizVersionId = some row →
      ((db.apply w).content quizVersionId = db.content quizVersionId ↔
        (w.editsVersion row).settings = row.settings ∧
          ((db.apply w).content quizVersionId).questions = (db.content quizVersionId).questions) := by
    intro quizVersionId row hrow
    have hsettings : (db.content quizVersionId).settings = some row.settings := by
      rw [Db.content, hrow, Option.map_some]
    rw [Content.ext_iff, settings_apply h hrow, hsettings, Option.some.injEq]
  cases w with
  | createQuestionWithOptions question options =>
    obtain ⟨row, quiz, hrow, -⟩ := h.2.2.2.1
    simp only [OnDraft, hrow, Option.all_some, decide_eq_true_eq]
    constructor
    · rintro hdraft quizVersionId ⟨row', hrow', hstatus⟩
      refine (hcontent hrow').mpr ⟨rfl, content_apply_of_ne h ?_⟩
      rintro rfl
      rw [hrow, Option.some.injEq] at hrow'
      exact hstatus (hrow' ▸ hdraft)
    · intro hkept
      by_contra hstatus
      have hsame := hkept question.quizVersionId ⟨row, hrow, hstatus⟩
      have hlength := length_content_apply h
      rw [hsame] at hlength
      omega
  | updateQuizVersion quizVersionId settings nowIso =>
    simp only [OnDraft, Option.all_eq_true, Bool.or_eq_true, decide_eq_true_eq]
    constructor
    · rintro hdraft v ⟨row, hrow, hstatus⟩
      refine (hcontent hrow).mpr ⟨?_, content_apply_of_none rfl v⟩
      rw [editsVersion_settings]
      dsimp only
      split
      · rename_i hid
        rw [Table.key_of_find? hrow] at hid
        exact ((hdraft row (hid ▸ hrow)).resolve_left hstatus).symm
      · rfl
    · intro hkept row hrow
      by_cases hstatus : row.status = .draft
      · exact .inl hstatus
      · have hsame := ((hcontent hrow).mp (hkept quizVersionId ⟨row, hrow, hstatus⟩)).1
        rw [editsVersion_settings] at hsame
        dsimp only at hsame
        rw [if_pos (Table.key_of_find? hrow)] at hsame
        exact .inr hsame.symm
  | _ =>
    refine iff_of_true trivial ?_
    rintro v ⟨row, hrow, -⟩
    exact (hcontent hrow).mpr ⟨editsVersion_settings _ row, content_apply_of_none rfl v⟩

theorem Db.EditableBy.apply (h : Licensed db w) {user : JwtPayload}
    (hedit : db.EditableBy quizVersionId user) : (db.apply w).EditableBy quizVersionId user := by
  obtain ⟨row, quiz, hrow, hquiz, hmay⟩ := hedit
  obtain ⟨quiz', hquiz', hcreator⟩ := find?_quizzes_of_find? h hquiz
  refine ⟨_, quiz', find?_quizVersions_of_find? h hrow, ?_, hcreator ▸ hmay⟩
  rw [(editsVersion_identity w row).2.1]
  exact hquiz'

theorem Db.Authored.apply (hauthored : db.Authored) (h : Licensed db w) (hdraft : OnDraft db w) :
    (db.apply w).Authored := by
  intro question hmem
  refine Db.EditableBy.apply h ?_
  cases w with
  | createQuestionWithOptions new options =>
    rw [(rows_apply_question h).1] at hmem
    rcases List.mem_append.mp hmem with hold | hnew
    · exact hauthored question hold
    · cases List.mem_singleton.mp hnew
      obtain ⟨row, quiz, hrow, hquiz, hmay⟩ := h.2.2.2.1
      simp only [OnDraft, hrow, Option.all_some, decide_eq_true_eq] at hdraft
      exact ⟨row, quiz, hrow, hquiz, hmay hdraft⟩
  | _ =>
    rw [(questions_apply_of_none rfl).1] at hmem
    exact hauthored question hmem

end Apply

/-! ## Runs -/

theorem frozen_refl (s : State) : Frozen s s := fun _ hleft => ⟨hleft, rfl⟩

theorem frozen_trans (s t u : State) (hst : Frozen s t) (htu : Frozen t u) : Frozen s u := by
  intro quizVersionId hleft
  obtain ⟨hleft', hcontent⟩ := hst quizVersionId hleft
  obtain ⟨hleft'', hcontent'⟩ := htu quizVersionId hleft'
  exact ⟨hleft'', hcontent'.trans hcontent⟩

theorem onDraft_writes_iff {s s' : State} {a : Action} (h : Inv s) (hauthored : s.db.Authored)
    (hstep : step s a = some s') :
    OnDraft s.db (s.writes a) ↔ s'.db.Authored ∧ Frozen s s' := by
  have hl := licensed_writes h hstep
  unfold Frozen
  rw [db_of_step hstep]
  constructor
  · intro hdraft
    refine ⟨hauthored.apply hl hdraft, fun quizVersionId hleft => ⟨leftDraft_apply hl hleft, ?_⟩⟩
    exact (onDraft_iff hl).mp hdraft quizVersionId hleft
  · rintro ⟨-, hfrozen⟩
    exact (onDraft_iff hl).mpr fun quizVersionId hleft => (hfrozen quizVersionId hleft).2

/-- **Published versions are immutable, exactly.** In a run of authoring requests a version that has
left `draft` keeps its settings, its questions and their options for ever, and every question was
inserted by somebody who may edit the quiz, if and only if every question, and all settings other than
those that were there, were written to what was a draft at that moment. -/
theorem immutable_iff (as : List Action) (s : State) (h : exec step .initial as = some s) :
    (Always step (·.db.Authored) .initial as ∧ Between step Frozen .initial as) ↔
      Along step (fun s a => OnDraft s.db (s.writes a)) .initial as := by
  rw [between_iff_eachStep frozen_refl frozen_trans]
  refine along_iff_good (I := Inv) (fun _ _ _ hi hstep => hi.step hstep)
    (fun _ _ _ hi hauthored hstep => onDraft_writes_iff hi hauthored hstep) h inv_initial ?_
  intro question hmem
  cases hmem

/-! The quiz of `fiveQuestionQuiz` is published. -/

def sixthQuestion : QuestionCommand :=
  ⟨6, "Who am I?", none, [⟨1, "the owner", false⟩, ⟨2, "somebody else", true⟩]⟩

def outsider : JwtPayload := ⟨9, .user⟩

def publishesQuiz : List Action :=
  fiveQuestionQuiz ++ [Action.arrive (.publish 1 1 author 3)] ++ runs 2 3 30

def addsToDraft : List Action :=
  publishesQuiz ++ [Action.arrive (.createVersion 1 author ⟨shortQuiz, none⟩ 4)] ++ runs 3 2 2 ++
  [Action.advance 3 (drawn 2), .arrive (.createQuestion 1 2 author sixthQuestion 5)] ++
  runs 4 2 40

def addsToPublished : List Action :=
  publishesQuiz ++ [.arrive (.createQuestion 1 1 outsider sixthQuestion 5)] ++ runs 3 2 40

/-- Or the author's `UPDATE` of a draft comes after its publication. -/
def updatesLate : List Action :=
  fiveQuestionQuiz ++
  [.arrive (.updateVersion 1 1 author ⟨none, none, some 0, none⟩ 3)] ++ runs 2 1 30 ++
  [.arrive (.publish 1 1 author 3)] ++ runs 3 3 30 ++ runs 2 1 30

/-- The status of the first version, its settings and the users who inserted its questions. -/
def State.first (s : State) :
    Option QuizVersionStatus × Option VersionSettings × List JwtPayload :=
  (s.db.statusIn 1 1, (s.db.content 1).settings, (s.db.questionsOf 1).map (·.insertedBy))

theorem immutable_addsToDraft :
    Always step (·.db.Authored) .initial addsToDraft ∧ Between step Frozen .initial addsToDraft := by
  obtain ⟨s, hs⟩ : ∃ s, exec step .initial addsToDraft = some s :=
    Option.isSome_iff_exists.mp (by decide +kernel)
  exact (immutable_iff addsToDraft s hs).mpr (by decide +kernel)

theorem length_questionsOf_of_frozen {s s' : State} (h : Frozen s s')
    (hs : s.db.statusIn 1 1 = some .published) :
    (s'.db.questionsOf 1).length = (s.db.questionsOf 1).length := by
  obtain ⟨row, hrow, -, hstatus⟩ := statusIn_eq_some_iff.mp hs
  have hcontent := (h 1 ⟨row, hrow, by rw [hstatus]; decide⟩).2
  have hquestions := congrArg (List.length ∘ Content.questions) hcontent
  simpa only [Function.comp_apply, Db.content, List.length_map] using hquestions

/-- **A user adds a question to a published version that is not theirs**, and the settings of one
change after its publication. -/
theorem published_version_changed :
    (∃ s s', exec step .initial publishesQuiz = some s ∧
      exec step .initial addsToPublished = some s' ∧
      s.first = (some .published, some shortQuiz, List.replicate 5 author) ∧
      s'.first = (some .published, some shortQuiz, List.replicate 5 author ++ [outsider]) ∧
      ¬ MayEdit (some author.sub) outsider) ∧
    (¬ ∀ as s, exec step .initial as = some s → Between step Frozen .initial as) ∧
    ∃ s, exec step .initial updatesLate = some s ∧
      s.first = (some .published, some { shortQuiz with passingScorePercent := 0 },
        List.replicate 5 author) := by
  obtain ⟨s, hs, hfirst⟩ : ∃ s, exec step .initial publishesQuiz = some s ∧
      s.first = (some .published, some shortQuiz, List.replicate 5 author) :=
    Option.map_eq_some_iff.mp (by decide +kernel)
  obtain ⟨s', hs', hfirst'⟩ : ∃ s, exec step .initial addsToPublished = some s ∧
      s.first = (some .published, some shortQuiz, List.replicate 5 author ++ [outsider]) :=
    Option.map_eq_some_iff.mp (by decide +kernel)
  refine ⟨⟨s, s', hs, hs', hfirst, hfirst', by decide⟩, ?_,
    Option.map_eq_some_iff.mp (by decide +kernel)⟩
  intro h
  have hfrozen : Frozen s s' := h addsToPublished s' hs' publishesQuiz addsToPublished s s'
    ⟨_, (List.append_assoc ..).symm⟩ (List.prefix_refl _) hs hs'
  have hsame := length_questionsOf_of_frozen hfrozen (congrArg Prod.fst hfirst)
  have hlength : ∀ (s : State), (s.db.questionsOf 1).length = s.first.2.2.length := fun s =>
    (List.length_map _).symm
  rw [hlength, hlength, hfirst, hfirst'] at hsame
  cases hsame

end QuizBackend.Quiz
