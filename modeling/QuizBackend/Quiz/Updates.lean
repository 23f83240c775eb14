import QuizBackend.Quiz.UpdateCommands

/-!
# What an update of a quiz touches

A category that the command does not name reaches the repository as `null` and is written: the quiz
loses the one it had. The list of tags is replaced by a `DELETE` from `quiz_tags` whose condition is on
a column of `quizzes`: the statement is in error, and with it every update that names tags. An update
touches only what its command names exactly where neither comes to bear (`touches_iff`).
-/

namespace QuizBackend.Quiz.Updates

open Lib UpdateParams UpdateQuizCommand
open Attempt (JwtPayload UserRole)

/-! ## What an update may touch -/

/-- The columns under the keys of a patch; with title, description or slug the search vector. -/
def QuizPatch.Names (patch : QuizPatch) : QuizColumn → Bool
  | .title => patch.title.hasOwn
  | .description => patch.description.hasOwn
  | .slug => patch.slug.hasOwn
  | .quizSearchVector => patch.title.hasOwn || patch.description.hasOwn || patch.slug.hasOwn
  | .requirements => patch.requirements.hasOwn
  | .imageUrl => patch.imageUrl.hasOwn
  | .imagePublicId => patch.imagePublicId.hasOwn
  | .isFeatured => patch.isFeatured.hasOwn
  | .isHidden => patch.isHidden.hasOwn
  | _ => false

def UpdateQuizCommand.Names (command : UpdateQuizCommand) : QuizColumn → Bool
  | .title => command.title.hasOwn
  | .description => command.description.hasOwn
  | .slug => command.slug.hasOwn
  | .quizSearchVector => command.title.hasOwn || command.description.hasOwn || command.slug.hasOwn
  | .requirements => command.requirements.hasOwn
  | .imageUrl => command.imageUrl.hasOwn
  | .imagePublicId => command.imagePublicId.hasOwn
  | .isFeatured => command.isFeatured.hasOwn
  | .isHidden => command.isHidden.hasOwn
  | .categoryId => command.categoryId.hasOwn
  | _ => false

def UpdateQuizCommand.columns (command : UpdateQuizCommand) : Set QuizColumn :=
  insert .updatedAt {c | command.Names c = true}

def Db.TagsAre (db : Db) (quizId : Uuid) (tagIds : List String) : Prop :=
  ∀ tagId : Option Uuid,
    tagId ∈ (db.tagRows quizId).map (some ·.tagId) ↔ tagId ∈ tagIds.map Uuid.parse

/-- The call has been refused: the quiz is not there, not the caller's, or the command is not valid. -/
def Outcome.IsRefused (outcome : Outcome) : Prop :=
  ∃ e, outcome.reply = .error e ∧ e.isRefusal = true

instance (outcome : Outcome) : Decidable outcome.IsRefused :=
  match h : outcome.reply with
  | .error e =>
    decidable_of_iff (e.isRefusal = true)
      ⟨fun he => ⟨e, h, he⟩, fun ⟨_, he', he⟩ => by
        cases h.symm.trans he'
        exact he⟩
  | .ok _ => .isFalse fun ⟨_, he', _⟩ => by cases h.symm.trans he'

/-- **A call has touched what its command names**, and nothing else: of its quiz the columns that are
named, with the instant of the update, and the tags when they are named. Those are then the normalised
list, unless the call has been refused. -/
structure Outcome.TouchesOnly (outcome : Outcome) (command : UpdateQuizCommand) (quizId : Uuid)
    (db : Db) : Prop where
  columns : Option.Rel (AgreesOff QuizRow.cell command.columns) (db.quizzes.find? quizId)
    (outcome.db.quizzes.find? quizId)
  tagsKept : command.tagIds.hasOwn = false → outcome.db.tagRows quizId = db.tagRows quizId
  tagsReplaced : command.tagIds.hasOwn = true → ¬ outcome.IsRefused →
    outcome.db.TagsAre quizId (normalizeLinkIds command.tagIds.get?.join)
  otherQuizzes : ∀ other, other ≠ quizId → outcome.db.quizzes.find? other = db.quizzes.find? other
  otherTags : ∀ other, other ≠ quizId → outcome.db.tagRows other = db.tagRows other

/-! ## The columns of one row -/

theorem applyTo_agreesOff (patch : QuizPatch) (nowIso : Int) (row : QuizRow) :
    AgreesOff QuizRow.cell (insert .updatedAt {c | patch.Names c = true}) row
      (patch.applyTo nowIso row) := by
  intro c hc
  rw [Set.mem_insert_iff, Set.mem_ofPred_eq, not_or, Bool.not_eq_true] at hc
  obtain ⟨hne, hnot⟩ := hc
  cases c with
  | title | description | slug | requirements | imageUrl | imagePublicId | isFeatured | isHidden =>
    exact Field.getD_of_not_own hnot
  | quizSearchVector =>
    simp only [QuizPatch.Names, Bool.or_eq_false_iff] at hnot
    exact Prod.ext (Field.getD_of_not_own hnot.1.1)
      (Prod.ext (Field.getD_of_not_own hnot.1.2) (Field.getD_of_not_own hnot.2))
  | updatedAt => exact absurd rfl hne
  | quizId | creatorId | isVerified | createdAt | deletedAt | publishedVersionId | categoryId => rfl

theorem setCategory_agreesOff (categoryId : Option Uuid) (nowIso : Int) (row : QuizRow) :
    AgreesOff QuizRow.cell {.categoryId, .updatedAt} row (row.setCategory categoryId nowIso) := by
  intro c hc
  rw [Set.mem_insert_iff, Set.mem_singleton_iff, not_or] at hc
  obtain ⟨hcategory, hupdated⟩ := hc
  cases c <;> first | rfl | contradiction

theorem hasOwn_of_patchSlug {slug patched : Field String} (h : patchSlug slug = .ok patched)
    (hown : patched.hasOwn = true) : slug.hasOwn = true := by
  cases slug with
  | absent =>
    cases h
    exact hown
  | undefined => rfl
  | value s => rfl

theorem names_of_buildPatch {command : UpdateQuizCommand} {patch : QuizPatch}
    (h : buildPatch command = .ok patch) {c : QuizColumn} (hc : patch.Names c = true) :
    command.Names c = true := by
  unfold buildPatch at h
  cases hslug : patchSlug command.slug with
  | error e =>
    rw [hslug] at h
    cases h
  | ok slug =>
    rw [hslug] at h
    cases h
    have hown := hasOwn_of_patchSlug hslug
    cases c <;>
      simp only [QuizPatch.Names, Names, Field.hasOwn_map, Bool.or_eq_true] at hc ⊢ <;>
      grind [Field.hasOwn_of_defined]

theorem names_of_buildPrivilegedPatch {command : UpdateQuizCommand} {c : QuizColumn}
    (hc : (buildPrivilegedPatch command).Names c = true) : command.Names c = true := by
  cases c <;>
    simp only [QuizPatch.Names, Names, buildPrivilegedPatch] at hc ⊢ <;>
    grind [Field.hasOwn_of_defined, Field.hasOwn]

def UpdateParams.patched (params : UpdateParams) (row : QuizRow) : QuizRow :=
  if params.patch.isEmpty then row else params.patch.applyTo params.nowIso row

theorem patched_agreesOff {command : UpdateQuizCommand} {params : UpdateParams}
    (hnames : ∀ c, params.patch.Names c = true → command.Names c = true) (row : QuizRow) :
    AgreesOff QuizRow.cell command.columns row (params.patched row) := by
  unfold patched
  split
  · exact .refl _ _
  · exact (applyTo_agreesOff params.patch params.nowIso row).mono
      (Set.insert_subset_insert fun c hc => hnames c hc)

/-- **The row that an update leaves** has kept its frame where the command names the category, or the
category has been there before. -/
theorem saved_agreesOff_iff {command : UpdateQuizCommand} {params : UpdateParams}
    (hnames : ∀ c, params.patch.Names c = true → command.Names c = true) (row : QuizRow)
    (categoryId : Option Uuid) :
    AgreesOff QuizRow.cell command.columns row
        ((params.patched row).setCategory categoryId params.nowIso) ↔
      command.categoryId.hasOwn = true ∨ categoryId = row.categoryId := by
  have hsaved := (patched_agreesOff hnames row).trans
    (setCategory_agreesOff categoryId params.nowIso (params.patched row))
  have hcolumns : command.columns ∪ {.categoryId, .updatedAt} = insert .categoryId command.columns := by
    ext c
    simp only [columns, Set.mem_union, Set.mem_insert_iff, Set.mem_singleton_iff]
    tauto
  rw [hcolumns] at hsaved
  have hnamed : QuizColumn.categoryId ∈ command.columns ↔ command.categoryId.hasOwn = true := by
    simp [columns, Names]
  rw [agreesOff_iff_of_insert hsaved, hnamed]
  rfl

/-! ## The statements -/

@[simp] theorem patched_deletedAt (params : UpdateParams) (row : QuizRow) :
    (params.patched row).deletedAt = row.deletedAt := by
  unfold patched
  split <;> rfl

@[simp] theorem patched_categoryId (params : UpdateParams) (row : QuizRow) :
    (params.patched row).categoryId = row.categoryId := by
  unfold patched
  split <;> rfl

theorem violation?_setCategory (db : Db) (row : QuizRow) (categoryId : Option Uuid) (nowIso : Int) :
    db.violation? row (row.setCategory categoryId nowIso) =
      if categoryId ≠ row.categoryId ∧ categoryId.any (fun c => c ∉ db.categories) then
        some .foreignKeyViolation
      else none := by
  have hnul : (row.setCategory categoryId nowIso).hasNul = row.hasNul := rfl
  have htitle : (row.setCategory categoryId nowIso).title = row.title := rfl
  have hslug : (row.setCategory categoryId nowIso).slug = row.slug := rfl
  have hcategory : (row.setCategory categoryId nowIso).categoryId = categoryId := rfl
  unfold Db.violation?
  rw [hnul, htitle, hslug, hcategory, if_neg (by simp), if_neg (fun h => h.1 rfl),
    if_neg (fun h => h.1 rfl), if_neg (fun h => h.1 rfl)]

theorem violation?_privileged (db : Db) (command : UpdateQuizCommand) (nowIso : Int) (row : QuizRow) :
    db.violation? row ((buildPrivilegedPatch command).applyTo nowIso row) = none := by
  have hnul : ((buildPrivilegedPatch command).applyTo nowIso row).hasNul = row.hasNul := rfl
  have htitle : ((buildPrivilegedPatch command).applyTo nowIso row).title = row.title := rfl
  have hslug : ((buildPrivilegedPatch command).applyTo nowIso row).slug = row.slug := rfl
  have hcategory : ((buildPrivilegedPatch command).applyTo nowIso row).categoryId = row.categoryId := rfl
  unfold Db.violation?
  rw [hnul, htitle, hslug, hcategory, if_neg (by simp), if_neg (fun h => h.1 rfl),
    if_neg (fun h => h.1 rfl), if_neg (fun h => h.1 rfl), if_neg (fun h => h.1 rfl)]

theorem find?_of_active {db : Db} {quizId : Uuid} {quiz : QuizRow}
    (h : db.getActiveQuizRecordById quizId = some quiz) :
    db.quizzes.find? quizId = some quiz ∧ quiz.deletedAt = none := by
  obtain ⟨hfind, hlive⟩ := Option.filter_eq_some_iff.mp h
  exact ⟨hfind, Option.isNone_iff_eq_none.mp hlive⟩

/-- The quiz has this row, and all else is as it was. -/
structure Db.Saved (db : Db) (quizId : Uuid) (row : QuizRow) (db' : Db) : Prop where
  found : db'.quizzes.find? quizId = some row
  others : ∀ other, other ≠ quizId → db'.quizzes.find? other = db.quizzes.find? other
  quizTags : db'.quizTags = db.quizTags
  tags : db'.tags = db.tags
  categories : db'.categories = db.categories

theorem Db.Saved.trans {db db₁ db₂ : Db} {quizId : Uuid} {row row' : QuizRow}
    (h : db.Saved quizId row db₁) (h' : db₁.Saved quizId row' db₂) : db.Saved quizId row' db₂ :=
  ⟨h'.found, fun other hne => (h'.others other hne).trans (h.others other hne),
    h'.quizTags.trans h.quizTags, h'.tags.trans h.tags, h'.categories.trans h.categories⟩

theorem Db.Saved.active {db db' : Db} {quizId : Uuid} {row : QuizRow} (h : db.Saved quizId row db')
    (hlive : row.deletedAt = none) : db'.getActiveQuizRecordById quizId = some row :=
  Option.filter_eq_some_iff.mpr ⟨h.found, Option.isNone_iff_eq_none.mpr hlive⟩

theorem updateQuizRow_of_active {db : Db} {quizId : Uuid} {quiz : QuizRow} {set : QuizRow → QuizRow}
    {hset : ∀ row, (set row).quizId = row.quizId} (h : db.getActiveQuizRecordById quizId = some quiz) :
    (∃ e, db.violation? quiz (set quiz) = some e ∧ db.updateQuizRow quizId set hset = .error e) ∨
      (db.violation? quiz (set quiz) = none ∧
        ∃ db', db.updateQuizRow quizId set hset = .ok db' ∧ db.Saved quizId (set quiz) db') := by
  unfold Db.updateQuizRow
  rw [h]
  cases hviolation : db.violation? quiz (set quiz) with
  | some e => exact .inl ⟨e, rfl, by simp only [hviolation]⟩
  | none =>
    have hfound : (db.quizzes.modify quizId set hset).find? quizId = some (set quiz) :=
      Table.find?_modify_self (find?_of_active h).1
    have hothers : ∀ other, other ≠ quizId →
        (db.quizzes.modify quizId set hset).find? other = db.quizzes.find? other :=
      fun _ hne => Table.find?_modify_ne hne
    refine .inr ⟨rfl, { db with quizzes := db.quizzes.modify quizId set hset }, ?_, ?_⟩
    · simp only [hviolation]
    · exact ⟨hfound, hothers, rfl, rfl, rfl⟩

theorem updateQuizRow_of_none {db : Db} {quizId : Uuid} {set : QuizRow → QuizRow}
    {hset : ∀ row, (set row).quizId = row.quizId} (h : db.getActiveQuizRecordById quizId = none) :
    db.updateQuizRow quizId set hset = .ok db := by
  unfold Db.updateQuizRow
  rw [h]

section Statements

variable {params : UpdateParams} {db : Db}

theorem writePatch_of_active {quiz : QuizRow}
    (h : db.getActiveQuizRecordById params.quizId = some quiz) :
    (∃ e, db.violation? quiz (params.patched quiz) = some e ∧ params.writePatch db = .error e) ∨
      (db.violation? quiz (params.patched quiz) = none ∧
        ∃ db', params.writePatch db = .ok db' ∧ db.Saved params.quizId (params.patched quiz) db') := by
  unfold writePatch patched
  cases hempty : params.patch.isEmpty with
  | false => exact updateQuizRow_of_active h
  | true =>
    refine .inr ⟨?_, db, rfl, (find?_of_active h).1, fun _ _ => rfl, rfl, rfl, rfl⟩
    have hsame : ∀ row : QuizRow, db.violation? row row = none := fun row => by
      simp [Db.violation?]
    exact hsame quiz

theorem writePatch_of_none (h : db.getActiveQuizRecordById params.quizId = none) :
    params.writePatch db = .ok db := by
  unfold writePatch
  split
  · rfl
  · exact updateQuizRow_of_none h

/-- **What the statements on the row can come to**, with `text` for the category. -/
inductive RowResult (params : UpdateParams) (text : Option String) (db : Db) : Except SqlError Db → Prop
  | noQuiz : db.getActiveQuizRecordById params.quizId = none → RowResult params text db (.ok db)
  | badText {e : SqlError} : uuidParam? text = .error e →
      (∀ quiz, db.getActiveQuizRecordById params.quizId = some quiz →
        db.violation? quiz (params.patched quiz) = none) → RowResult params text db (.error e)
  | violates {quiz : QuizRow} {e : SqlError} : db.getActiveQuizRecordById params.quizId = some quiz →
      db.violation? quiz (params.patched quiz) = some e → RowResult params text db (.error e)
  | noCategory {quiz : QuizRow} {categoryId : Option Uuid} :
      db.getActiveQuizRecordById params.quizId = some quiz →
      db.violation? quiz (params.patched quiz) = none → uuidParam? text = .ok categoryId →
      categoryId ≠ quiz.categoryId → categoryId.any (fun c => c ∉ db.categories) = true →
      RowResult params text db (.error .foreignKeyViolation)
  | saved {quiz : QuizRow} {categoryId : Option Uuid} {db' : Db} :
      db.getActiveQuizRecordById params.quizId = some quiz →
      db.violation? quiz (params.patched quiz) = none → uuidParam? text = .ok categoryId →
      ¬ (categoryId ≠ quiz.categoryId ∧ categoryId.any (fun c => c ∉ db.categories) = true) →
      db.Saved params.quizId ((params.patched quiz).setCategory categoryId params.nowIso) db' →
      RowResult params text db (.ok db')

theorem rowResult {text : Option String} (htext : params.categoryId = some text) :
    RowResult params text db ((params.writePatch db).bind params.writeCategory) := by
  have hcategory : ∀ db₁ : Db, params.writeCategory db₁ = (uuidParam? text).bind fun categoryId =>
      db₁.updateQuizRow params.quizId (·.setCategory categoryId params.nowIso)
        (QuizRow.setCategory_quizId categoryId params.nowIso) := fun db₁ => by
    unfold writeCategory
    rw [htext]
  cases hactive : db.getActiveQuizRecordById params.quizId with
  | none =>
    rw [writePatch_of_none hactive, Except.bind, hcategory]
    cases hparam : uuidParam? text with
    | error e =>
      refine .badText hparam fun quiz hquiz => ?_
      rw [hactive] at hquiz
      cases hquiz
    | ok categoryId =>
      rw [Except.bind, updateQuizRow_of_none hactive]
      exact .noQuiz hactive
  | some quiz =>
    rcases writePatch_of_active hactive with ⟨e, hviolation, hwrite⟩ | ⟨hviolation, db₁, hwrite, hsaved⟩
    · rw [hwrite]
      exact .violates hactive hviolation
    rw [hwrite, Except.bind, hcategory]
    cases hparam : uuidParam? text with
    | error e =>
      refine .badText hparam fun quiz' hquiz => ?_
      rw [hactive] at hquiz
      cases hquiz
      exact hviolation
    | ok categoryId =>
      have hlive : (params.patched quiz).deletedAt = none := by
        rw [patched_deletedAt]
        exact (find?_of_active hactive).2
      rw [Except.bind]
      rcases @updateQuizRow_of_active _ _ _ (·.setCategory categoryId params.nowIso)
          (QuizRow.setCategory_quizId categoryId params.nowIso) (hsaved.active hlive) with
        ⟨e, hviolation', hwrite'⟩ | ⟨hviolation', db₂, hwrite', hsaved'⟩
      · rw [hwrite']
        rw [violation?_setCategory, patched_categoryId, hsaved.categories] at hviolation'
        split at hviolation'
        · next hbad =>
          cases hviolation'
          exact .noCategory hactive hviolation hparam hbad.1 hbad.2
        · cases hviolation'
      · rw [hwrite']
        rw [violation?_setCategory, patched_categoryId, hsaved.categories] at hviolation'
        split at hviolation'
        · cases hviolation'
        · next hgood => exact .saved hactive hviolation hparam hgood (hsaved.trans hsaved')

theorem writes_eq (params : UpdateParams) (db : Db) :
    params.writes db = ((params.writePatch db).bind params.writeCategory).bind params.writeTags := by
  unfold writes
  cases params.writePatch db <;> rfl

end Statements

/-! ## Where the frame is kept -/

/-- A constraint refuses the update: its slug is taken, or there is no such category. -/
def UpdateParams.IsRefused (params : UpdateParams) (db : Db) : Prop :=
  ∃ quiz, db.getActiveQuizRecordById params.quizId = some quiz ∧
    (db.violation? quiz (params.patched quiz) = some .uniqueViolation ∨
      (db.violation? quiz (params.patched quiz) = none ∧
        ∃ text categoryId, params.categoryId = some text ∧ uuidParam? text = .ok categoryId ∧
          categoryId ≠ quiz.categoryId ∧ categoryId.any (fun c => c ∉ db.categories) = true))

def UpdateParams.FindsCategory (params : UpdateParams) (db : Db) : Prop :=
  ∃ quiz, db.getActiveQuizRecordById params.quizId = some quiz ∧ quiz.categoryId ≠ none ∧
    db.violation? quiz (params.patched quiz) = none

section Frame

variable {command : UpdateQuizCommand} {params : UpdateParams} {replica : Replica} {db : Db}
  {text : Option String}

theorem isRefused_iff {quiz : QuizRow} (h : db.getActiveQuizRecordById params.quizId = some quiz)
    (htext : params.categoryId = some text) :
    params.IsRefused db ↔ db.violation? quiz (params.patched quiz) = some .uniqueViolation ∨
      (db.violation? quiz (params.patched quiz) = none ∧ ∃ categoryId, uuidParam? text = .ok categoryId ∧
        categoryId ≠ quiz.categoryId ∧ categoryId.any (fun c => c ∉ db.categories) = true) := by
  simp [IsRefused, h, htext]

theorem findsCategory_iff {quiz : QuizRow}
    (h : db.getActiveQuizRecordById params.quizId = some quiz) :
    params.FindsCategory db ↔
      quiz.categoryId ≠ none ∧ db.violation? quiz (params.patched quiz) = none := by
  simp [FindsCategory, h]

theorem not_isRefused_of_none (h : db.getActiveQuizRecordById params.quizId = none) :
    ¬ params.IsRefused db := by
  simp [IsRefused, h]

theorem not_findsCategory_of_none (h : db.getActiveQuizRecordById params.quizId = none) :
    ¬ params.FindsCategory db := by
  simp [FindsCategory, h]

theorem error_of_uuidParam? {e : SqlError} (h : uuidParam? text = .error e) :
    ∃ t, text = some t ∧ e = .invalidTextRepresentation := by
  cases text with
  | none => cases h
  | some t =>
    refine ⟨t, rfl, ?_⟩
    rw [uuidParam?, uuidParam] at h
    cases hparse : Uuid.parse t with
    | none =>
      simp only [hparse, Except.map, Except.error.injEq] at h
      exact h.symm
    | some id =>
      simp only [hparse, Except.map, reduceCtorEq] at h

theorem tagRows_congr {db db' : Db} (h : db'.quizTags = db.quizTags) (quizId : Uuid) :
    db'.tagRows quizId = db.tagRows quizId := by
  rw [Db.tagRows, Db.tagRows, h]

theorem touchesOnly_iff_of_tags {outcome : Outcome} {quizId : Uuid}
    (htags : outcome.db.quizTags = db.quizTags)
    (hothers : ∀ other, other ≠ quizId → outcome.db.quizzes.find? other = db.quizzes.find? other) :
    outcome.TouchesOnly command quizId db ↔
      Option.Rel (AgreesOff QuizRow.cell command.columns) (db.quizzes.find? quizId)
          (outcome.db.quizzes.find? quizId) ∧
        (command.tagIds.hasOwn = true →
          outcome.IsRefused ∨ db.TagsAre quizId (normalizeLinkIds command.tagIds.get?.join)) := by
  have hrows := tagRows_congr htags
  have hsame : ∀ l, outcome.db.TagsAre quizId l ↔ db.TagsAre quizId l := fun l => by
    rw [Db.TagsAre, Db.TagsAre, hrows]
  constructor
  · intro h
    refine ⟨h.columns, fun hown => ?_⟩
    by_cases hrefused : outcome.IsRefused
    · exact .inl hrefused
    · exact .inr ((hsame _).mp (h.tagsReplaced hown hrefused))
  · rintro ⟨hcolumns, hreplaced⟩
    exact ⟨hcolumns, fun _ => hrows quizId,
      fun hown hrefused => (hsame _).mpr ((hreplaced hown).resolve_left hrefused), hothers,
      fun other _ => hrows other⟩

theorem rel_refl (quiz? : Option QuizRow) :
    Option.Rel (AgreesOff QuizRow.cell command.columns) quiz? quiz? := by
  cases quiz? with
  | none => exact .none
  | some quiz => exact .some (.refl _ quiz)

theorem touchesOnly_iff_of_same {outcome : Outcome} {quizId : Uuid} (h : outcome.db = db) :
    outcome.TouchesOnly command quizId db ↔
      (command.tagIds.hasOwn = true →
        outcome.IsRefused ∨ db.TagsAre quizId (normalizeLinkIds command.tagIds.get?.join)) := by
  rw [touchesOnly_iff_of_tags (by rw [h]) (by intro other _; rw [h]), h, and_iff_right (rel_refl _)]

theorem touchesOnly_of_refused {e : UpdateError} {quizId : Uuid} (he : e.isRefusal = true) :
    (⟨.error e, [], db⟩ : Outcome).TouchesOnly command quizId db :=
  (touchesOnly_iff_of_same rfl).mpr fun _ => .inl ⟨e, rfl, he⟩

/-! ### Without tags -/

theorem writes_of_no_tags (htags : params.tagIds = none) (htext : params.categoryId = some text) :
    RowResult params text db (params.writes db) := by
  have hrest : ∀ result : Except SqlError Db, result.bind params.writeTags = result := fun result => by
    cases result with
    | error e => rfl
    | ok db =>
      rw [Except.bind, writeTags, htags]
  rw [writes_eq, hrest]
  exact rowResult htext

section

variable (updatedByUserId : String)

theorem db_of_saveQuiz {result : Except SqlError Db}
    (h : params.writes db = result) :
    (saveQuiz replica db updatedByUserId params).db = result.toOption.getD db := by
  unfold saveQuiz updateQuizWithLinks
  rw [h]
  cases result with
  | error e => rfl
  | ok db' =>
    cases hrow : db'.getActiveQuizRecordById params.quizId with
    | none => simp only [hrow, Option.map_none]; rfl
    | some quiz => simp only [hrow, Option.map_some]; rfl

theorem saveQuiz_of_no_tags (htags : params.tagIds = none)
    (htext : params.categoryId = some text) :
    (saveQuiz replica db updatedByUserId params).db.quizTags = db.quizTags ∧
      ∀ other, other ≠ params.quizId →
        (saveQuiz replica db updatedByUserId params).db.quizzes.find? other
          = db.quizzes.find? other := by
  have hresult : RowResult params text db (params.writes db) := writes_of_no_tags htags htext
  generalize hwrites : params.writes db = result at hresult
  rw [db_of_saveQuiz updatedByUserId hwrites]
  cases hresult with
  | noQuiz h => exact ⟨rfl, fun _ _ => rfl⟩
  | badText h hno => exact ⟨rfl, fun _ _ => rfl⟩
  | violates h hviolation => exact ⟨rfl, fun _ _ => rfl⟩
  | noCategory h hno hparam hne hunknown => exact ⟨rfl, fun _ _ => rfl⟩
  | saved h hno hparam hgood hsaved => exact ⟨hsaved.quizTags, hsaved.others⟩

/-- **The columns of the quiz** are in their frame unless a category is cleared. -/
theorem saveQuiz_columns_iff (hnames : ∀ c, params.patch.Names c = true → command.Names c = true)
    (htags : params.tagIds = none) (htext : params.categoryId = some text)
    (hnull : command.categoryId.hasOwn = false → text = none) :
    Option.Rel (AgreesOff QuizRow.cell command.columns) (db.quizzes.find? params.quizId)
        ((saveQuiz replica db updatedByUserId params).db.quizzes.find? params.quizId) ↔
      command.categoryId.hasOwn = true ∨ ¬ params.FindsCategory db := by
  have hresult : RowResult params text db (params.writes db) := writes_of_no_tags htags htext
  generalize hwrites : params.writes db = result at hresult
  rw [db_of_saveQuiz updatedByUserId hwrites]
  have hnone : command.categoryId.hasOwn = true ∨ text = none := by
    cases hown : command.categoryId.hasOwn with
    | true => exact .inl rfl
    | false => exact .inr (hnull hown)
  cases hresult with
  | noQuiz h => exact iff_of_true (rel_refl _) (.inr (not_findsCategory_of_none h))
  | badText h hno =>
    obtain ⟨t, ht, -⟩ := error_of_uuidParam? h
    exact iff_of_true (rel_refl _) (hnone.imp_right fun hnull => by rw [hnull] at ht; cases ht)
  | violates h hviolation =>
    refine iff_of_true (rel_refl _) (.inr ?_)
    rw [findsCategory_iff h, hviolation]
    exact fun hfinds => by cases hfinds.2
  | noCategory h hno hparam hne hunknown =>
    refine iff_of_true (rel_refl _) (hnone.imp_right fun hnull => ?_)
    rw [hnull] at hparam
    cases hparam
    cases hunknown
  | @saved quiz categoryId db' h hno hparam hgood hsaved =>
    have hrel : Option.Rel (AgreesOff QuizRow.cell command.columns) (db.quizzes.find? params.quizId)
        (db'.quizzes.find? params.quizId) ↔
          command.categoryId.hasOwn = true ∨ categoryId = quiz.categoryId := by
      rw [(find?_of_active h).1, hsaved.found, Option.rel_some_some, saved_agreesOff_iff hnames]
    refine hrel.trans ?_
    rcases hnone with hown | hnull
    · exact iff_of_true (.inl hown) (.inl hown)
    · rw [hnull] at hparam
      cases hparam
      rw [findsCategory_iff h, and_iff_left hno, not_not, @eq_comm _ none quiz.categoryId]

end

/-! ### With tags -/

theorem writeTags_of_some {tagIds : List String} (htags : params.tagIds = some tagIds) :
    params.writeTags db = .error (.undefinedTable "quizzes") := by
  rw [writeTags, htags]
  rfl

theorem violation?_patched_ne (quiz : QuizRow) :
    db.violation? quiz (params.patched quiz) ≠ some .foreignKeyViolation := by
  unfold Db.violation?
  rw [patched_categoryId]
  split
  · intro h
    cases h
  split
  · intro h
    cases h
  split
  · intro h
    cases h
  split
  · intro h
    cases h
  rw [if_neg fun h => h.1 rfl]
  intro h
  cases h

theorem isRefusal_mapQuizUpdateError (e : SqlError) :
    (mapQuizUpdateError e).isRefusal = true ↔ e = .uniqueViolation ∨ e = .foreignKeyViolation := by
  cases e <;> simp [mapQuizUpdateError, UpdateError.isRefusal]

/-- **An update with tags fails**, and it is refused where a constraint speaks before the `DELETE`. -/
theorem writes_of_tags {tagIds : List String} (htags : params.tagIds = some tagIds)
    (htext : params.categoryId = some text) :
    ∃ e, params.writes db = .error e ∧
      ((mapQuizUpdateError e).isRefusal = true ↔ params.IsRefused db) := by
  have hresult : RowResult params text db ((params.writePatch db).bind params.writeCategory) :=
    rowResult htext
  rw [writes_eq]
  generalize (params.writePatch db).bind params.writeCategory = result at hresult
  cases hresult with
  | noQuiz h =>
    refine ⟨_, writeTags_of_some htags, iff_of_false ?_ (not_isRefused_of_none h)⟩
    exact fun hrefusal => by cases hrefusal
  | @badText e h hno =>
    obtain ⟨t, -, rfl⟩ := error_of_uuidParam? h
    refine ⟨_, rfl, iff_of_false (fun hrefusal => by cases hrefusal) ?_⟩
    rintro ⟨quiz, hquiz, hunique | ⟨-, text', categoryId, htext', hparam, -⟩⟩
    · rw [hno quiz hquiz] at hunique
      cases hunique
    · rw [htext] at htext'
      cases htext'
      rw [h] at hparam
      cases hparam
  | @violates quiz e h hviolation =>
    refine ⟨e, rfl, ?_⟩
    have hforeign : e ≠ .foreignKeyViolation := fun he =>
      violation?_patched_ne quiz (he ▸ hviolation)
    rw [isRefusal_mapQuizUpdateError, or_iff_left hforeign, isRefused_iff h htext, hviolation,
      Option.some.injEq]
    exact ⟨.inl, fun hrefused => hrefused.resolve_right fun hno => by cases hno.1⟩
  | @noCategory quiz categoryId h hno hparam hne hunknown =>
    refine ⟨.foreignKeyViolation, rfl, iff_of_true rfl ((isRefused_iff h htext).mpr ?_)⟩
    exact .inr ⟨hno, categoryId, hparam, hne, hunknown⟩
  | @saved quiz categoryId db' h hno hparam hgood hsaved =>
    refine ⟨_, writeTags_of_some htags, iff_of_false (fun hrefusal => by cases hrefusal) ?_⟩
    rw [isRefused_iff h htext, hno]
    rintro (hunique | ⟨-, categoryId', hparam', hne, hunknown⟩)
    · cases hunique
    · rw [hparam] at hparam'
      cases hparam'
      exact hgood ⟨hne, hunknown⟩

end Frame

/-! ## The two methods -/

/-- Where the update of a patch touches only what the command names: with tags where it is refused, or
leaves the tags that there were; without where there is nothing to write, or no category to lose. -/
def PatchKeeps (command : UpdateQuizCommand) (nowIso : Int) (db : Db) (quizId : Uuid)
    (patch : QuizPatch) : Prop :=
  (command.tagIds.hasOwn = true →
    (updateParams command nowIso quizId patch).IsRefused db ∨
      db.TagsAre quizId (normalizeLinkIds command.tagIds.get?.join)) ∧
  (command.tagIds.hasOwn = false →
    patch.isEmpty = true ∨ command.categoryId.hasOwn = true ∨
      ¬ (updateParams command nowIso quizId patch).FindsCategory db)

/-- Where `updateQuiz` does: where the service lets the update pass, if it keeps the frame. -/
def UpdateKeeps (replica : Replica) (command : UpdateQuizCommand) (nowIso : Int) (db : Db) (quizId : Uuid)
    (user : JwtPayload) : Prop :=
  ∀ quiz patch, replica.atCheck.getActiveQuizRecordById quizId = some quiz →
    canEdit quiz.creatorId user = true → buildPatch command = .ok patch →
      PatchKeeps command nowIso db quizId patch

def AdminUpdateKeeps (replica : Replica) (command : UpdateQuizCommand) (db : Db) (quizId : Uuid) : Prop :=
  (command.tagIds.hasOwn = true →
    (((buildPrivilegedPatch command).isEmpty = true ∨ db.getActiveQuizRecordById quizId = none) ∧
        ∀ quiz, replica.atRefetch.getActiveQuizRecordById quizId = some quiz → quiz.isHidden = true) ∨
      db.TagsAre quizId (normalizeLinkIds command.tagIds.get?.join)) ∧
  ((buildPrivilegedPatch command).isEmpty = true ∨ command.categoryId.hasOwn = true ∨
    ∀ quiz, db.getActiveQuizRecordById quizId = some quiz → quiz.categoryId = none)

/-- **A call with the quiz that it is for**; without one it touches nothing. -/
def Outcome.Touches (outcome : Outcome) (command : UpdateQuizCommand) (target : Option Uuid) (db : Db) :
    Prop :=
  (∀ quizId, target = some quizId → outcome.TouchesOnly command quizId db) ∧
    (target = none → outcome.db = db)

section Methods

variable {replica : Replica} {command : UpdateQuizCommand} {nowIso : Int} {db : Db} {quizId : Uuid}

theorem saveQuiz_of_error {params : UpdateParams} {e : SqlError} (updatedByUserId : String)
    (h : params.writes db = .error e) :
    saveQuiz replica db updatedByUserId params = ⟨.error (mapQuizUpdateError e), [], db⟩ := by
  unfold saveQuiz updateQuizWithLinks
  rw [h]

theorem isRefusal_of_patchSlug {slug : Field String} {e : UpdateError} (h : patchSlug slug = .error e) :
    e.isRefusal = true := by
  cases slug with
  | absent | undefined => cases h
  | value s =>
    simp only [patchSlug, normalizeQuizSlug] at h
    split at h
    · cases h
      rfl
    split at h
    · cases h
    · cases h
      rfl

theorem isRefusal_of_buildPatch {e : UpdateError} (h : buildPatch command = .error e) :
    e.isRefusal = true := by
  unfold buildPatch at h
  cases hslug : patchSlug command.slug with
  | ok slug =>
    rw [hslug] at h
    cases h
  | error e' =>
    rw [hslug] at h
    cases h
    exact isRefusal_of_patchSlug hslug

theorem isRefused_error {e : UpdateError} {events : List QuizUpdatedEvent} :
    (⟨.error e, events, db⟩ : Outcome).IsRefused ↔ e.isRefusal = true := by
  constructor
  · rintro ⟨e', he, hrefusal⟩
    cases he
    exact hrefusal
  · intro h
    exact ⟨e, rfl, h⟩

theorem saveQuiz_with_tags (updatedByUserId : String) {params : UpdateParams} {tagIds : List String}
    {text : Option String} (htags : params.tagIds = some tagIds) (htext : params.categoryId = some text) :
    (saveQuiz replica db updatedByUserId params).db = db ∧
      ((saveQuiz replica db updatedByUserId params).IsRefused ↔ params.IsRefused db) := by
  obtain ⟨e, hwrites, hrefusal⟩ := @writes_of_tags _ db _ _ htags htext
  rw [saveQuiz_of_error updatedByUserId hwrites, isRefused_error]
  exact ⟨rfl, hrefusal⟩

theorem saveUpdate_touchesOnly_iff (updatedByUserId : String) {patch : QuizPatch}
    (h : buildPatch command = .ok patch)
    (hwrites : patch.isEmpty = true → command.tagIds.hasOwn = false → command.categoryId.hasOwn = true) :
    (saveQuiz replica db updatedByUserId (updateParams command nowIso quizId patch)).TouchesOnly
        command quizId db ↔ PatchKeeps command nowIso db quizId patch := by
  unfold PatchKeeps
  cases hown : command.tagIds.hasOwn with
  | true =>
    have htags : (updateParams command nowIso quizId patch).tagIds
        = some (normalizeLinkIds command.tagIds.get?.join) := by
      rw [updateParams, if_pos hown]
    obtain ⟨hsame, hrefused⟩ := @saveQuiz_with_tags replica db updatedByUserId _ _ _ htags rfl
    rw [touchesOnly_iff_of_same hsame, hrefused, hown]
    simp
  | false =>
    have htags : (updateParams command nowIso quizId patch).tagIds = none := by
      rw [updateParams, hown]
      rfl
    obtain ⟨hkept, hothers⟩ := @saveQuiz_of_no_tags _ replica db _ updatedByUserId htags rfl
    refine (touchesOnly_iff_of_tags hkept hothers).trans ?_
    have hnull : command.categoryId.hasOwn = false →
        (if command.categoryId.hasOwn then command.categoryId.get?.join else none) = none :=
      fun hcategory => by rw [hcategory]; rfl
    have hcolumns := @saveQuiz_columns_iff command (updateParams command nowIso quizId patch) replica db _
      updatedByUserId (fun c => names_of_buildPatch h) htags rfl hnull
    -- an empty patch is written for the sake of the category
    have hempty : patch.isEmpty = true ∨ command.categoryId.hasOwn = true ∨
        ¬ (updateParams command nowIso quizId patch).FindsCategory db ↔
          command.categoryId.hasOwn = true ∨
            ¬ (updateParams command nowIso quizId patch).FindsCategory db :=
      or_iff_right_of_imp fun hempty => .inl (hwrites hempty hown)
    rw [hown, hempty]
    simpa using hcolumns

theorem updateQuizById_touchesOnly_iff (user : JwtPayload) :
    (updateQuizById replica command nowIso db quizId user).TouchesOnly command quizId db ↔
      UpdateKeeps replica command nowIso db quizId user := by
  unfold updateQuizById
  cases hactive : replica.atCheck.getActiveQuizRecordById quizId with
  | none =>
    refine iff_of_true (touchesOnly_of_refused rfl) fun quiz patch hquiz => ?_
    rw [hactive] at hquiz
    cases hquiz
  | some quiz =>
    have hkeeps : UpdateKeeps replica command nowIso db quizId user ↔
        (canEdit quiz.creatorId user = true → ∀ patch, buildPatch command = .ok patch →
          PatchKeeps command nowIso db quizId patch) := by
      constructor
      · intro h hedit patch hpatch
        exact h quiz patch hactive hedit hpatch
      · intro h quiz' patch hquiz hedit hpatch
        cases hactive.symm.trans hquiz
        exact h hedit patch hpatch
    rw [hkeeps]
    by_cases hedit : canEdit quiz.creatorId user = true
    · rw [forall_prop_of_true hedit]
      simp only [hedit, if_true]
      cases hpatch : buildPatch command with
      | error e =>
        refine iff_of_true (touchesOnly_of_refused (isRefusal_of_buildPatch hpatch)) ?_
        exact fun patch h => by cases h
      | ok patch =>
        simp only [Except.ok.injEq, forall_eq']
        split
        · next hnothing =>
          simp only [Bool.and_eq_true, Bool.not_eq_true'] at hnothing
          obtain ⟨⟨hempty, -⟩, hown⟩ := hnothing
          refine iff_of_true ((touchesOnly_iff_of_same rfl).mpr fun h => ?_)
            ⟨fun h => ?_, fun _ => .inl hempty⟩ <;>
          · rw [hown] at h
            cases h
        · next hsomething =>
          refine saveUpdate_touchesOnly_iff user.sub.text hpatch fun hempty hown => ?_
          simpa [hempty, hown] using hsomething
    · simp only [hedit, Bool.false_eq_true, if_false]
      exact iff_of_true (touchesOnly_of_refused rfl) fun h => by cases h

theorem refetchQuiz_isRefused_iff :
    (refetchQuiz replica db quizId).IsRefused ↔
      ∀ quiz, replica.atRefetch.getActiveQuizRecordById quizId = some quiz → quiz.isHidden = true := by
  unfold refetchQuiz Db.getQuizById
  cases hactive : replica.atRefetch.getActiveQuizRecordById quizId with
  | none => exact iff_of_true (isRefused_error.mpr rfl) fun quiz h => by cases h
  | some quiz =>
    cases hhidden : quiz.isHidden with
    | true =>
      rw [Option.filter_some_neg (by simp [hhidden])]
      refine iff_of_true (isRefused_error.mpr rfl) fun quiz' h => ?_
      cases h
      exact hhidden
    | false =>
      rw [Option.filter_some_pos (by simp [hhidden])]
      refine iff_of_false ?_ fun h => ?_
      · rintro ⟨e, he, -⟩
        cases he
      · have := h quiz rfl
        rw [hhidden] at this
        cases this

section Privileged

variable {params : UpdateParams}

theorem savePrivileged_isRefused_iff (updatedByUserId : String) (htags : params.tagIds = none)
    (htext : params.categoryId = some none)
    (hfree : ∀ quiz, db.violation? quiz (params.patched quiz) = none) :
    (saveQuiz replica db updatedByUserId params).IsRefused ↔
      db.getActiveQuizRecordById params.quizId = none ∧
        (refetchQuiz replica db params.quizId).IsRefused := by
  have hresult : RowResult params none db (params.writes db) := writes_of_no_tags htags htext
  generalize hwrites : params.writes db = result at hresult
  unfold saveQuiz updateQuizWithLinks
  rw [hwrites]
  cases hresult with
  | noQuiz h =>
    simp only [h, Option.map_none]
    exact (and_iff_right trivial).symm
  | badText h hno =>
    obtain ⟨t, ht, -⟩ := error_of_uuidParam? h
    cases ht
  | @violates quiz e h hviolation =>
    rw [hfree quiz] at hviolation
    cases hviolation
  | noCategory h hno hparam hne hunknown =>
    cases hparam
    cases hunknown
  | @saved quiz categoryId db' h hno hparam hgood hsaved =>
    have hlive : ((params.patched quiz).setCategory categoryId params.nowIso).deletedAt = none :=
      (patched_deletedAt params quiz).trans (find?_of_active h).2
    simp only [hsaved.active hlive, Option.map_some]
    refine iff_of_false ?_ fun hnone => ?_
    · rintro ⟨e, he, -⟩
      cases he
    · rw [h] at hnone
      cases hnone.1

end Privileged

theorem adminUpdateById_touchesOnly_iff :
    (adminUpdateById replica command nowIso db quizId).TouchesOnly command quizId db ↔
      AdminUpdateKeeps replica command db quizId := by
  unfold adminUpdateById AdminUpdateKeeps
  cases hempty : (buildPrivilegedPatch command).isEmpty with
  | true =>
    have hsame : (refetchQuiz replica db quizId).db = db := rfl
    rw [if_pos rfl, touchesOnly_iff_of_same hsame, refetchQuiz_isRefused_iff]
    simp
  | false =>
    rw [if_neg (by simp)]
    have hfree : ∀ quiz,
        db.violation? quiz ((privilegedParams command nowIso quizId).patched quiz) = none := fun quiz => by
      rw [patched, privilegedParams, hempty]
      exact violation?_privileged db command nowIso quiz
    have hfinds : (privilegedParams command nowIso quizId).FindsCategory db ↔
        ∃ quiz, db.getActiveQuizRecordById quizId = some quiz ∧ quiz.categoryId ≠ none := by
      simp only [FindsCategory, hfree, and_true]
      rfl
    obtain ⟨hkept, hothers⟩ := @saveQuiz_of_no_tags (privilegedParams command nowIso quizId) replica db _
      "admin" rfl rfl
    refine (touchesOnly_iff_of_tags hkept hothers).trans ?_
    have hcolumns := @saveQuiz_columns_iff command (privilegedParams command nowIso quizId) replica db _
      "admin" (fun c => names_of_buildPrivilegedPatch) rfl rfl fun _ => rfl
    rw [hfinds] at hcolumns
    rw [@savePrivileged_isRefused_iff replica db (privilegedParams command nowIso quizId) "admin" rfl rfl
      hfree, refetchQuiz_isRefused_iff]
    refine (and_congr_left' hcolumns).trans ?_
    simp only [not_exists, not_and, not_not, Bool.false_eq_true, false_or]
    exact and_comm

/-- **Setting a flag clears the category** of a quiz, though the command does not name it. -/
theorem adminUpdateById_clears {quiz : QuizRow} (hactive : db.getActiveQuizRecordById quizId = some quiz)
    (hflag : (buildPrivilegedPatch command).isEmpty = false) :
    ∃ row, (adminUpdateById replica command nowIso db quizId).db.quizzes.find? quizId = some row ∧
      row.categoryId = none := by
  have hresult := @writes_of_no_tags (privilegedParams command nowIso quizId) db _ rfl rfl
  generalize hwrites : (privilegedParams command nowIso quizId).writes db = result at hresult
  rw [adminUpdateById, if_neg (by rw [hflag]; exact Bool.false_ne_true), db_of_saveQuiz "admin" hwrites]
  cases hresult with
  | noQuiz h =>
    rw [show db.getActiveQuizRecordById quizId = none from h] at hactive
    cases hactive
  | badText h hno =>
    obtain ⟨t, ht, -⟩ := error_of_uuidParam? h
    cases ht
  | @violates quiz' e h hviolation =>
    rw [patched, privilegedParams, hflag] at hviolation
    cases (violation?_privileged db command nowIso quiz').symm.trans hviolation
  | noCategory h hno hparam hne hunknown =>
    cases hparam
    cases hunknown
  | saved h hno hparam hgood hsaved =>
    cases hparam
    exact ⟨_, hsaved.found, rfl⟩

/-- **Updates touch only what the command names** exactly where these conditions hold. -/
theorem touches_iff (replica : Replica) (command : UpdateQuizCommand) (nowIso : Int) (db : Db) :
    (∀ quizId user, (updateQuiz replica command nowIso db quizId user).Touches command
        (Uuid.parse quizId) db ↔
      ∀ id, Uuid.parse quizId = some id → UpdateKeeps replica command nowIso db id user) ∧
    ∀ quizIdOrSlug, (adminUpdatePrivilegedFields replica command nowIso db quizIdOrSlug).Touches command
        (replica.resolveQuiz quizIdOrSlug).toOption db ↔
      ∀ id, replica.resolveQuiz quizIdOrSlug = .ok id → AdminUpdateKeeps replica command db id := by
  constructor
  · intro quizId user
    unfold updateQuiz
    cases hparse : Uuid.parse quizId with
    | none => exact iff_of_true ⟨fun id h => (by cases h), fun _ => rfl⟩ fun id h => by cases h
    | some id =>
      simp only [Outcome.Touches, Option.some.injEq, forall_eq', reduceCtorEq, false_imp_iff, and_true]
      exact updateQuizById_touchesOnly_iff user
  · intro quizIdOrSlug
    unfold adminUpdatePrivilegedFields
    cases hresolve : replica.resolveQuiz quizIdOrSlug with
    | error e => exact iff_of_true ⟨fun id h => (by cases h), fun _ => rfl⟩ fun id h => by cases h
    | ok id =>
      simp only [Outcome.Touches, Except.toOption, Option.some.injEq, forall_eq', reduceCtorEq,
        false_imp_iff, and_true, Except.ok.injEq]
      exact adminUpdateById_touchesOnly_iff

end Methods

/-! ## The application's commands -/

/-- The body of a `PATCH`; `none` is `undefined`. -/
structure UpdateQuizDto where
  title : Option String := none
  description : Option (Option String) := none
  slug : Option String := none
  requirements : Option (Option String) := none
  imageUrl : Option (Option String) := none
  imagePublicId : Option (Option String) := none
  categoryId : Option (Option String) := none
  tagIds : Option (Option (List String)) := none

def Field.ofRead {α : Type} : Option α → Field α
  | none => .undefined
  | some a => .value a

/-- The literal in `updateQuiz` of the application service has every key. -/
def UpdateQuizDto.toCommand (dto : UpdateQuizDto) : UpdateQuizCommand where
  title := .ofRead dto.title
  description := .ofRead dto.description
  slug := .ofRead dto.slug
  requirements := .ofRead dto.requirements
  imageUrl := .ofRead dto.imageUrl
  imagePublicId := .ofRead dto.imagePublicId
  categoryId := .ofRead dto.categoryId
  tagIds := .ofRead dto.tagIds

theorem Field.hasOwn_ofRead {α : Type} (read : Option α) : (Field.ofRead read).hasOwn = true := by
  cases read <;> rfl

/-- **No `PATCH` updates a quiz**: its command names tags even where the body does not. -/
theorem updateQuiz_of_dto (replica : Replica) (dto : UpdateQuizDto) (nowIso : Int) (db : Db)
    (quizId : Uuid) (user : JwtPayload) :
    ∃ e, updateQuizById replica dto.toCommand nowIso db quizId user = ⟨.error e, [], db⟩ := by
  have hown : dto.toCommand.tagIds.hasOwn = true := Field.hasOwn_ofRead dto.tagIds
  unfold updateQuizById
  split
  · exact ⟨_, rfl⟩
  split
  · split
    · exact ⟨_, rfl⟩
    · next patch hpatch =>
      have htags : (updateParams dto.toCommand nowIso quizId patch).tagIds
          = some (normalizeLinkIds dto.toCommand.tagIds.get?.join) := by
        rw [updateParams, if_pos hown]
      obtain ⟨e, hwrites, -⟩ := @writes_of_tags _ db _ _ htags rfl
      rw [hown, Bool.not_true, Bool.and_false, if_neg Bool.false_ne_true,
        saveQuiz_of_error _ hwrites]
      exact ⟨_, rfl⟩
  · exact ⟨_, rfl⟩

/-! ## A quiz in a category -/

def mathsQuiz : QuizRow where
  quizId := 1
  creatorId := some 2
  title := "Maths"
  slug := "maths"
  createdAt := 0
  updatedAt := 0
  categoryId := some 7

def mathsDb : Db where
  quizzes := (Table.empty _).upsert mathsQuiz
  quizTags := Table.empty _
  tags := (Table.empty _).upsert ⟨9, "Algebra", "algebra", none⟩
  categories := [7]

theorem maths_loses_category : ∃ row, (adminUpdateById ⟨mathsDb, mathsDb⟩ { isFeatured := .value true } 5
    mathsDb 1).db.quizzes.find? 1 = some row ∧ row.categoryId = none :=
  adminUpdateById_clears (show mathsDb.getActiveQuizRecordById 1 = some mathsQuiz by decide +kernel) rfl

/-- **The quiz is featured and loses its category; its author gives it a tag, and it gets none.** -/
theorem featured_quiz_loses_category :
    ¬ (adminUpdatePrivilegedFields ⟨mathsDb, mathsDb⟩ { isFeatured := .value true } 5 mathsDb
        "maths").Touches { isFeatured := .value true }
          ((⟨mathsDb, mathsDb⟩ : Replica).resolveQuiz "maths").toOption mathsDb ∧
      ¬ (updateQuiz ⟨mathsDb, mathsDb⟩ { tagIds := .value (some [Uuid.text 9]) } 5 mathsDb (Uuid.text 1)
        ⟨2, .user⟩).Touches { tagIds := .value (some [Uuid.text 9]) } (Uuid.parse (Uuid.text 1))
          mathsDb := by
  constructor
  · intro h
    have htarget : ((⟨mathsDb, mathsDb⟩ : Replica).resolveQuiz "maths").toOption = some 1 := by
      decide +kernel
    have hfound : mathsDb.quizzes.find? 1 = some mathsQuiz := by decide +kernel
    have hafter : (adminUpdatePrivilegedFields ⟨mathsDb, mathsDb⟩ { isFeatured := .value true } 5 mathsDb
        "maths").db.quizzes.find? 1
          = some { mathsQuiz with isFeatured := true, categoryId := none, updatedAt := 5 } := by
      decide +kernel
    have hcolumns := (h.1 1 htarget).columns
    rw [hfound, hafter, Option.rel_some_some] at hcolumns
    have hcategory := hcolumns .categoryId (by simp [UpdateQuizCommand.columns, UpdateQuizCommand.Names,
      Field.hasOwn])
    cases hcategory
  · intro h
    have hrefused : ¬ (updateQuiz ⟨mathsDb, mathsDb⟩ { tagIds := .value (some [Uuid.text 9]) } 5 mathsDb
        (Uuid.text 1) ⟨2, .user⟩).IsRefused := by decide +kernel
    have hafter : (updateQuiz ⟨mathsDb, mathsDb⟩ { tagIds := .value (some [Uuid.text 9]) } 5 mathsDb
        (Uuid.text 1) ⟨2, .user⟩).db.tagRows 1 = [] := by decide +kernel
    have htags := (h.1 1 (by decide +kernel)).tagsReplaced rfl hrefused (some 9)
    rw [hafter, List.map_nil] at htags
    exact List.not_mem_nil (htags.mpr (by decide +kernel))

end QuizBackend.Quiz.Updates
