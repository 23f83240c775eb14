import QuizBackend.Lib.CursorOrder
import QuizBackend.Quiz.UpdateCommands
import Mathlib.Algebra.Order.Ring.Rat
import Mathlib.Data.Prod.Lex

/-!
# Lists of quizzes

The four list endpoints have one query (`buildQuizListQuery`), four sorts and one cursor. The cursor is
made of the creation time and the id of the last quiz of a page, and so is the condition of the next page,
whatever the sort is. Three of the sorts put a score of `quiz_stats` before the creation time: a page is
then followed by the quizzes created *before* its last one, whatever their score, and the pages hold the
list only if the two orders agree at every border (`quizzes_page_completely_iff`).

`websearch_to_tsquery` and the match with a search vector are PostgreSQL's, and are given (`search`).
The cursor is handed over as it is; the published version, which is joined to each row by its key, and
the columns of the statistics that no list reads are left out. Instants are microseconds. A
`numeric(10,4)` is counted in ten-thousandths and a `numeric(3,2)` in hundredths.
-/

namespace QuizBackend.Quiz.Listing

open Lib
open Quiz.Updates (QuizTagRow)

structure QuizStatsRow where
  quizId : Uuid
  avgRating : Int
  popularityScore : Int
  trendingScore : Int

structure Db where
  quizzes : Table Uuid Updates.QuizRow (·.quizId)
  quizVersions : Table Uuid QuizVersionRow (·.quizVersionId)
  quizTags : Table (Uuid × Uuid) QuizTagRow fun row => (row.quizId, row.tagId)
  quizStats : Table Uuid QuizStatsRow (·.quizId)

inductive ListQuerySortKey
  | newest
  | popular
  | topRated
  | trending
  deriving DecidableEq

structure QuizListFilters where
  difficulty : Option QuizDifficulty := none
  categoryId : Option Uuid := none
  tagIds : Option (List Uuid) := none
  creatorId : Option Uuid := none
  q : Option String := none
  sort : Option ListQuerySortKey := none
  isHidden : Option Bool := none
  minRating : Option ℚ := none

structure QuizCursor where
  createdAt : Int
  quizId : Uuid

abbrev Search := Updates.QuizRow → String → Bool

/-! ## The repository -/

structure ListQueryPlan where
  filters : List (Updates.QuizRow → Bool)
  orderBy : Updates.QuizRow → Int ×ₗ Int ×ₗ Nat
  sortKey : ListQuerySortKey

section Filters

variable (db : Db)

def matchesDifficulty (difficulty : QuizDifficulty) (quiz : Updates.QuizRow) : Bool :=
  db.quizVersions.rows.any fun version =>
    decide (version.quizId = quiz.quizId) && decide (some version.quizVersionId = quiz.publishedVersionId) &&
      decide (version.settings.difficulty = difficulty)

def matchesTags (tagIds : List Uuid) (quiz : Updates.QuizRow) : Bool :=
  db.quizTags.rows.any fun row => decide (row.quizId = quiz.quizId) && decide (row.tagId ∈ tagIds)

def matchesRating (minRating : ℚ) (quiz : Updates.QuizRow) : Bool :=
  db.quizStats.rows.any fun row =>
    decide (row.quizId = quiz.quizId) && decide (minRating ≤ (row.avgRating : ℚ) / 100)

/-- `created_at < $1 OR (created_at = $1 AND quiz_id < $2)`. -/
def beforeCursor (cursor : QuizCursor) (quiz : Updates.QuizRow) : Bool :=
  decide (quiz.createdAt < cursor.createdAt) ||
    (decide (quiz.createdAt = cursor.createdAt) &&
      decide (quiz.quizId.bits.toNat < cursor.quizId.bits.toNat))

/-- `coalesce(qs.column, 0)` over the left join with `quiz_stats`. -/
def coalesceStats (column : QuizStatsRow → Int) (quiz : Updates.QuizRow) : Int :=
  ((db.quizStats.find? quiz.quizId).map column).getD 0

/-- The columns of `orderBy`; by `newest` there is no score. -/
def orderBy (sortKey : ListQuerySortKey) (quiz : Updates.QuizRow) : Int ×ₗ Int ×ₗ Nat :=
  let newest : Int ×ₗ Nat := toLex (quiz.createdAt, quiz.quizId.bits.toNat)
  match sortKey with
  | .popular => toLex (coalesceStats db (·.popularityScore) quiz, newest)
  | .topRated => toLex (coalesceStats db (·.avgRating) quiz, newest)
  | .trending => toLex (coalesceStats db (·.trendingScore) quiz, newest)
  | .newest => toLex (0, newest)

def buildQuizListQuery (search : Search) (filtersIn : QuizListFilters) (cursor : Option QuizCursor) :
    ListQueryPlan :=
  let sortKey := filtersIn.sort.getD .newest
  { filters :=
      (fun quiz => quiz.deletedAt.isNone) ::
      (fun quiz => decide (quiz.isHidden = filtersIn.isHidden.getD false)) ::
      (filtersIn.difficulty.toList.map (matchesDifficulty db) ++
      filtersIn.categoryId.toList.map (fun categoryId quiz => decide (quiz.categoryId = some categoryId)) ++
      (filtersIn.tagIds.filter (fun tagIds => 0 < tagIds.length)).toList.map (matchesTags db) ++
      filtersIn.creatorId.toList.map (fun creatorId quiz => decide (quiz.creatorId = some creatorId)) ++
      (filtersIn.q.filter (fun q => q != "")).toList.map (fun q quiz => search quiz q) ++
      filtersIn.minRating.toList.map (matchesRating db) ++
      cursor.toList.map beforeCursor)
    orderBy := orderBy db sortKey
    sortKey }

def runListQuery (search : Search) (filtersIn : QuizListFilters) (cursor : Option QuizCursor)
    (limit : Nat) (extraFilters : List (Updates.QuizRow → Bool)) : List Updates.QuizRow :=
  let plan := buildQuizListQuery db search filtersIn cursor
  (descending plan.orderBy (db.quizzes.rows.filter fun quiz =>
    (plan.filters ++ extraFilters).all fun p => p quiz)).take (limit + 1)

def hasDraftVersion (quiz : Updates.QuizRow) : Bool :=
  db.quizVersions.rows.any fun version =>
    decide (version.quizId = quiz.quizId) && decide (version.status = .draft)

end Filters

section Lists

variable (db : Db) (search : Search)

def listQuizzes (limit : Nat) (cursor : Option QuizCursor) (filters : QuizListFilters) :
    List Updates.QuizRow :=
  runListQuery db search filters cursor limit []

def listByCreatorId (creatorId : Uuid) (limit : Nat) (cursor : Option QuizCursor)
    (filters : QuizListFilters) : List Updates.QuizRow :=
  listQuizzes db search limit cursor { filters with creatorId := some creatorId }

def listPublishedByCreatorId (creatorId : Uuid) (limit : Nat) (cursor : Option QuizCursor)
    (filters : QuizListFilters) : List Updates.QuizRow :=
  listByCreatorId db search creatorId limit cursor filters

def listDraftsByCreatorId (creatorId : Uuid) (limit : Nat) (cursor : Option QuizCursor)
    (filters : QuizListFilters) : List Updates.QuizRow :=
  runListQuery db search { filters with creatorId := some creatorId } cursor limit [hasDraftVersion db]

/-! ## `QuizQueryService` -/

def nextCursorOf (row : Updates.QuizRow) : QuizCursor := ⟨row.createdAt, row.quizId⟩

def buildPaginatedResult (rows : List Updates.QuizRow) (limit : Nat) :
    List Updates.QuizRow × Option QuizCursor :=
  lookAhead nextCursorOf limit rows

inductive QuizList
  | all
  | ofUser (userId : Uuid)
  | drafts (userId : Uuid)
  | published (userId : Uuid)

/-- `listQuizzes`, `listUserQuizzes`, `listDraftQuizzes` and `listPublishedQuizzes`. -/
def fetchPage (which : QuizList) (limit : Nat) (filters : QuizListFilters) (cursor : Option QuizCursor) :
    Except Empty (List Updates.QuizRow × Option QuizCursor) :=
  let rows := match which with
    | .all => listQuizzes db search limit cursor filters
    | .ofUser userId => listByCreatorId db search userId limit cursor filters
    | .drafts userId => listDraftsByCreatorId db search userId limit cursor filters
    | .published userId => listPublishedByCreatorId db search userId limit cursor filters
  .ok (buildPaginatedResult rows limit)

def QuizList.filters (which : QuizList) (filtersIn : QuizListFilters) : List (Updates.QuizRow → Bool) :=
  let plan (filtersIn : QuizListFilters) := (buildQuizListQuery db search filtersIn none).filters
  match which with
  | .all => plan filtersIn
  | .ofUser userId | .published userId => plan { filtersIn with creatorId := some userId }
  | .drafts userId => plan { filtersIn with creatorId := some userId } ++ [hasDraftVersion db]

def matching (which : QuizList) (filtersIn : QuizListFilters) : List Updates.QuizRow :=
  descending (orderBy db (filtersIn.sort.getD .newest)) (db.quizzes.rows.filter fun quiz =>
    (which.filters db search filtersIn).all fun p => p quiz)

/-! ## The two orders -/

def creation (quiz : Updates.QuizRow) : Int ×ₗ Nat := toLex (quiz.createdAt, quiz.quizId.bits.toNat)

def QuizCursor.creation (cursor : QuizCursor) : Int ×ₗ Nat :=
  toLex (cursor.createdAt, cursor.quizId.bits.toNat)

theorem beforeCursor_eq (cursor : QuizCursor) (quiz : Updates.QuizRow) :
    beforeCursor cursor quiz = decide (creation quiz < cursor.creation) := by
  rw [beforeCursor, Bool.eq_iff_iff, decide_eq_true_iff, creation, QuizCursor.creation,
    Prod.Lex.toLex_lt_toLex]
  simp

theorem creation_of_orderBy {sortKey : ListQuerySortKey} {quiz other : Updates.QuizRow}
    (h : orderBy db sortKey quiz = orderBy db sortKey other) : creation quiz = creation other := by
  cases sortKey
  all_goals exact congrArg (fun k : Int ×ₗ Int ×ₗ Nat => (ofLex k).2) h

theorem nodup_creation (p : Updates.QuizRow → Bool) :
    ((db.quizzes.rows.filter p).map creation).Nodup := by
  have hids : ((db.quizzes.rows.filter p).map Updates.QuizRow.quizId).Nodup :=
    db.quizzes.nodup.sublist (List.filter_sublist.map _)
  refine nodup_of_determines hids fun quiz other h => Uuid.eq_of_toNat_eq ?_
  exact congrArg (fun k : Int ×ₗ Nat => (ofLex k).2) h

theorem nodup_orderBy (sortKey : ListQuerySortKey) (p : Updates.QuizRow → Bool) :
    ((db.quizzes.rows.filter p).map (orderBy db sortKey)).Nodup :=
  nodup_of_determines (nodup_creation db p) fun _ _ h => creation_of_orderBy db h

theorem all_filters (filtersIn : QuizListFilters) (cursor : Option QuizCursor)
    (extraFilters : List (Updates.QuizRow → Bool)) (quiz : Updates.QuizRow) :
    (((buildQuizListQuery db search filtersIn cursor).filters ++ extraFilters).all fun p => p quiz) =
      (cursor.all (fun c => decide (creation quiz < c.creation)) &&
        (((buildQuizListQuery db search filtersIn none).filters ++ extraFilters).all fun p => p quiz)) := by
  cases cursor with
  | none => rfl
  | some c =>
    rw [Option.all_some, ← beforeCursor_eq]
    simp only [buildQuizListQuery, Option.toList_some, Option.toList_none, List.map_cons, List.map_nil,
      List.append_nil, List.cons_append, List.all_cons, List.all_append, List.all_nil, Bool.and_true]
    cases beforeCursor c quiz <;> simp [Bool.and_assoc]

theorem runListQuery_eq (filtersIn : QuizListFilters) (cursor : Option QuizCursor) (limit : Nat)
    (extraFilters : List (Updates.QuizRow → Bool)) :
    runListQuery db search filtersIn cursor limit extraFilters =
      (after (fun c quiz => decide (creation quiz < QuizCursor.creation c))
        (descending (orderBy db (filtersIn.sort.getD .newest)) (db.quizzes.rows.filter fun quiz =>
          ((buildQuizListQuery db search filtersIn none).filters ++ extraFilters).all fun p => p quiz))
        cursor).take (limit + 1) := by
  rw [runListQuery, after, ← descending_filter (nodup_orderBy ..), List.filter_filter]
  refine congrArg (fun rows => (descending _ rows).take (limit + 1)) (List.filter_congr fun quiz _ => ?_)
  exact all_filters ..

variable (which : QuizList) (limit : Nat) (filtersIn : QuizListFilters)

theorem fetchPage_eq : fetchPage db search which limit filtersIn =
    request Empty (fun c quiz => decide (creation quiz < QuizCursor.creation c)) nextCursorOf limit
      (matching db search which filtersIn) := by
  funext cursor
  cases which with
  | all =>
    refine congrArg (fun rows => Except.ok (lookAhead nextCursorOf limit rows)) ?_
    refine (runListQuery_eq ..).trans ?_
    rw [List.append_nil]
    rfl
  | ofUser userId | published userId =>
    refine congrArg (fun rows => Except.ok (lookAhead nextCursorOf limit rows)) ?_
    refine (runListQuery_eq ..).trans ?_
    rw [List.append_nil]
    rfl
  | drafts userId =>
    exact congrArg (fun rows => Except.ok (lookAhead nextCursorOf limit rows)) (runListQuery_eq ..)

/-- Where two pages meet, the quizzes created before the last one of the page are those that come after
it. -/
def CreationAgrees : Prop :=
  BordersAgree (fun c quiz => decide (creation quiz < QuizCursor.creation c)) nextCursorOf limit
    (matching db search which filtersIn)

variable {limit} in
theorem pages_iff_agrees (hlimit : 1 ≤ limit) :
    PagesInOrder (fetchPage db search which limit filtersIn) (matching db search which filtersIn) ↔
      CreationAgrees db search which limit filtersIn := by
  rw [fetchPage_eq]
  exact pages_iff_of_keys hlimit (fun _ _ => rfl) (nodup_orderBy ..)

variable {limit filtersIn} in
theorem agrees_of_newest (hlimit : 1 ≤ limit) (h : filtersIn.sort.getD .newest = .newest) :
    CreationAgrees db search which limit filtersIn := by
  refine bordersAgree_of_pairwise hlimit (fun quiz _ => decide_eq_false (lt_irrefl _)) ?_
  have hsorted := strict_descending (nodup_orderBy db (filtersIn.sort.getD .newest) fun quiz =>
    (which.filters db search filtersIn).all fun p => p quiz)
  refine hsorted.imp fun {quiz other} hlt => ?_
  rw [h, orderBy, orderBy, Prod.Lex.toLex_lt_toLex] at hlt
  have hcreation : creation other < creation quiz := by
    rcases hlt with hscore | ⟨-, hcreation⟩
    · exact absurd hscore (lt_irrefl 0)
    · exact hcreation
  exact ⟨decide_eq_true hcreation, decide_eq_false (lt_asymm hcreation)⟩

variable {limit} in
/-- **A list of quizzes pages completely just where its cursor goes with its order**: always by time, and
by a score if the creation times agree with the scores at the borders. -/
theorem quizzes_page_completely_iff (hlimit : 1 ≤ limit) :
    PagesInOrder (fetchPage db search which limit filtersIn) (matching db search which filtersIn) ↔
      (filtersIn.sort.getD .newest ≠ .newest → CreationAgrees db search which limit filtersIn) := by
  rw [pages_iff_agrees db search which filtersIn hlimit]
  refine ⟨fun hagree _ => hagree, fun hscored => ?_⟩
  by_cases h : filtersIn.sort.getD .newest = .newest
  · exact agrees_of_newest db search which hlimit h
  · exact hscored h

end Lists

def rivers : Updates.QuizRow :=
  { quizId := 1, creatorId := some 7, title := "Rivers", slug := "rivers", createdAt := 1, updatedAt := 1 }

def lakes : Updates.QuizRow :=
  { quizId := 2, creatorId := some 7, title := "Lakes", slug := "lakes", createdAt := 2, updatedAt := 2 }

/-- Two quizzes; the more popular one is the older one. -/
def twoQuizzes : Db where
  quizzes := ⟨[rivers, lakes], by decide⟩
  quizVersions := Table.empty _
  quizTags := Table.empty _
  quizStats := ⟨[⟨1, 400, 90000, 0⟩], List.nodup_singleton _⟩

/-- By time the pages hold both. -/
theorem newest_page_completely :
    PagesInOrder (fetchPage twoQuizzes (fun _ _ => true) .all 1 { q := some "water" })
      (matching twoQuizzes (fun _ _ => true) .all { q := some "water" }) :=
  (quizzes_page_completely_iff twoQuizzes (fun _ _ => true) .all { q := some "water" } (Nat.le_refl 1)).mpr
    fun h => absurd rfl h

/-- By popularity the second one is younger than the first, and so is not past it. -/
theorem popular_do_not_page_singly : ¬ ∀ (db : Db) (search : Search) (which : QuizList) (limit : Nat)
    (filtersIn : QuizListFilters), 1 ≤ limit →
    PagesInOrder (fetchPage db search which limit filtersIn) (matching db search which filtersIn) := by
  intro hall
  have hagree := (pages_iff_agrees twoQuizzes (fun _ _ => true) .all { sort := some .popular }
    (Nat.le_refl 1)).mp (hall twoQuizzes (fun _ _ => true) .all 1 _ (Nat.le_refl 1))
  have hborder := hagree 0 (by decide) rivers (by decide)
  revert hborder
  decide

end QuizBackend.Quiz.Listing
