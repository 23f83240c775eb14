import QuizBackend.Bookmark.Requests
import QuizBackend.Lib.Fanout
import Mathlib.Algebra.Ring.Int.Defs
import Mathlib.Data.List.Sort

/-!
# The analytics of a collection

`getCollectionAnalytics` of `bookmark.repository.ts` takes its five numbers from one query that joins
the bookmarks of a collection with their quizzes, and these with their reviews and with their tags. A
quiz is there once for every pair of a review and a tag, so `COUNT(bookmark_id)` is the number of
bookmarks only where no quiz has two of either; and `AVG(rating)` takes the deleted reviews as well. The
three `COUNT(DISTINCT …)` are right, and so are the two lists, whose joins have one row for a bookmark
(`analytics_exact_iff`).

The service answers from a cache where it can. Averages are in hundredths; `AVG` is taken to be exact
before it is rounded. Ids are text, as in `Bookmark.Requests`.
-/

namespace QuizBackend.Bookmark.Analytics

open Lib

/-! ## Tables -/

structure CollectionRow where
  collectionId : String
  userId : String
  name : String
  updatedAt : Int

structure QuizRow where
  quizId : String
  categoryId : Option String
  deletedAt : Option Int

structure ReviewRow where
  reviewId : String
  quizId : String
  rating : Int
  deletedAt : Option Int

structure QuizTagRow where
  quizTagId : String
  quizId : String
  tagId : String

def QuizTagRow.pair (t : QuizTagRow) : Option (String × String) := some (t.quizId, t.tagId)

structure CategoryRow where
  categoryId : String
  name : String
  slug : String
  deletedAt : Option Int
  deriving DecidableEq

structure TagRow where
  tagId : String
  name : String
  slug : String
  deletedAt : Option Int
  deriving DecidableEq

/-- The tables; a bookmark has a quiz (`bookmarked_quizzes_quiz_id_fkey`). -/
structure Db where
  collections : Table String CollectionRow (·.collectionId)
  bookmarks : Bookmarks
  quizzes : Table String QuizRow (·.quizId)
  reviews : Table String ReviewRow (·.reviewId)
  quizTags : UniqueTable String (String × String) QuizTagRow (·.quizTagId) QuizTagRow.pair
  categories : Table String CategoryRow (·.categoryId)
  tags : Table String TagRow (·.tagId)
  bookmarked : ∀ b ∈ bookmarks.rows, (quizzes.find? b.quizId).isSome = true

/-! ## The summary -/

open Db

abbrev JoinedRow :=
  (((CollectionRow × Option BookmarkedQuiz) × Option QuizRow) × Option ReviewRow) × Option QuizTagRow

namespace JoinedRow

section

variable (r : JoinedRow)

def bookmark : Option BookmarkedQuiz := r.1.1.1.2
def quiz : Option QuizRow := r.1.1.2
def review : Option ReviewRow := r.1.2
def quizTag : Option QuizTagRow := r.2

end

end JoinedRow

/-- `ROUND(n / d, 2)` of a number of hundredths, half away from zero. -/
def roundDiv (n : Int) (d : Nat) : Int := n.sign * ((2 * n.natAbs + d) / (2 * d) : Nat)

/-- `ROUND(COALESCE(AVG(rating::numeric), 0), 2)`, in hundredths. -/
def roundedAverage (ratings : List Int) : Int :=
  if ratings.isEmpty then 0 else roundDiv (100 * ratings.sum) ratings.length

structure Summary where
  totalBookmarks : Nat
  totalQuizzes : Nat
  averageQuizRating : Int
  uniqueCategories : Nat
  uniqueTags : Nat

namespace Db

variable (db : Db) (collectionId : String)

def reviewsOf (quizId : String) : List ReviewRow := db.reviews.rows.filter (·.quizId = quizId)

def tagsOf (quizId : String) : List QuizTagRow := db.quizTags.rows.filter (·.quizId = quizId)

def joined : List JoinedRow :=
  let collections := db.collections.rows.filter (·.collectionId = collectionId)
  let withBookmarks := leftJoin
    (fun c => db.bookmarks.rows.filter (·.collectionId = c.collectionId)) collections
  let withQuizzes := leftJoin
    (fun r => r.2.elim [] fun b => db.quizzes.rows.filter (·.quizId = b.quizId)) withBookmarks
  let withReviews := leftJoin (fun r => r.2.elim [] fun q => db.reviewsOf q.quizId) withQuizzes
  let withTags := leftJoin (fun r => r.1.2.elim [] fun q => db.tagsOf q.quizId) withReviews
  withTags.filter fun r => r.1.1.2.all fun q => q.deletedAt.isNone

def summary : Summary :=
  let rows := db.joined collectionId
  { totalBookmarks := (rows.filterMap fun r => r.bookmark.map (·.bookmarkId)).length
    totalQuizzes := (rows.filterMap fun r => r.bookmark.map (·.quizId)).dedup.length
    averageQuizRating := roundedAverage (rows.filterMap fun r => r.review.map (·.rating))
    uniqueCategories := (rows.filterMap fun r => r.quiz.bind (·.categoryId)).dedup.length
    uniqueTags := (rows.filterMap fun r => r.quizTag.map (·.tagId)).dedup.length }

end Db

/-! ## The lists -/

structure TopCategory where
  categoryId : String
  name : String
  slug : String
  bookmarkCount : Nat

structure TopTag where
  tagId : String
  name : String
  slug : String
  bookmarkCount : Nat

def grouped {α : Type} [DecidableEq α] (rows : List α) : List (α × Nat) :=
  rows.dedup.map fun a => (a, rows.count a)

def top {α : Type} (name : α → String) (groups : List (α × Nat)) : List (α × Nat) :=
  (groups.insertionSort fun g h => h.2 < g.2 ∨ (g.2 = h.2 ∧ name g.1 ≤ name h.1)).take 20

namespace Db

variable (db : Db) (collectionId : String)

/-- The bookmarks of the collection, joined with their quizzes, as long as these are not deleted. -/
def entries : List (BookmarkedQuiz × QuizRow) :=
  (db.bookmarks.rows.filter (·.collectionId = collectionId)).filterMap fun b =>
    ((db.quizzes.find? b.quizId).filter fun q => q.deletedAt.isNone).map fun q => (b, q)

def topCategories : List TopCategory :=
  let rows := (db.entries collectionId).filterMap fun e =>
    (e.2.categoryId.bind db.categories.find?).filter fun c => c.deletedAt.isNone
  (top CategoryRow.name (grouped rows)).map fun g => ⟨g.1.categoryId, g.1.name, g.1.slug, g.2⟩

def topTags : List TopTag :=
  let rows := (db.entries collectionId).flatMap fun e => (db.tagsOf e.2.quizId).filterMap fun t =>
    (db.tags.find? t.tagId).filter fun t => t.deletedAt.isNone
  (top TagRow.name (grouped rows)).map fun g => ⟨g.1.tagId, g.1.name, g.1.slug, g.2⟩

end Db

/-! ## The repository and the service -/

structure CollectionAnalytics where
  collectionId : String
  collectionName : String
  summary : Summary
  topCategories : List TopCategory
  topTags : List TopTag
  lastUpdated : Int

def Db.getCollectionAnalytics (db : Db) (collectionId : String) : Option CollectionAnalytics :=
  (db.collections.find? collectionId).map fun collection =>
    { collectionId := collection.collectionId, collectionName := collection.name
      summary := db.summary collectionId
      topCategories := db.topCategories collectionId
      topTags := db.topTags collectionId
      lastUpdated := collection.updatedAt }

/-- `BookmarkQueryService.getCollectionAnalytics`; its `verifyCollectionOwnership` makes the checks of
`getOwnedCollectionOrThrow`. `cached` is what the cache has, if it answers; what is written to it
afterwards may get lost. -/
def getCollectionAnalytics (db : Db) (cached : Option CollectionAnalytics) (collectionId : String)
    (user : JwtPayload) : Except BookmarkError CollectionAnalytics := do
  let found := (db.collections.find? collectionId).map fun c => (⟨c.collectionId, c.userId⟩ :
    BookmarkCollection)
  let _ ← getOwnedCollectionOrThrow found user
  match cached with
  | some analytics => .ok analytics
  | none =>
    match db.getCollectionAnalytics collectionId with
    | some analytics => .ok analytics
    | none => .error (.collectionNotFound collectionNotFoundMessage)

/-! ## What the analytics should say -/

namespace Db

variable (db : Db) (collectionId : String)

def quizzesOf : List QuizRow := (db.entries collectionId).map Prod.snd

def ratings (p : ReviewRow → Bool) : List Int :=
  (db.quizzesOf collectionId).flatMap fun q =>
    ((db.reviewsOf q.quizId).filter p).map (·.rating)

end Db

/-- **The analytics are exact.** -/
structure Exact (db : Db) (collectionId : String) (a : CollectionAnalytics) : Prop where
  totalBookmarks : a.summary.totalBookmarks = (db.quizzesOf collectionId).length
  totalQuizzes : a.summary.totalQuizzes = (db.quizzesOf collectionId).length
  averageQuizRating : a.summary.averageQuizRating =
    roundedAverage (db.ratings collectionId fun r => r.deletedAt.isNone)
  uniqueCategories : a.summary.uniqueCategories =
    ((db.quizzesOf collectionId).filterMap (·.categoryId)).dedup.length
  uniqueTags : a.summary.uniqueTags =
    ((db.quizzesOf collectionId).flatMap fun q => (db.tagsOf q.quizId).map (·.tagId)).dedup.length
  topCategories : ∀ c ∈ a.topCategories,
    c.bookmarkCount = (db.quizzesOf collectionId).countP (·.categoryId = some c.categoryId)
  topTags : ∀ t ∈ a.topTags, t.bookmarkCount =
    (db.quizzesOf collectionId).countP fun q => (db.tagsOf q.quizId).any (·.tagId = t.tagId)

/-- No quiz of the collection has two reviews or two tags. -/
def Unrepeated (db : Db) (collectionId : String) : Prop :=
  ∀ q ∈ db.quizzesOf collectionId,
    (db.reviewsOf q.quizId).length ≤ 1 ∧ (db.tagsOf q.quizId).length ≤ 1

/-! ## The joined rows -/

section Joined

variable {db : Db} {collectionId : String}

theorem filter_quizzes (b : BookmarkedQuiz) :
    db.quizzes.rows.filter (·.quizId = b.quizId) = (db.quizzes.find? b.quizId).toList :=
  db.quizzes.filter_key_eq b.quizId

/-- **What is collected from the joined rows**: it is collected for every entry, from the pairs of a
review and a tag. -/
theorem filterMap_joined {δ : Type} {c : CollectionRow}
    (hc : db.collections.find? collectionId = some c) {g : JoinedRow → Option δ}
    (hnull : ∀ c, g ((((c, none), none), none), none) = none) :
    (db.joined collectionId).filterMap g = (db.entries collectionId).flatMap fun e =>
      (orNull (db.reviewsOf e.2.quizId)).flatMap fun review =>
        (orNull (db.tagsOf e.2.quizId)).filterMap fun tag =>
          g ((((c, some e.1), some e.2), review), tag) := by
  have hone : db.collections.rows.filter (·.collectionId = collectionId) = [c] := by
    rw [db.collections.filter_key_eq, hc]
    rfl
  have hkey : c.collectionId = collectionId := Table.key_of_find? hc
  rw [joined, hone, List.filterMap_filter, filterMap_leftJoin, flatMap_leftJoin, flatMap_leftJoin,
    flatMap_leftJoin, List.flatMap_singleton, hkey, flatMap_orNull (by simp [hnull]), entries,
    List.filterMap_eq_flatMap_toList, List.flatMap_assoc]
  -- A bookmark has its one quiz, and where this is deleted, all of its rows are dropped.
  refine List.flatMap_congr fun b hb => ?_
  obtain ⟨q, hq⟩ := Option.isSome_iff_exists.mp (db.bookmarked b (List.mem_filter.mp hb).1)
  simp only [Option.elim_some, filter_quizzes, hq, Option.toList_some, orNull_cons, List.map_nil,
    List.flatMap_singleton, Option.all_some]
  by_cases hlive : q.deletedAt.isNone = true
  · simp only [hlive, Option.filter_some, if_true, Option.map_some, Option.toList_some,
      List.flatMap_singleton]
  · simp only [hlive, Option.filter_some, Bool.false_eq_true, if_false, Option.map_none,
      Option.toList_none, List.flatMap_nil, List.filterMap_none]
    exact List.flatMap_eq_nil_iff.mpr fun _ _ => rfl

def fanout (db : Db) (q : QuizRow) : Nat :=
  (orNull (db.reviewsOf q.quizId)).length * (orNull (db.tagsOf q.quizId)).length

theorem fanout_pos (q : QuizRow) : 1 ≤ fanout db q := by
  rw [fanout, length_orNull, length_orNull]
  exact Nat.mul_pos (by omega) (by omega)

theorem fanout_eq_one_iff {q : QuizRow} :
    fanout db q = 1 ↔ (db.reviewsOf q.quizId).length ≤ 1 ∧ (db.tagsOf q.quizId).length ≤ 1 := by
  rw [fanout, ← length_orNull_eq_one_iff, ← length_orNull_eq_one_iff]
  exact ⟨fun h => ⟨Nat.eq_one_of_mul_eq_one_right h, Nat.eq_one_of_mul_eq_one_left h⟩,
    fun ⟨hreviews, htags⟩ => by rw [hreviews, htags]⟩

theorem mem_filterMap_joined {δ : Type} {c : CollectionRow}
    (hc : db.collections.find? collectionId = some c) {f : BookmarkedQuiz × QuizRow → Option δ}
    {g : JoinedRow → Option δ} (hnull : ∀ c, g ((((c, none), none), none), none) = none)
    (hg : ∀ e review tag, g ((((c, some e.1), some e.2), review), tag) = f e) (x : δ) :
    x ∈ (db.joined collectionId).filterMap g ↔ x ∈ (db.entries collectionId).filterMap f := by
  rw [filterMap_joined hc hnull, List.mem_flatMap, List.mem_filterMap]
  refine exists_congr fun e => and_congr_right fun _ => ?_
  simp only [hg, List.mem_flatMap, List.mem_filterMap]
  constructor
  · rintro ⟨review, -, tag, -, h⟩
    exact h
  · intro h
    obtain ⟨review, hreview⟩ :=
      List.exists_mem_of_ne_nil (orNull (db.reviewsOf e.2.quizId)) orNull_ne_nil
    obtain ⟨tag, htag⟩ := List.exists_mem_of_ne_nil (orNull (db.tagsOf e.2.quizId)) orNull_ne_nil
    exact ⟨review, hreview, tag, htag, h⟩

/-! ## The numbers of the summary -/

variable {c : CollectionRow}

theorem totalBookmarks_summary (hc : db.collections.find? collectionId = some c) :
    (db.summary collectionId).totalBookmarks = ((db.quizzesOf collectionId).map (fanout db)).sum := by
  have hjoined := filterMap_joined (g := fun r => r.bookmark.map (·.bookmarkId)) hc fun _ => rfl
  rw [summary, hjoined, List.length_flatMap, quizzesOf, List.map_map]
  refine congrArg List.sum (List.map_congr_left fun e _ => ?_)
  simp [fanout, JoinedRow.bookmark, List.length_flatMap]

theorem totalBookmarks_exact_iff (hc : db.collections.find? collectionId = some c) :
    (db.summary collectionId).totalBookmarks = (db.quizzesOf collectionId).length ↔
      ∀ q ∈ db.quizzesOf collectionId, fanout db q = 1 := by
  rw [totalBookmarks_summary hc]
  exact sum_eq_length_iff fun q _ => fanout_pos q

theorem nodup_entries : ((db.entries collectionId).map fun e => e.1.quizId).Nodup := by
  have hpairs : ((db.bookmarks.rows.filter (·.collectionId = collectionId)).map (·.quizId)).Nodup :=
    UniqueTable.nodup_map_filter (t := db.bookmarks) fun b _ hb => by
      rw [BookmarkedQuiz.pair, of_decide_eq_true hb]
  rw [List.Nodup, List.pairwise_map] at hpairs
  rw [List.Nodup, List.pairwise_map, entries, List.pairwise_filterMap]
  refine hpairs.imp fun {b b'} hne e he e' he' => ?_
  obtain ⟨q, -, rfl⟩ := Option.map_eq_some_iff.mp he
  obtain ⟨q', -, rfl⟩ := Option.map_eq_some_iff.mp he'
  exact hne

section

variable (hc : db.collections.find? collectionId = some c)
include hc

theorem totalQuizzes_exact :
    (db.summary collectionId).totalQuizzes = (db.quizzesOf collectionId).length := by
  have hmem := mem_filterMap_joined (g := fun r => r.bookmark.map (·.quizId))
    (f := fun e => some e.1.quizId) hc (fun _ => rfl) fun _ _ _ => rfl
  rw [summary, length_dedup_congr hmem, List.filterMap_eq_map', nodup_entries.dedup, List.length_map,
    quizzesOf, List.length_map]

theorem uniqueCategories_exact :
    (db.summary collectionId).uniqueCategories =
      ((db.quizzesOf collectionId).filterMap (·.categoryId)).dedup.length := by
  have hmem := mem_filterMap_joined (g := fun r => r.quiz.bind (·.categoryId))
    (f := fun e => e.2.categoryId) hc (fun _ => rfl) fun _ _ _ => rfl
  rw [summary, length_dedup_congr hmem, quizzesOf, List.filterMap_map, Function.comp_def]

theorem uniqueTags_exact :
    (db.summary collectionId).uniqueTags =
      ((db.quizzesOf collectionId).flatMap fun q =>
        (db.tagsOf q.quizId).map (·.tagId)).dedup.length := by
  have hjoined := filterMap_joined (g := fun r => r.quizTag.map (·.tagId)) hc fun _ => rfl
  rw [summary, hjoined, quizzesOf, List.flatMap_map]
  refine length_dedup_congr fun tagId => ?_
  rw [List.mem_flatMap, List.mem_flatMap]
  refine exists_congr fun e => and_congr_right fun _ => ?_
  simp only [JoinedRow.quizTag, filterMap_orNull, List.mem_flatMap]
  constructor
  · rintro ⟨review, -, h⟩
    exact h
  · intro h
    obtain ⟨review, hreview⟩ :=
      List.exists_mem_of_ne_nil (orNull (db.reviewsOf e.2.quizId)) orNull_ne_nil
    exact ⟨review, hreview, h⟩

theorem averageQuizRating_summary
    (htags : ∀ q ∈ db.quizzesOf collectionId, (db.tagsOf q.quizId).length ≤ 1) :
    (db.summary collectionId).averageQuizRating =
      roundedAverage (db.ratings collectionId fun _ => true) := by
  have hjoined := filterMap_joined (g := fun r => r.review.map (·.rating)) hc fun _ => rfl
  rw [summary, hjoined, ratings, quizzesOf, List.flatMap_map]
  refine congrArg roundedAverage (List.flatMap_congr fun e he => ?_)
  obtain ⟨tag, htag⟩ := List.length_eq_one_iff.mp
    (length_orNull_eq_one_iff.mpr (htags e.2 (List.mem_map_of_mem he)))
  simp only [htag, JoinedRow.review, List.filter_true]
  rw [← filterMap_orNull, List.filterMap_eq_flatMap_toList]
  refine List.flatMap_congr fun review _ => ?_
  cases review with
  | none => rfl
  | some review => rfl

end

end Joined

/-! ## The lists -/

section Lists

variable {db : Db} {collectionId : String}

theorem count_of_mem_top {α : Type} [DecidableEq α] {name : α → String} {rows : List α} {g : α × Nat}
    (h : g ∈ top name (grouped rows)) : g.1 ∈ rows ∧ g.2 = rows.count g.1 := by
  obtain ⟨a, ha, rfl⟩ := List.mem_map.mp ((List.mem_insertionSort _).mp (List.mem_of_mem_take h))
  exact ⟨List.mem_dedup.mp ha, rfl⟩

theorem topCategories_exact {t : TopCategory} (h : t ∈ db.topCategories collectionId) :
    t.bookmarkCount = (db.quizzesOf collectionId).countP (·.categoryId = some t.categoryId) := by
  obtain ⟨⟨category, n⟩, hg, rfl⟩ := List.mem_map.mp h
  obtain ⟨hmem, hcount⟩ := count_of_mem_top hg
  obtain ⟨e, -, he⟩ := List.mem_filterMap.mp hmem
  obtain ⟨hcategory, hlive⟩ := Table.of_filter_bind_find? he
  refine hcount.trans ?_
  rw [List.count_filterMap, quizzesOf, List.countP_map]
  refine List.countP_congr fun e _ => ?_
  rw [beq_iff_eq, Table.filter_bind_find?_eq_some_iff hcategory hlive, Function.comp_apply,
    decide_eq_true_iff]

theorem count_tagsOf (quizId tagId : String) :
    ((db.tagsOf quizId).map (·.tagId)).count tagId =
      if (db.tagsOf quizId).any (·.tagId = tagId) then 1 else 0 := by
  have hnodup : ((db.tagsOf quizId).map (·.tagId)).Nodup :=
    UniqueTable.nodup_map_filter (t := db.quizTags) fun t _ ht => by
      rw [QuizTagRow.pair, of_decide_eq_true ht]
  rw [hnodup.count]
  simp [List.mem_map]

theorem topTags_exact {t : TopTag} (h : t ∈ db.topTags collectionId) :
    t.bookmarkCount = (db.quizzesOf collectionId).countP fun q =>
      (db.tagsOf q.quizId).any (·.tagId = t.tagId) := by
  obtain ⟨⟨tag, n⟩, hg, rfl⟩ := List.mem_map.mp h
  obtain ⟨hmem, hcount⟩ := count_of_mem_top hg
  obtain ⟨e, -, he⟩ := List.mem_flatMap.mp hmem
  obtain ⟨link, -, hlink⟩ := List.mem_filterMap.mp he
  obtain ⟨htag, hlive⟩ := Table.of_filter_bind_find? (k := some link.tagId) hlink
  refine hcount.trans ?_
  rw [List.count_flatMap, quizzesOf, List.countP_map]
  refine sum_map_eq_countP fun e _ => ?_
  rw [Function.comp_apply, List.count_filterMap, Function.comp_apply, ← count_tagsOf, List.count,
    List.countP_map]
  refine List.countP_congr fun link _ => ?_
  rw [beq_iff_eq, Function.comp_apply, beq_iff_eq]
  exact (Table.filter_bind_find?_eq_some_iff htag hlive (k := some link.tagId)).trans
    (Option.some_inj)

end Lists

/-! ## When they are exact -/

section Exactness

variable {db : Db} {collectionId : String}

theorem exact_iff {a : CollectionAnalytics} (ha : db.getCollectionAnalytics collectionId = some a) :
    Exact db collectionId a ↔ Unrepeated db collectionId ∧
      roundedAverage (db.ratings collectionId fun _ => true) =
        roundedAverage (db.ratings collectionId fun r => r.deletedAt.isNone) := by
  obtain ⟨c, hc, rfl⟩ := Option.map_eq_some_iff.mp ha
  have hunrepeated : Unrepeated db collectionId ↔
      (db.summary collectionId).totalBookmarks = (db.quizzesOf collectionId).length := by
    rw [totalBookmarks_exact_iff hc]
    exact forall₂_congr fun q _ => fanout_eq_one_iff.symm
  constructor
  · intro h
    have hone := hunrepeated.mpr h.totalBookmarks
    refine ⟨hone, ?_⟩
    rw [← averageQuizRating_summary hc fun q hq => (hone q hq).2]
    exact h.averageQuizRating
  · rintro ⟨hone, haverage⟩
    exact
      { totalBookmarks := hunrepeated.mp hone
        totalQuizzes := totalQuizzes_exact hc
        averageQuizRating :=
          (averageQuizRating_summary hc fun q hq => (hone q hq).2).trans haverage
        uniqueCategories := uniqueCategories_exact hc
        uniqueTags := uniqueTags_exact hc
        topCategories := fun _ h => topCategories_exact h
        topTags := fun _ h => topTags_exact h }

def Permitted (db : Db) (collectionId : String) (user : JwtPayload) : Prop :=
  ∃ c, db.collections.find? collectionId = some c ∧ (c.userId = user.sub ∨ user.role = "admin")

variable {cached : Option CollectionAnalytics} {user : JwtPayload} {a : CollectionAnalytics}

theorem permitted_of_ok (h : getCollectionAnalytics db cached collectionId user = .ok a) :
    Permitted db collectionId user := by
  unfold getCollectionAnalytics at h
  cases hc : db.collections.find? collectionId with
  | none => simp [hc, getOwnedCollectionOrThrow, bind, Except.bind] at h
  | some c =>
    refine ⟨c, hc, ?_⟩
    by_contra hpermitted
    have hcheck : c.userId ≠ user.sub ∧ user.role ≠ "admin" := not_or.mp hpermitted
    simp [hc, getOwnedCollectionOrThrow, hcheck, bind, Except.bind] at h

theorem getCollectionAnalytics_ok_iff (h : Permitted db collectionId user) :
    getCollectionAnalytics db cached collectionId user = .ok a ↔
      cached = some a ∨ cached = none ∧ db.getCollectionAnalytics collectionId = some a := by
  obtain ⟨c, hc, hpermitted⟩ := h
  have hcheck : ¬ (c.userId ≠ user.sub ∧ user.role ≠ "admin") := by
    rwa [not_and_or, not_ne_iff, not_ne_iff]
  have howned : getOwnedCollectionOrThrow (some ⟨c.collectionId, c.userId⟩) user =
      .ok ⟨c.collectionId, c.userId⟩ := by
    rw [getOwnedCollectionOrThrow, if_neg hcheck]
  simp only [getCollectionAnalytics, hc, Option.map_some, howned]
  cases cached with
  | some analytics => simp [bind, Except.bind]
  | none => simp [bind, Except.bind, Db.getCollectionAnalytics, hc]

end Exactness

/-- **When the analytics are exact**: the user may see the collection, and where they are not cached,
no quiz of it has two reviews, deleted or not, or two tags, and the deleted reviews do not move the
average. -/
theorem analytics_exact_iff (db : Db) (cached : Option CollectionAnalytics) (collectionId : String)
    (user : JwtPayload) :
    (∃ a, getCollectionAnalytics db cached collectionId user = .ok a ∧ Exact db collectionId a) ↔
      Permitted db collectionId user ∧
      (∀ a, cached = some a → Exact db collectionId a) ∧
      (cached = none → Unrepeated db collectionId ∧
        roundedAverage (db.ratings collectionId fun _ => true) =
          roundedAverage (db.ratings collectionId fun r => r.deletedAt.isNone)) := by
  constructor
  · rintro ⟨a, ha, hexact⟩
    have hpermitted := permitted_of_ok ha
    rcases (getCollectionAnalytics_ok_iff hpermitted).mp ha with rfl | ⟨rfl, hfound⟩
    · refine ⟨hpermitted, fun a' ha' => ?_, fun h => by cases h⟩
      obtain rfl := Option.some.inj ha'
      exact hexact
    · exact ⟨hpermitted, fun a' ha' => (by cases ha'), fun _ => (exact_iff hfound).mp hexact⟩
  · rintro ⟨hpermitted, hcached, hcomputed⟩
    cases cached with
    | some a =>
      exact ⟨a, (getCollectionAnalytics_ok_iff hpermitted).mpr (.inl rfl), hcached a rfl⟩
    | none =>
      obtain ⟨c, hc, -⟩ := id hpermitted
      have hfound : ∃ a, db.getCollectionAnalytics collectionId = some a := by
        rw [Db.getCollectionAnalytics, hc]
        exact ⟨_, rfl⟩
      obtain ⟨a, ha⟩ := hfound
      exact ⟨a, (getCollectionAnalytics_ok_iff hpermitted).mpr (.inr ⟨rfl, ha⟩),
        (exact_iff ha).mpr (hcomputed rfl)⟩

/-! ## A quiz with two tags -/

def twoTags : Db where
  collections := ⟨[⟨"c", "u", "Favourites", 0⟩], by decide⟩
  bookmarks := ⟨[⟨"b", "c", "q", none, 0, 0⟩], by decide, by decide⟩
  quizzes := ⟨[⟨"q", none, none⟩], by decide⟩
  reviews := .empty _
  quizTags := ⟨[⟨"1", "q", "t"⟩, ⟨"2", "q", "t'"⟩], by decide, by decide⟩
  categories := .empty _
  tags := ⟨[⟨"t", "algebra", "algebra", none⟩, ⟨"t'", "geometry", "geometry", none⟩], by decide⟩
  bookmarked := by decide

/-- The one bookmark is counted twice. -/
theorem tagged_twice_counts_twice :
    (twoTags.quizzesOf "c").length = 1 ∧
      ∃ a, getCollectionAnalytics twoTags none "c" ⟨"u", "user"⟩ = .ok a ∧
        a.summary.totalBookmarks = 2 ∧ a.summary.totalQuizzes = 1 :=
  ⟨by decide, _, rfl, by decide, by decide⟩

end QuizBackend.Bookmark.Analytics
