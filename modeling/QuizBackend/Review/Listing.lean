import QuizBackend.Lib.CursorOrder
import QuizBackend.Review.Tables
import Mathlib.Data.Prod.Lex

/-!
# Lists of reviews

`listReviewsByQuiz` has four orders and two kinds of cursor. The list by helpful votes has a cursor of
its own; the other three go on from the time of the last review, which is the order of the newest ones
and not that of the ratings. By rating, a page is followed by the reviews *older* than its last one,
whatever their rating, so the pages hold the list only if the two orders agree at every border
(`reviews_page_completely_iff`).

`CursorMapper` writes a cursor out and reads it again, with the parser that goes with the sort; here it
is handed over as it is. The users and their pictures, which are joined to the rows, are left out, and so
is the comment.
-/

namespace QuizBackend.Review.Listing

open Lib

structure QuizReviewRow where
  reviewId : Uuid
  quizId : Uuid
  userId : Uuid
  rating : Int
  createdAt : Int
  helpfulCount : Int
  deletedAt : Option Int
  deriving DecidableEq

abbrev QuizReviews := Table Uuid QuizReviewRow (·.reviewId)

inductive ReviewSort where
  | helpful
  | newest
  | highestRating
  | lowestRating
  deriving DecidableEq

structure ReviewCursor where
  createdAt : Int
  reviewId : Uuid

structure ReviewHelpfulCursor where
  helpfulCount : Int
  reviewId : Uuid

@[reducible] def ReviewListCursor : Option ReviewSort → Type
  | some .helpful => ReviewHelpfulCursor
  | none | some .newest | some .highestRating | some .lowestRating => ReviewCursor

/-! ## The repository -/

def baseWhere (quizId : Uuid) (rating : Option Int) (r : QuizReviewRow) : Bool :=
  decide (r.quizId = quizId) && rating.all (fun wanted => decide (r.rating = wanted)) &&
    r.deletedAt.isNone

/-- `column < value OR (column = value AND review_id < reviewId)`. -/
def beforeCursor (column value : Int) (id cursorId : Uuid) : Bool :=
  decide (column < value) ||
    (decide (column = value) && decide (id.bits.toNat < cursorId.bits.toNat))

def cursorCondition : (sort : Option ReviewSort) → ReviewListCursor sort → QuizReviewRow → Bool
  | some .helpful, c, r => beforeCursor r.helpfulCount c.helpfulCount r.reviewId c.reviewId
  | none, c, r | some .newest, c, r | some .highestRating, c, r | some .lowestRating, c, r =>
    beforeCursor r.createdAt c.createdAt r.reviewId c.reviewId

/-- The columns of `orderBy`, in descending order: `ASC` is `DESC` of the opposite. -/
def orderBy (sort : Option ReviewSort) (r : QuizReviewRow) : Int ×ₗ Nat :=
  match sort with
  | some .helpful => toLex (r.helpfulCount, r.reviewId.bits.toNat)
  | some .highestRating => toLex (r.rating, r.reviewId.bits.toNat)
  | some .lowestRating => toLex (-r.rating, r.reviewId.bits.toNat)
  | none | some .newest => toLex (r.createdAt, r.reviewId.bits.toNat)

def listReviewsByQuiz (reviews : QuizReviews) (quizId : Uuid) (limit : Nat) (rating : Option Int)
    (sort : Option ReviewSort) (cursor : Option (ReviewListCursor sort)) : List QuizReviewRow :=
  (descending (orderBy sort) (reviews.rows.filter fun r =>
    cursor.all (fun c => cursorCondition sort c r) && baseWhere quizId rating r)).take (limit + 1)

/-! ## The services -/

def serviceListReviews (quizzes : Quizzes) (reviews : QuizReviews) (quizId : Uuid) (limit : Nat)
    (rating : Option Int) (sort : Option ReviewSort) (cursor : Option (ReviewListCursor sort)) :
    Except ReviewError (List QuizReviewRow) :=
  if isVisibleToReviewers (getActiveQuizRecordById quizzes quizId) then
    .ok (listReviewsByQuiz reviews quizId limit rating sort cursor)
  else .error (.notFound reviewQuizNotFoundMessage)

def nextCursorOf : (sort : Option ReviewSort) → QuizReviewRow → ReviewListCursor sort
  | some .helpful, lastItem => ⟨lastItem.helpfulCount, lastItem.reviewId⟩
  | none, lastItem | some .newest, lastItem | some .highestRating, lastItem
  | some .lowestRating, lastItem => ⟨lastItem.createdAt, lastItem.reviewId⟩

def listReviews (quizzes : Quizzes) (reviews : QuizReviews) (quizId : Uuid) (limit : Nat)
    (rating : Option Int) (sort : Option ReviewSort) (cursor : Option (ReviewListCursor sort)) :
    Except ReviewError (List QuizReviewRow × Option (ReviewListCursor sort)) :=
  (serviceListReviews quizzes reviews quizId limit rating sort cursor).map
    (lookAhead (nextCursorOf sort) limit)

def matching (reviews : QuizReviews) (quizId : Uuid) (rating : Option Int) (sort : Option ReviewSort) :
    List QuizReviewRow :=
  descending (orderBy sort) (reviews.rows.filter (baseWhere quizId rating))

/-! ## The two orders -/

theorem beforeCursor_eq (column value : Int) (id cursorId : Uuid) :
    beforeCursor column value id cursorId =
      decide (toLex (column, id.bits.toNat) < toLex (value, cursorId.bits.toNat)) := by
  rw [beforeCursor, Bool.eq_iff_iff, decide_eq_true_iff, Prod.Lex.toLex_lt_toLex]
  simp

section

variable (sort : Option ReviewSort)

def cursorKey (r : QuizReviewRow) : Int ×ₗ Nat :=
  match sort with
  | some .helpful => toLex (r.helpfulCount, r.reviewId.bits.toNat)
  | none | some .newest | some .highestRating | some .lowestRating =>
    toLex (r.createdAt, r.reviewId.bits.toNat)

theorem cursorCondition_nextCursorOf (border r : QuizReviewRow) :
    cursorCondition sort (nextCursorOf sort border) r =
      decide (cursorKey sort r < cursorKey sort border) := by
  rcases sort with _ | (_ | _ | _ | _)
  all_goals exact beforeCursor_eq ..

theorem cursorCondition_trans (c : ReviewListCursor sort)
    (r x : QuizReviewRow) (hr : cursorCondition sort c r = true)
    (hx : cursorCondition sort (nextCursorOf sort r) x = true) : cursorCondition sort c x = true := by
  rw [cursorCondition_nextCursorOf, decide_eq_true_iff] at hx
  rcases sort with _ | (_ | _ | _ | _)
  all_goals
    refine (beforeCursor_eq ..).trans (decide_eq_true (lt_trans hx ?_))
    exact of_decide_eq_true ((beforeCursor_eq ..).symm.trans hr)

end

section Lists

variable (reviews : QuizReviews) (quizId : Uuid) (rating : Option Int) (sort : Option ReviewSort)

theorem nodup_orderBy :
    ((reviews.rows.filter (baseWhere quizId rating)).map (orderBy sort)).Nodup := by
  have hids : (reviews.rows.map (·.reviewId)).Nodup := reviews.nodup
  have hpicked := hids.sublist
    ((List.filter_sublist (p := baseWhere quizId rating)).map QuizReviewRow.reviewId)
  rw [List.Nodup, List.pairwise_map] at hpicked ⊢
  refine hpicked.imp fun {r x} hne hsame => hne ?_
  -- the second column of the order is the id
  have hid : r.reviewId.bits.toNat = x.reviewId.bits.toNat := by
    rcases sort with _ | (_ | _ | _ | _)
    all_goals exact congrArg (fun k : Int ×ₗ Nat => (ofLex k).2) hsame
  cases hr : r.reviewId with
  | mk b =>
    cases hx : x.reviewId with
    | mk b' =>
      rw [hr, hx] at hid
      exact congrArg Uuid.mk (BitVec.eq_of_toNat_eq hid)

theorem nodup_matching : (matching reviews quizId rating sort).Nodup := by
  have hkeys := nodup_orderBy reviews quizId rating sort
  exact (descending_perm _ _).nodup_iff.mpr (List.Nodup.of_map _ hkeys)

theorem listReviewsByQuiz_eq (limit : Nat) (cursor : Option (ReviewListCursor sort)) :
    listReviewsByQuiz reviews quizId limit rating sort cursor =
      (after (cursorCondition sort) (matching reviews quizId rating sort) cursor).take (limit + 1) := by
  rw [listReviewsByQuiz, after, matching, ← descending_filter (nodup_orderBy ..), List.filter_filter]

variable {sort} in
theorem orderBy_eq_cursorKey (h : sort ≠ some .highestRating) (h' : sort ≠ some .lowestRating) :
    orderBy sort = cursorKey sort := by
  rcases sort with _ | (_ | _ | _ | _)
  · rfl
  · rfl
  · rfl
  · exact absurd rfl h
  · exact absurd rfl h'

/-- Where two pages meet, the reviews older than the last one of the page are those that come after it. -/
def RatingsAgree (limit : Nat) : Prop :=
  BordersAgree (cursorCondition sort) (nextCursorOf sort) limit (matching reviews quizId rating sort)

variable {sort} in
theorem agree_of_own {limit : Nat} (hlimit : 1 ≤ limit) (h : sort ≠ some .highestRating)
    (h' : sort ≠ some .lowestRating) : RatingsAgree reviews quizId rating sort limit := by
  refine bordersAgree_of_pairwise hlimit ?_ ?_
  · intro r _
    rw [cursorCondition_nextCursorOf]
    exact decide_eq_false (lt_irrefl _)
  · have hsorted := strict_descending (nodup_orderBy reviews quizId rating sort)
    refine hsorted.imp fun {r x} hlt => ?_
    rw [orderBy_eq_cursorKey h h'] at hlt
    rw [cursorCondition_nextCursorOf, cursorCondition_nextCursorOf]
    exact ⟨decide_eq_true hlt, decide_eq_false (lt_asymm hlt)⟩

theorem pages_iff_ratingsAgree {quizzes : Quizzes} {limit : Nat} (hlimit : 1 ≤ limit)
    (hvisible : isVisibleToReviewers (getActiveQuizRecordById quizzes quizId) = true) :
    PagesInOrder (listReviews quizzes reviews quizId limit rating sort)
      (matching reviews quizId rating sort) ↔ RatingsAgree reviews quizId rating sort limit := by
  have hfetch : listReviews quizzes reviews quizId limit rating sort =
      request ReviewError (cursorCondition sort) (nextCursorOf sort) limit
        (matching reviews quizId rating sort) := by
    funext cursor
    rw [listReviews, serviceListReviews, if_pos hvisible, listReviewsByQuiz_eq]
    rfl
  rw [hfetch]
  exact pages_iff_bordersAgree hlimit (nodup_matching ..) fun c r _ x => cursorCondition_trans sort c r x

/-- **The list of a quiz pages completely just where its cursor goes with its order**: always by time
and by helpful votes, and by rating if the times agree with the ratings at the borders. -/
theorem reviews_page_completely_iff (quizzes : Quizzes) {limit : Nat} (hlimit : 1 ≤ limit) :
    PagesInOrder (listReviews quizzes reviews quizId limit rating sort)
        (matching reviews quizId rating sort) ↔
      isVisibleToReviewers (getActiveQuizRecordById quizzes quizId) = true ∧
        (sort = some .highestRating ∨ sort = some .lowestRating →
          RatingsAgree reviews quizId rating sort limit) := by
  by_cases hvisible : isVisibleToReviewers (getActiveQuizRecordById quizzes quizId) = true
  · rw [pages_iff_ratingsAgree reviews quizId rating sort hlimit hvisible, and_iff_right hvisible]
    refine ⟨fun hagree _ => hagree, fun hrated => ?_⟩
    by_cases h : sort = some .highestRating ∨ sort = some .lowestRating
    · exact hrated h
    · rw [not_or] at h
      exact agree_of_own reviews quizId rating hlimit h.1 h.2
  · refine iff_of_false ?_ fun h => hvisible h.1
    rintro ⟨n, hwalk⟩
    have hfetch : ∀ cursor, listReviews quizzes reviews quizId limit rating sort cursor =
        .error (.notFound reviewQuizNotFoundMessage) := by
      intro cursor
      rw [listReviews, serviceListReviews, if_neg hvisible]
      rfl
    cases n with
    | zero => cases hwalk
    | succ n =>
      rw [walk, List.replicate_succ, follow, hfetch] at hwalk
      cases hwalk

end Lists

/-- A quiz with two reviews; the better one is the older one. -/
def twoReviews : QuizReviews := ⟨[⟨1, 1, 20, 5, 1, 0, none⟩, ⟨2, 1, 21, 4, 2, 3, none⟩], by decide⟩

def capitals : Quizzes := ⟨[⟨1, 10, "Capitals", false, some 100, none⟩], nodup_capitals⟩

theorem helpful_page_completely :
    PagesInOrder (listReviews capitals twoReviews 1 1 none (some .helpful))
      (matching twoReviews 1 none (some .helpful)) :=
  (reviews_page_completely_iff twoReviews 1 none (some .helpful) capitals (Nat.le_refl 1)).mpr
    ⟨by decide, fun h => by rcases h with h | h <;> cases h⟩

/-- The second one is younger than the first, and so is not past it. -/
theorem ratings_do_not_page_singly : ¬ ∀ (quizzes : Quizzes) (reviews : QuizReviews) (quizId : Uuid)
    (limit : Nat) (rating : Option Int) (sort : Option ReviewSort), 1 ≤ limit →
    isVisibleToReviewers (getActiveQuizRecordById quizzes quizId) = true →
    PagesInOrder (listReviews quizzes reviews quizId limit rating sort)
      (matching reviews quizId rating sort) := by
  intro hall
  have hvisible : isVisibleToReviewers (getActiveQuizRecordById capitals 1) = true := by decide
  have hagree := (pages_iff_ratingsAgree twoReviews 1 none (some .highestRating)
    (Nat.le_refl 1) hvisible).mp (hall capitals twoReviews 1 1 none _ (Nat.le_refl 1) hvisible)
  have hborder := hagree 0 (by decide) ⟨1, 1, 20, 5, 1, 0, none⟩ (by decide)
  revert hborder
  decide

end QuizBackend.Review.Listing
