import QuizBackend.Attempt.Tables
import QuizBackend.Quiz.Listing
import Mathlib.Data.Int.ConditionallyCompleteOrder
import Mathlib.Order.ConditionallyCompleteLattice.Basic

/-!
# The list of a user's attempts

The list has three sorts. Two of their columns may be NULL: an attempt that is not completed has no
score, and a started one has not finished. Under `DESC` PostgreSQL puts these rows first, so they come on
the first page, and the cursor of a page that ends with one of them is NULL. The condition after such a
cursor is `false`, or a comparison with NULL, which is never true: the list ends there.

By score it ends with an error where it does not end so. The driver hands over a `numeric` as text, the
cursor carries that text, and `AttemptCursorMapper` admits only a number. What remains is the list that
fits on one page, and by time the list whose first page does not end with a NULL
(`attempts_page_completely_iff`).

The representation of a `numeric` is the driver's, and is given (`numeric`). Of the strings a cursor can
carry, those that `Date.parse` reads stand for their instant, in microseconds.
-/

namespace QuizBackend.Attempt.Listing

open Lib
open Quiz.Updates (QuizRow)

structure Db extends Quiz.Listing.Db where
  quizAttempts : Table Uuid AttemptRow (·.attemptId)

inductive AttemptListSortField
  | createdAt
  | completedAt
  | score
  deriving DecidableEq

inductive SortValue
  | null
  | number (hundredths : Int)
  | instant (microseconds : Int)
  | text (value : String)

structure AttemptListCursorPayload where
  sortBy : AttemptListSortField
  sortValue : SortValue
  attemptId : Uuid

structure ListParams where
  status : Option AttemptStatus := none
  quizId : Option Uuid := none
  categoryId : Option Uuid := none
  tagId : Option Uuid := none
  fromDate : Option Int := none
  toDate : Option Int := none
  sortBy : AttemptListSortField := .createdAt

/-! ## `AttemptCursorMapper` -/

def isValidSortValue (sortBy : AttemptListSortField) (value : SortValue) : Bool :=
  match sortBy, value with
  | _, .null => true
  | .score, .number _ => true
  | .score, _ => false
  | _, .instant _ => true
  | _, _ => false

def parse (cursor : AttemptListCursorPayload) : Except String AttemptListCursorPayload :=
  if isValidSortValue cursor.sortBy cursor.sortValue then .ok cursor else .error "Invalid cursor"

/-! ## The repository -/

/-- The column of `ORDER BY`; a score is in hundredths. -/
def sortColumn (sortBy : AttemptListSortField) (row : AttemptRow) : Option Int :=
  match sortBy with
  | .completedAt => row.finishedAt
  | .score => row.scorePercent.map Int.ofNat
  | .createdAt => some row.createdAt

/-- `column < value OR (column = value AND attempt_id < attemptId)`, where it is true. -/
def isBefore (column : Option Int) (value : Int) (attemptId : Uuid) (row : AttemptRow) : Bool :=
  column.any fun c =>
    decide (c < value) || (decide (c = value) && decide (row.attemptId.bits.toNat < attemptId.bits.toNat))

/-- By score a NULL is compared like any other value, and the comparison is not true. -/
def cursorCondition (sortBy : AttemptListSortField) (cursor : AttemptListCursorPayload)
    (row : AttemptRow) : Bool :=
  match sortBy, cursor.sortValue with
  | .score, .number value => isBefore (sortColumn .score row) value cursor.attemptId row
  | .score, _ => false
  | sortBy, .instant value => isBefore (sortColumn sortBy row) value cursor.attemptId row
  | _, _ => false

def matchesFilters (db : Db) (userId : Uuid) (params : ListParams) (row : AttemptRow) : Bool :=
  decide (row.userId = userId) &&
    (((db.quizVersions.find? row.quizVersionId).bind fun v => db.quizzes.find? v.quizId).any fun quiz =>
      quiz.deletedAt.isNone &&
      params.quizId.all (fun quizId => decide (quiz.quizId = quizId)) &&
      params.categoryId.all (fun categoryId => decide (quiz.categoryId = some categoryId)) &&
      params.tagId.all (fun tagId => (db.quizTags.find? (quiz.quizId, tagId)).isSome)) &&
    params.status.all (fun status => decide (row.status = status)) &&
    params.fromDate.all (fun fromDate => decide (fromDate ≤ row.createdAt)) &&
    params.toDate.all (fun toDate => decide (row.createdAt ≤ toDate))

/-- A nullable column under `DESC`: NULL comes before every value. -/
def nullsFirst : Option Int → WithTop Int
  | none => ⊤
  | some value => (value : WithTop Int)

def orderBy (sortBy : AttemptListSortField) (row : AttemptRow) : WithTop Int ×ₗ Nat :=
  toLex (nullsFirst (sortColumn sortBy row), row.attemptId.bits.toNat)

def listAttemptsByUser (db : Db) (userId : Uuid) (limit : Nat)
    (cursor : Option AttemptListCursorPayload) (params : ListParams) : List AttemptRow :=
  (descending (orderBy params.sortBy) (db.quizAttempts.rows.filter fun row =>
    cursor.all (fun c => cursorCondition params.sortBy c row) &&
      matchesFilters db userId params row)).take (limit + 1)

/-! ## `listMyAttempts` -/

section

variable (numeric : Int → SortValue)

/-- `sortCompletedAt`, `sortScore` and `sortCreatedAt`. -/
def sortValue (sortBy : AttemptListSortField) (row : AttemptRow) :
    SortValue :=
  match sortBy, sortColumn sortBy row with
  | _, none => .null
  | .score, some score => numeric score
  | _, some time => .instant time

def nextCursorOf (sortBy : AttemptListSortField) (row : AttemptRow) :
    AttemptListCursorPayload :=
  ⟨sortBy, sortValue numeric sortBy row, row.attemptId⟩

def listMyAttempts (db : Db) (userId : Uuid) (limit : Nat)
    (params : ListParams) (cursor : Option AttemptListCursorPayload) :
    Except String (List AttemptRow × Option AttemptListCursorPayload) := do
  let cursor ← match cursor with
    | none => pure none
    | some cursor => some <$> parse cursor
  let rows := listAttemptsByUser db userId limit cursor params
  return lookAhead (nextCursorOf numeric params.sortBy) limit rows

end

def matching (db : Db) (userId : Uuid) (params : ListParams) : List AttemptRow :=
  descending (orderBy params.sortBy) (db.quizAttempts.rows.filter (matchesFilters db userId params))

/-! ## One page -/

variable {numeric : Int → SortValue} {db : Db} {userId : Uuid} {limit : Nat} {params : ListParams}

theorem nodup_orderBy (sortBy : AttemptListSortField) (p : AttemptRow → Bool) :
    ((db.quizAttempts.rows.filter p).map (orderBy sortBy)).Nodup := by
  have hids : ((db.quizAttempts.rows.filter p).map AttemptRow.attemptId).Nodup :=
    db.quizAttempts.nodup.sublist (List.filter_sublist.map _)
  refine nodup_of_determines hids fun row other h => Uuid.eq_of_toNat_eq ?_
  exact congrArg (fun k : WithTop Int ×ₗ Nat => (ofLex k).2) h

theorem nodup_matching : (matching db userId params).Nodup :=
  (descending_perm ..).nodup_iff.mpr (List.Nodup.of_map _ (nodup_orderBy params.sortBy _))

theorem listAttemptsByUser_eq (cursor : Option AttemptListCursorPayload) :
    listAttemptsByUser db userId limit cursor params =
      (after (cursorCondition params.sortBy) (matching db userId params) cursor).take (limit + 1) := by
  rw [listAttemptsByUser, after, matching, ← descending_filter (nodup_orderBy ..), List.filter_filter]

theorem listMyAttempts_of_valid {cursor : Option AttemptListCursorPayload}
    (h : ∀ c ∈ cursor, isValidSortValue c.sortBy c.sortValue = true) :
    listMyAttempts numeric db userId limit params cursor =
      request String (cursorCondition params.sortBy) (nextCursorOf numeric params.sortBy) limit
        (matching db userId params) cursor := by
  rw [request, ← listAttemptsByUser_eq]
  cases cursor with
  | none => rfl
  | some c => simp only [listMyAttempts, parse, if_pos (h c rfl)]; rfl

theorem listMyAttempts_none : listMyAttempts numeric db userId limit params none =
    request String (cursorCondition params.sortBy) (nextCursorOf numeric params.sortBy) limit
      (matching db userId params) none :=
  listMyAttempts_of_valid fun _ hc => by cases hc

theorem listMyAttempts_of_invalid {c : AttemptListCursorPayload}
    (h : isValidSortValue c.sortBy c.sortValue = false) :
    listMyAttempts numeric db userId limit params (some c) = .error "Invalid cursor" := by
  simp only [listMyAttempts, parse, h, Bool.false_eq_true, if_false]
  rfl

theorem isBefore_eq (sortBy : AttemptListSortField) (row : AttemptRow) (value : Int) (attemptId : Uuid) :
    isBefore (sortColumn sortBy row) value attemptId row =
      decide (orderBy sortBy row < toLex ((value : WithTop Int), attemptId.bits.toNat)) := by
  rw [Bool.eq_iff_iff, decide_eq_true_iff, orderBy, Prod.Lex.toLex_lt_toLex]
  cases hcolumn : sortColumn sortBy row with
  | none => simp [isBefore, nullsFirst]
  | some c => simp [isBefore, nullsFirst]

theorem cursorCondition_cases (sortBy : AttemptListSortField) (c : AttemptListCursorPayload) :
    (∀ row, cursorCondition sortBy c row = false) ∨
      ∃ place, ∀ row, cursorCondition sortBy c row = decide (orderBy sortBy row < place) := by
  cases sortBy with
  | score =>
    cases hvalue : c.sortValue with
    | number value =>
      refine .inr ⟨toLex ((value : WithTop Int), c.attemptId.bits.toNat), fun row => ?_⟩
      simp only [cursorCondition, hvalue, isBefore_eq]
    | null | instant _ | text _ => exact .inl fun row => by simp only [cursorCondition, hvalue]
  | createdAt | completedAt =>
    cases hvalue : c.sortValue with
    | instant value =>
      refine .inr ⟨toLex ((value : WithTop Int), c.attemptId.bits.toNat), fun row => ?_⟩
      simp only [cursorCondition, hvalue, isBefore_eq]
    | null | number _ | text _ => exact .inl fun row => by simp only [cursorCondition, hvalue]

/-- After a NULL nothing comes. -/
theorem cursorCondition_of_null {sortBy : AttemptListSortField} {row : AttemptRow}
    (h : sortColumn sortBy row = none) (x : AttemptRow) :
    cursorCondition sortBy (nextCursorOf numeric sortBy row) x = false := by
  cases sortBy with
  | createdAt => cases h
  | completedAt | score => simp only [cursorCondition, nextCursorOf, sortValue, h]

theorem cursorCondition_of_time {sortBy : AttemptListSortField} {row : AttemptRow} {time : Int}
    (hsort : sortBy ≠ .score) (h : sortColumn sortBy row = some time) (x : AttemptRow) :
    cursorCondition sortBy (nextCursorOf numeric sortBy row) x =
      decide (orderBy sortBy x < orderBy sortBy row) := by
  have hvalue : (nextCursorOf numeric sortBy row).sortValue = .instant time := by
    cases sortBy with
    | score => exact absurd rfl hsort
    | createdAt | completedAt => simp only [nextCursorOf, sortValue, h]
  have hplace : orderBy sortBy row = toLex ((time : WithTop Int), row.attemptId.bits.toNat) := by
    rw [orderBy, h]
    rfl
  rw [hplace, ← isBefore_eq]
  cases sortBy with
  | score => exact absurd rfl hsort
  | createdAt | completedAt => simp only [cursorCondition, hvalue]; rfl

theorem isValid_nextCursorOf {sortBy : AttemptListSortField} (hsort : sortBy ≠ .score)
    (row : AttemptRow) :
    isValidSortValue sortBy (nextCursorOf numeric sortBy row).sortValue = true := by
  cases hcolumn : sortColumn sortBy row with
  | none =>
    have hvalue : (nextCursorOf numeric sortBy row).sortValue = .null := by
      cases sortBy with
      | score => exact absurd rfl hsort
      | createdAt | completedAt => simp only [nextCursorOf, sortValue, hcolumn]
    rw [hvalue]
    cases sortBy <;> rfl
  | some time =>
    cases sortBy with
    | score => exact absurd rfl hsort
    | createdAt | completedAt => simp only [nextCursorOf, sortValue, hcolumn, isValidSortValue]

/-! ## All the pages -/

/-- The list ends on its first page; or it is a list by time, and its first page does not end with a
NULL. -/
def FirstPageLeadsOn (db : Db) (userId : Uuid) (limit : Nat) (params : ListParams) : Prop :=
  (matching db userId params).length ≤ limit ∨ params.sortBy ≠ .score ∧
    ((matching db userId params)[limit - 1]?.bind (sortColumn params.sortBy)).isSome = true

/-- NULLs come first: where one row of the list has a value, all after it have one. -/
theorem isSome_sortColumn_of_later {i j : Nat} {row later : AttemptRow} (hij : i ≤ j)
    (hrow : (matching db userId params)[i]? = some row)
    (hlater : (matching db userId params)[j]? = some later)
    (hvalue : (sortColumn params.sortBy row).isSome = true) :
    (sortColumn params.sortBy later).isSome = true := by
  rcases Nat.eq_or_lt_of_le hij with rfl | hlt
  · rw [hrow] at hlater
    cases hlater
    exact hvalue
  · obtain ⟨hi, rfl⟩ := List.getElem?_eq_some_iff.mp hrow
    obtain ⟨hj, rfl⟩ := List.getElem?_eq_some_iff.mp hlater
    have hsorted : orderBy params.sortBy (matching db userId params)[j]
        < orderBy params.sortBy (matching db userId params)[i] :=
      List.pairwise_iff_getElem.mp
        (strict_descending (nodup_orderBy params.sortBy (matchesFilters db userId params))) i j hi hj hlt
    obtain ⟨value, hvalue⟩ := Option.isSome_iff_exists.mp hvalue
    cases hcolumn : sortColumn params.sortBy (matching db userId params)[j] with
    | some _ => rfl
    | none =>
      rw [orderBy, orderBy, hcolumn, hvalue, Prod.Lex.toLex_lt_toLex] at hsorted
      rcases hsorted with hlt | ⟨heq, -⟩
      · exact absurd hlt not_top_lt
      · exact absurd heq WithTop.top_ne_coe

theorem bordersAgree_of_value (hlimit : 1 ≤ limit) (hsort : params.sortBy ≠ .score)
    (hvalue : ((matching db userId params)[limit - 1]?.bind (sortColumn params.sortBy)).isSome = true) :
    BordersAgree (cursorCondition params.sortBy) (nextCursorOf numeric params.sortBy) limit
      (matching db userId params) := by
  intro k hlong border hborder
  obtain ⟨first, hfirst, hcolumn⟩ : ∃ first, (matching db userId params)[limit - 1]? = some first ∧
      (sortColumn params.sortBy first).isSome = true := by
    obtain ⟨time, htime⟩ := Option.isSome_iff_exists.mp hvalue
    obtain ⟨first, hfirst, hcolumn⟩ := Option.bind_eq_some_iff.mp htime
    exact ⟨first, hfirst, hcolumn ▸ rfl⟩
  obtain ⟨time, htime⟩ := Option.isSome_iff_exists.mp
    (isSome_sortColumn_of_later (by omega) hfirst hborder hcolumn)
  have hall : (matching db userId params).filter (fun x =>
      decide (orderBy params.sortBy x < orderBy params.sortBy border)) =
        (matching db userId params).drop (k * limit + limit) :=
    bordersAgree_descending hlimit (fun _ _ => rfl)
      (nodup_orderBy params.sortBy (matchesFilters db userId params)) k hlong border hborder
  rw [← hall]
  exact List.filter_congr fun x _ => cursorCondition_of_time hsort htime x

theorem listMyAttempts_more (hlimit : 1 ≤ limit) (hmore : limit < (matching db userId params).length) :
    ∃ border, (matching db userId params)[limit - 1]? = some border ∧
      listMyAttempts numeric db userId limit params none =
        .ok ((matching db userId params).take limit, some (nextCursorOf numeric params.sortBy border)) := by
  refine ⟨_, List.getElem?_eq_getElem (Nat.lt_of_le_of_lt (Nat.sub_le limit 1) hmore), ?_⟩
  rw [listMyAttempts_none, request, after_none, lookAhead_more hmore,
    getLast?_take hlimit hmore,
    List.getElem?_eq_getElem (Nat.lt_of_le_of_lt (Nat.sub_le limit 1) hmore), Option.map_some]

/-- After a page that ends with a NULL, and after any page of a list by score. -/
theorem not_pages_of_border (hnumeric : ∀ score, ∃ text, numeric score = .text text)
    (hlimit : 1 ≤ limit) (h : ¬ FirstPageLeadsOn db userId limit params) :
    ¬ PagesInOrder (listMyAttempts numeric db userId limit params) (matching db userId params) := by
  obtain ⟨hmore, hborder⟩ := not_or.mp h
  have hmore := Nat.lt_of_not_le hmore
  obtain ⟨border, hlast, hfirst⟩ := @listMyAttempts_more numeric _ _ _ _ hlimit hmore
  rw [hlast] at hborder
  refine not_pages_of_dead hfirst (fun answer hanswer => ?_) (by rw [List.length_take]; omega)
  cases hcolumn : sortColumn params.sortBy border with
  | none =>
    have hvalue : (nextCursorOf numeric params.sortBy border).sortValue = .null := by
      cases hsort : params.sortBy <;> rw [hsort] at hcolumn <;>
        simp only [nextCursorOf, sortValue, hcolumn]
    have hvalid : isValidSortValue params.sortBy
        (nextCursorOf numeric params.sortBy border).sortValue = true := by
      rw [hvalue]
      cases params.sortBy <;> rfl
    have hnothing : after (cursorCondition params.sortBy) (matching db userId params)
        (some (nextCursorOf numeric params.sortBy border)) = [] :=
      List.filter_eq_nil_iff.mpr fun x _ hx => by
        rw [Option.all_some, cursorCondition_of_null hcolumn] at hx
        cases hx
    rw [listMyAttempts_of_valid fun c hc => by cases hc; exact hvalid, request, hnothing] at hanswer
    exact (Except.ok.inj hanswer).symm
  | some value =>
    have hsort : params.sortBy = .score := by
      by_contra hsort
      exact hborder ⟨hsort, by rw [Option.bind_some, hcolumn]; rfl⟩
    obtain ⟨text, htext⟩ := hnumeric value
    have hinvalid : isValidSortValue (nextCursorOf numeric params.sortBy border).sortBy
        (nextCursorOf numeric params.sortBy border).sortValue = false := by
      rw [hsort] at hcolumn ⊢
      simp only [nextCursorOf, sortValue, hcolumn, htext, isValidSortValue]
    rw [listMyAttempts_of_invalid hinvalid] at hanswer
    cases hanswer

/-- **The list of attempts pages completely just where its first page leads on**: it holds the whole
list, or it is sorted by a time and does not end with an attempt that has none. -/
theorem attempts_page_completely_iff (numeric : Int → SortValue) (db : Db) (userId : Uuid)
    (limit : Nat) (params : ListParams) (hnumeric : ∀ score, ∃ text, numeric score = .text text)
    (hlimit : 1 ≤ limit) :
    PagesInOrder (listMyAttempts numeric db userId limit params) (matching db userId params) ↔
      FirstPageLeadsOn db userId limit params := by
  refine ⟨fun hpages => by_contra fun h => not_pages_of_border hnumeric hlimit h hpages, ?_⟩
  rintro (hfits | ⟨hsort, hvalue⟩)
  · refine pages_of_last ?_
    rw [listMyAttempts_none, request, after_none, lookAhead_last hfits]
  · rw [pages_congr (P := fun cursor => ∀ c ∈ cursor, isValidSortValue c.sortBy c.sortValue = true)
      (fun c hc => by cases hc) (fun _ => listMyAttempts_of_valid) ?_]
    · refine (pages_iff_bordersAgree hlimit nodup_matching fun c row _ x hrow hx => ?_).mpr
        (bordersAgree_of_value hlimit hsort hvalue)
      cases hcolumn : sortColumn params.sortBy row with
      | none =>
        rw [cursorCondition_of_null hcolumn] at hx
        cases hx
      | some time =>
        rw [cursorCondition_of_time hsort hcolumn, decide_eq_true_iff] at hx
        rcases cursorCondition_cases params.sortBy c with hnever | ⟨place, hplace⟩
        · rw [hnever] at hrow
          cases hrow
        · rw [hplace, decide_eq_true_iff] at hrow ⊢
          exact hx.trans hrow
    · intro cursor items next hanswer c hc
      cases hc
      obtain ⟨row, -, rfl⟩ := cursorOf_of_request hanswer
      exact isValid_nextCursorOf hsort row

def numericText (hundredths : Int) : SortValue :=
  .text s!"{hundredths / 100}.{hundredths % 100 / 10}{hundredths % 10}"

def attempt (attemptId : Uuid) (status : AttemptStatus) (scorePercent : Option Nat)
    (finishedAt : Option Int) (createdAt : Int) : AttemptRow :=
  { attemptId, userId := 7, quizVersionId := 5, contextType := .solo, contextRefId := none, status,
    scorePercent, correctCount := none, startedAt := createdAt, finishedAt, timeTakenMs := none,
    xpEarned := 0, createdAt, updatedAt := createdAt }

def threeAttempts : Db where
  quizzes := ⟨[Quiz.Listing.rivers], List.nodup_singleton _⟩
  quizVersions := ⟨[{ quizVersionId := 5, quizId := 1, versionNumber := 1,
                      settings := ⟨.easy, 60000, 50, 10⟩, createdByUserId := none, createdAt := 0,
                      updatedAt := 0 }], List.nodup_singleton _⟩
  quizTags := Table.empty _
  quizStats := Table.empty _
  quizAttempts := ⟨[attempt 1 .completed (some 8550) (some 20) 10,
                    attempt 2 .completed (some 9000) (some 40) 30, attempt 3 .started none none 50],
    by decide⟩

/-- With two on a page the first ends with a completed attempt, and the next one follows. -/
theorem attempts_page_by_twos :
    PagesInOrder (listMyAttempts numericText threeAttempts 7 2 { sortBy := .completedAt })
      (matching threeAttempts 7 { sortBy := .completedAt }) :=
  (attempts_page_completely_iff numericText threeAttempts 7 2 { sortBy := .completedAt }
    (fun _ => ⟨_, rfl⟩) (by decide)).mpr (.inr ⟨by decide, by decide⟩)

/-- One by one, the started attempt is the last one by time, and by score there is an error. -/
theorem attempts_do_not_page_singly :
    ¬ PagesInOrder (listMyAttempts numericText threeAttempts 7 1 { sortBy := .completedAt })
        (matching threeAttempts 7 { sortBy := .completedAt }) ∧
      ¬ PagesInOrder
        (listMyAttempts numericText threeAttempts 7 1 { sortBy := .score, status := some .completed })
        (matching threeAttempts 7 { sortBy := .score, status := some .completed }) := by
  constructor
  · refine not_pages_of_border (fun _ => ⟨_, rfl⟩) (Nat.le_refl 1) ?_
    rintro (hfits | ⟨-, hvalue⟩)
    · exact absurd hfits (by decide)
    · exact absurd hvalue (by decide)
  · refine not_pages_of_border (fun _ => ⟨_, rfl⟩) (Nat.le_refl 1) ?_
    rintro (hfits | ⟨hsort, -⟩)
    · exact absurd hfits (by decide)
    · exact absurd rfl hsort

end QuizBackend.Attempt.Listing
