import QuizBackend.Lib.CursorOrder
import QuizBackend.Lib.Uuid
import QuizBackend.Social.Requests
import Mathlib.Algebra.Order.Ring.Int
import Mathlib.Data.Prod.Lex

/-!
# The feed (`social.repository.impl.ts`)

`getFeed` of the repository lists what the friends of a user, and the users the user follows, have
done, the latest first; not if one of the two has blocked the other, nor if the account is deleted.
Activities of the same moment are listed by their id. A page is asked for with one row more than the
limit, which tells whether there is another, and the next one is asked for with the place of the last
row, in base64 (`sliceWithCursor`). Following the cursors lists the whole feed, if they are read back
(`feed_pages_completely`).

The tables do not change here. A cursor goes through a library on its way out and several on its way in
(`Runtime`), which are left open. A payload is its JSON text.
-/

namespace QuizBackend.Social.Feed

open Lib

/-! ## Tables -/

inductive SocialFeedActivityType
  | badgeEarned
  | badgeRevoked
  | rankMilestone
  | peakRankAchieved
  | tournamentJoined
  | tournamentCompleted
  | tournamentWon
  | commentCreated
  | quizCompleted
  | quizMilestone
  | instanceCreated
  | instanceJoined
  | instanceCompleted
  deriving DecidableEq

structure Activity where
  activityId : Uuid
  userId : String
  activityType : SocialFeedActivityType
  payload : String
  occurredAt : Int

structure User where
  userId : String
  username : String
  deletedAt : Option Int

structure UserProfile where
  userId : String
  displayName : Option String
  avatarUrl : Option String

structure Database where
  friendships : Friendships
  follows : Follows
  blocks : Blocks
  users : Table String User (·.userId)
  userProfiles : Table String UserProfile (·.userId)
  activities : Table Uuid Activity (·.activityId)

def Database.userNetwork (db : Database) (userId : String) : List String :=
  ((db.friendships.rows.filter fun f =>
      (f.requesterId == userId || f.addresseeId == userId) && f.isAccepted).map
    (System.friendOf userId)) ++
  (db.follows.rows.filter fun f => f.followerId == userId && f.deletedAt.isNone).map (·.followingId)

def Database.blockedIds (db : Database) (userId : String) : List String :=
  (db.blocks.rows.filter fun b => b.blockerId == userId && b.deletedAt.isNone).map (·.blockedId) ++
  (db.blocks.rows.filter fun b => b.blockedId == userId && b.deletedAt.isNone).map (·.blockerId)

structure FeedRow where
  activityId : Uuid
  activityType : SocialFeedActivityType
  occurredAt : Int
  userId : String
  username : String
  displayName : Option String
  avatarUrl : Option String
  payload : String

/-- The joins of an activity. Nobody is in the network twice, as it is a `UNION`. -/
def Database.feedRow (db : Database) (userId : String) (a : Activity) : Option FeedRow :=
  (db.users.find? a.userId).bind fun u =>
    if u.deletedAt.isNone ∧ a.userId ∈ db.userNetwork userId ∧ a.userId ∉ db.blockedIds userId then
      let profile := db.userProfiles.find? a.userId
      some
        { activityId := a.activityId
          activityType := a.activityType
          occurredAt := a.occurredAt
          userId := a.userId
          username := u.username
          displayName := profile.bind (·.displayName)
          avatarUrl := profile.bind (·.avatarUrl)
          payload := a.payload }
    else none

open FeedRow

def Database.feedRows (db : Database) (userId : String) : List FeedRow :=
  db.activities.rows.filterMap (db.feedRow userId)

abbrev Position := Int ×ₗ Nat

def position (occurredAt : Int) (activityId : Uuid) : Position :=
  toLex (occurredAt, activityId.bits.toNat)

def FeedRow.position (r : FeedRow) : Position := Feed.position r.occurredAt r.activityId

/-! ## Cursors -/

inductive FeedError
  | invalidCursor
  /-- A field of `null` is read. -/
  | typeError
  | database
  deriving DecidableEq

inductive DecodedCursor
  | null
  | fields (occurredAt activityId : Option String)
  deriving DecidableEq

structure Runtime where
  parseCursor : String → Option DecodedCursor
  encodeBase64JsonCursor : (occurredAt activityId : String) → String
  /-- `!Number.isNaN(Date.parse(value))`. -/
  isIsoDateString : String → Bool
  timestamptz : String → Option Int
  text : Int → String

variable (rt : Runtime) (db : Database)

/-- The place to go on from. An empty cursor is none. -/
def decodeFeedCursorCondition (cursor : Option String) : Except FeedError (Option Position) :=
  match cursor with
  | none => .ok none
  | some cursor =>
    if cursor = "" then .ok none
    else
      match rt.parseCursor cursor with
      | none => .error .invalidCursor
      | some .null => .error .typeError
      | some (.fields (some occurredAt) (some activityId)) =>
        if rt.isIsoDateString occurredAt then
          match rt.timestamptz occurredAt, Uuid.parse activityId with
          | some occurredAt, some activityId => .ok (some (position occurredAt activityId))
          | _, _ => .error .database
        else .error .invalidCursor
      | some (.fields _ _) => .error .invalidCursor

/-! ## Pages -/

structure FeedUser where
  userId : String
  username : String
  deriving DecidableEq

structure FeedActor where
  userId : String
  username : String
  displayName : Option String
  avatarUrl : Option String
  deriving DecidableEq

structure FeedItem where
  id : String
  type : SocialFeedActivityType
  occurredAt : String
  user : FeedUser
  actor : FeedActor
  payload : String
  deriving DecidableEq

structure Pagination where
  kind : String
  limit : Nat
  hasNextPage : Bool
  nextCursor : Option String
  deriving DecidableEq

structure PaginatedSocialFeedResult where
  items : List FeedItem
  pagination : Pagination
  deriving DecidableEq

structure CursorSlicedPage (T : Type) where
  items : List T
  hasNextPage : Bool
  nextCursor : Option String

def sliceWithCursor {T : Type} (rows : List T) (limit : Nat) (encodeCursor : T → String) :
    CursorSlicedPage T :=
  let hasNextPage := decide (limit < rows.length)
  let items := if hasNextPage then rows.take limit else rows
  let nextCursor := if hasNextPage then items.getLast?.map encodeCursor else none
  { items, hasNextPage, nextCursor }

def FeedRow.item (r : FeedRow) : FeedItem where
  id := r.activityId.text
  type := r.activityType
  occurredAt := rt.text r.occurredAt
  user := { userId := r.userId, username := r.username }
  actor :=
    { userId := r.userId
      username := r.username
      displayName := r.displayName
      avatarUrl := r.avatarUrl }
  payload := r.payload

def FeedRow.cursor (r : FeedRow) : String :=
  rt.encodeBase64JsonCursor (rt.text r.occurredAt) r.activityId.text

def getFeed (userId : String) (cursor : Option String) (limit : Option Nat) :
    Except FeedError PaginatedSocialFeedResult := do
  let effectiveLimit := limit.getD 20
  let cursorCondition ← decodeFeedCursorCondition rt cursor
  let rows := (rest FeedRow.position (db.feedRows userId) cursorCondition).take (effectiveLimit + 1)
  let page := sliceWithCursor rows effectiveLimit (FeedRow.cursor rt)
  return {
    items := page.items.map (item rt)
    pagination :=
      { kind := "cursor"
        limit := effectiveLimit
        hasNextPage := page.hasNextPage
        nextCursor := page.nextCursor } }

/-! ## What is in the feed -/

variable {cursor : Option String} {place : Option Position}

section Feed

variable {rt : Runtime} {db : Database} {userId : String}

/-- Of the network, neither blocked nor deleted. -/
structure Database.InFeed (db : Database) (userId authorId : String) : Prop where
  present : ∃ u, db.users.find? authorId = some u ∧ u.deletedAt = none
  inNetwork : authorId ∈ db.userNetwork userId
  notBlocked : authorId ∉ db.blockedIds userId

/-- The items are those of the feed, each once. -/
structure Lists (db : Database) (userId : String) (items : List FeedItem) : Prop where
  once : (items.map (·.id)).Nodup
  mem_iff : ∀ id, id ∈ items.map (·.id) ↔
    ∃ a ∈ db.activities.rows, a.activityId.text = id ∧ db.InFeed userId a.userId

theorem feedRow_eq_some {a : Activity} {r : FeedRow} (h : db.feedRow userId a = some r) :
    r.activityId = a.activityId ∧ db.InFeed userId a.userId := by
  obtain ⟨u, hu, hrow⟩ := Option.bind_eq_some_iff.mp h
  split at hrow
  · next hkept =>
    obtain ⟨hdeleted, hnetwork, hblocked⟩ := hkept
    cases hrow
    exact ⟨rfl, ⟨u, hu, Option.isNone_iff_eq_none.mp hdeleted⟩, hnetwork, hblocked⟩
  · cases hrow

theorem feedRow_of_inFeed {a : Activity} (h : db.InFeed userId a.userId) :
    ∃ r, db.feedRow userId a = some r := by
  obtain ⟨⟨u, hu, hdeleted⟩, hnetwork, hblocked⟩ := h
  unfold Database.feedRow
  rw [hu, Option.bind_some, if_pos ⟨Option.isNone_iff_eq_none.mpr hdeleted, hnetwork, hblocked⟩]
  exact ⟨_, rfl⟩

theorem nodup_activityId_feedRows (db : Database) (userId : String) :
    ((db.feedRows userId).map (·.activityId)).Nodup := by
  have hids := List.pairwise_map.mp db.activities.nodup
  refine List.pairwise_map.mpr (List.pairwise_filterMap.mpr (hids.imp ?_))
  intro a a' hne r hr r' hr' hsame
  rw [(feedRow_eq_some hr).1, (feedRow_eq_some hr').1] at hsame
  exact hne hsame

theorem nodup_position_feedRows (db : Database) (userId : String) :
    ((db.feedRows userId).map FeedRow.position).Nodup := by
  have hbits : ((db.feedRows userId).map fun r => r.activityId.bits.toNat).Nodup := by
    have hinj : Function.Injective fun id : Uuid => id.bits.toNat := by
      rintro ⟨u⟩ ⟨v⟩ h
      exact congrArg Uuid.mk (BitVec.eq_of_toNat_eq h)
    have hmap := (nodup_activityId_feedRows db userId).map hinj
    rwa [List.map_map] at hmap
  refine List.Nodup.of_map (fun p : Position => (ofLex p).2) ?_
  rwa [List.map_map]

theorem injective_text : Function.Injective Uuid.text := by
  intro u v h
  exact Uuid.text_injective (p := "") (q := "") (congrArg ("" ++ ·) h)

theorem lists_of_perm {rows : List FeedRow} (h : rows.Perm (db.feedRows userId)) :
    Lists db userId (rows.map (item rt)) := by
  have hids : ((rows.map (item rt)).map (·.id)) = rows.map fun r => r.activityId.text := by
    rw [List.map_map]
    rfl
  constructor
  · have hmap :=
      ((h.map (·.activityId)).nodup_iff.mpr (nodup_activityId_feedRows db userId)).map injective_text
    rw [List.map_map] at hmap
    rw [hids]
    exact hmap
  · intro id
    rw [hids, List.mem_map]
    constructor
    · rintro ⟨r, hr, rfl⟩
      obtain ⟨a, ha, hrow⟩ := List.mem_filterMap.mp (h.mem_iff.mp hr)
      obtain ⟨hid, hin⟩ := feedRow_eq_some hrow
      exact ⟨a, ha, congrArg Uuid.text hid.symm, hin⟩
    · rintro ⟨a, ha, rfl, hin⟩
      obtain ⟨r, hrow⟩ := feedRow_of_inFeed hin
      exact ⟨r, h.mem_iff.mpr (List.mem_filterMap.mpr ⟨a, ha, hrow⟩),
        congrArg Uuid.text (feedRow_eq_some hrow).1⟩

/-! ## Page by page -/

def pageOf (rt : Runtime) (left : List FeedRow) (limit : Nat) : PaginatedSocialFeedResult where
  items := (left.take limit).map (item rt)
  pagination :=
    { kind := "cursor"
      limit
      hasNextPage := decide (limit < left.length)
      nextCursor :=
        if limit < left.length then (left.take limit).getLast?.map (FeedRow.cursor rt) else none }

theorem sliceWithCursor_take {T : Type} (left : List T) (limit : Nat) (encodeCursor : T → String) :
    sliceWithCursor (left.take (limit + 1)) limit encodeCursor =
      { items := left.take limit
        hasNextPage := decide (limit < left.length)
        nextCursor := if limit < left.length then (left.take limit).getLast?.map encodeCursor
          else none } := by
  have htake : (left.take (limit + 1)).take limit = left.take limit := by
    rw [List.take_take, Nat.min_eq_left (Nat.le_succ limit)]
  unfold sliceWithCursor
  by_cases hmore : limit < left.length
  · have hfetched : limit < (left.take (limit + 1)).length := by
      rw [List.length_take]
      exact Nat.lt_min.mpr ⟨Nat.lt_succ_self limit, hmore⟩
    simp only [hfetched, hmore, htake, decide_true, if_true]
  · have hall : left.take (limit + 1) = left :=
      List.take_of_length_le (Nat.le_succ_of_le (Nat.le_of_not_lt hmore))
    have hpage : left.take limit = left := List.take_of_length_le (Nat.le_of_not_lt hmore)
    simp only [hall, hpage, hmore, decide_false, if_false, Bool.false_eq_true]

theorem getFeed_of_decode (h : decodeFeedCursorCondition rt cursor = .ok place) (limit : Option Nat) :
    getFeed rt db userId cursor limit =
      .ok (pageOf rt (rest FeedRow.position (db.feedRows userId) place) (limit.getD 20)) := by
  unfold getFeed
  rw [h]
  simp only [bind, Except.bind, pure, Except.pure, sliceWithCursor_take]
  rfl

theorem getFeed_of_not_decode {e : FeedError} (h : decodeFeedCursorCondition rt cursor = .error e)
    (limit : Option Nat) : getFeed rt db userId cursor limit = .error e := by
  unfold getFeed
  rw [h]
  rfl

def PaginatedSocialFeedResult.seen (page : PaginatedSocialFeedResult) :
    List FeedItem × Option String := (page.items, page.pagination.nextCursor)

/-- What was written of the row into a cursor is read as it was written. -/
def Runtime.ReadsBack (rt : Runtime) (r : FeedRow) : Prop :=
  r.cursor rt ≠ "" ∧ rt.parseCursor (r.cursor rt) =
      some (.fields (some (rt.text r.occurredAt)) (some r.activityId.text)) ∧
    rt.isIsoDateString (rt.text r.occurredAt) = true ∧
    rt.timestamptz (rt.text r.occurredAt) = some r.occurredAt

theorem Runtime.ReadsBack.decode {r : FeedRow} (h : rt.ReadsBack r) :
    decodeFeedCursorCondition rt (some (r.cursor rt)) = .ok (some r.position) := by
  obtain ⟨hne, hparse, hiso, htime⟩ := h
  simp only [decodeFeedCursorCondition, hne, hparse, hiso, htime, Uuid.parse_text, if_true, if_false]
  rfl

def placeOf (rt : Runtime) (cursor : String) : Position :=
  match decodeFeedCursorCondition rt (some cursor) with
  | .ok (some place) => place
  | _ => toLex (0, 0)

theorem seen_pageOf_eq (left : List FeedRow) (limit : Nat) : (pageOf rt left limit).seen =
    let page := lookAhead (FeedRow.cursor rt) limit (left.take (limit + 1))
    (page.1.map (item rt), page.2) := by
  by_cases hmore : limit < left.length
  · simp only [PaginatedSocialFeedResult.seen, pageOf, lookAhead_more hmore, hmore, if_true]
  · have hfits := Nat.le_of_not_lt hmore
    simp only [PaginatedSocialFeedResult.seen, pageOf, lookAhead_last hfits, hmore, if_false,
      List.take_of_length_le hfits]

/-- **Following the cursors lists the feed**, each activity once, the latest first. -/
theorem feed_pages_completely {limit : Option Nat} (hlimit : 0 < limit.getD 20)
    (hcursors : ∀ r ∈ db.feedRows userId, rt.ReadsBack r) :
    ∃ items, Lists db userId items ∧ PagesInOrder
      (fun cursor => (getFeed rt db userId cursor limit).map PaginatedSocialFeedResult.seen) items := by
  refine ⟨(descending FeedRow.position (db.feedRows userId)).map (item rt),
    lists_of_perm (descending_perm ..), ?_⟩
  have hplace : ∀ r ∈ db.feedRows userId, placeOf rt (r.cursor rt) = r.position := by
    intro r hr
    rw [placeOf, (hcursors r hr).decode]
  have hpages := pages_map (item rt) (pages_descending (ε := FeedError) hlimit hplace
    (nodup_position_feedRows db userId))
  refine (pages_congr (P := fun cursor => ∀ c ∈ cursor, ∃ r ∈ db.feedRows userId, c = r.cursor rt)
    (by simp) (fun cursor hcursor => ?_) ?_).mpr hpages
  · obtain ⟨place, hdecode, hrest⟩ : ∃ place, decodeFeedCursorCondition rt cursor = .ok place ∧
        rest FeedRow.position (db.feedRows userId) place =
          after (fun c r => decide (r.position < placeOf rt c))
            (descending FeedRow.position (db.feedRows userId)) cursor := by
      cases cursor with
      | none => exact ⟨none, rfl, (rest_none ..).trans after_none.symm⟩
      | some c =>
        obtain ⟨r, hr, rfl⟩ := hcursor c rfl
        refine ⟨_, (hcursors r hr).decode, ?_⟩
        simp only [rest, after, Option.all_some, hplace r hr, past]
        exact descending_filter (nodup_position_feedRows db userId) _
    rw [getFeed_of_decode hdecode, hrest]
    exact congrArg Except.ok (seen_pageOf_eq _ _)
  · rintro cursor items next hanswer c ⟨⟩
    have hnext := congrArg Prod.snd (Except.ok.inj hanswer)
    obtain ⟨r, hr, hc⟩ := cursorOf_of_request (ε := FeedError)
      (congrArg Except.ok (Prod.ext (Eq.refl _) hnext))
    exact ⟨r, mem_descending.mp hr, hc⟩

end Feed

end QuizBackend.Social.Feed
