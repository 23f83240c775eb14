import QuizBackend.Lib.Run
import QuizBackend.Social.Feed

/-!
# The feed cache (`social-feed-cache.service.ts`)

`getFeed` of `SocialService` puts a cache before the repository. The key of an entry has the user in
it, and a version that is always `1`, but neither the cursor nor the limit: for a minute, whatever page
is asked for, the one that was asked for first is returned. The pages that are asked for are one and
the same only if they have one length and nothing of the feed lies between their cursors; and who
follows the cursors gets nowhere, unless the feed fits on a page
(`feed_cache_transparent_iff`).

Calls follow one another, each at a time of its own, and nothing is written. Redis answers and keeps
an entry until it expires; what else may happen to a read through it is in `Redis/ReadThrough`.
-/

namespace QuizBackend.Social.FeedCache

open Lib Social.Feed FeedRow Feed

/-! ## The cache -/

def socialFeedCacheTtlMs : Int := 60000

/-- What `GetFeedCursorQueryDto` lets through. That a limit is at most 100 does not matter here. -/
structure FeedQuery where
  cursor : Option String
  limit : Option Nat
  limit_pos : ∀ n, limit = some n → 0 < n

def FeedQuery.effectiveLimit (q : FeedQuery) : Nat := q.limit.getD 20

theorem FeedQuery.effectiveLimit_pos (q : FeedQuery) : 0 < q.effectiveLimit := by
  unfold FeedQuery.effectiveLimit
  cases hlimit : q.limit with
  | none => decide
  | some n => exact q.limit_pos n hlimit

def FeedQuery.startingAt (q : FeedQuery) (cursor : Option String) : FeedQuery := { q with cursor }

structure Entry where
  key : String
  value : PaginatedSocialFeedResult
  expiresAt : Int
  userId : String
  query : FeedQuery

abbrev Cache := Table String Entry (·.key)

def feedKey (userId versionHash : String) : String := "feed:" ++ userId ++ ":v" ++ versionHash

def get (cache : Cache) (now : Int) (key : String) : Option Entry :=
  (cache.find? key).filter fun e => now < e.expiresAt

/-- `getOrSetWithStampedeProtection` under the key of the feed, with nobody else computing. What the
fetcher throws is not stored. -/
def getOrSetFeed (cache : Cache) (now : Int) (userId versionHash : String) (query : FeedQuery)
    (fetcher : Except FeedError PaginatedSocialFeedResult) :
    Except FeedError PaginatedSocialFeedResult × Cache :=
  let key := feedKey userId versionHash
  match get cache now key with
  | some e => (.ok e.value, cache)
  | none =>
    match fetcher with
    | .error e => (.error e, cache)
    | .ok value =>
      (.ok value, cache.upsert ⟨key, value, now + socialFeedCacheTtlMs, userId, query⟩)

def SocialService.getFeed (rt : Runtime) (db : Database) (cache : Cache) (now : Int)
    (userId : String) (query : FeedQuery) : Except FeedError PaginatedSocialFeedResult × Cache :=
  getOrSetFeed cache now userId "1" query (Feed.getFeed rt db userId query.cursor query.limit)

/-! ## Calls -/

open SocialService

structure Call where
  userId : String
  query : FeedQuery
  now : Int

structure System where
  cache : Cache
  answers : List (Except FeedError PaginatedSocialFeedResult)

def System.start : System := ⟨.empty _, []⟩

section

variable (rt : Runtime)

section

variable (db : Database)

def step (s : System) (c : Call) : Option System :=
  let (answer, cache) := getFeed rt db s.cache c.now c.userId c.query
  some { cache, answers := s.answers ++ [answer] }

def pageAt (userId : String) (query : FeedQuery) (now : Int)
    (cache : Cache) (cursor : Option String) :
    Except FeedError (List FeedItem × Option String) × Cache :=
  let (answer, cache) := getFeed rt db cache now userId (query.startingAt cursor)
  (answer.map PaginatedSocialFeedResult.seen, cache)

/-- A page at each of these times, from the cursor that came with the one before; nothing is cached
yet. -/
def followFeed (userId : String) (query : FeedQuery)
    (times : List Int) : Option (List FeedItem) :=
  follow (pageAt rt db userId query) times (.empty _) none

/-! ## What should hold -/

/-- The answer is what the query would give now. -/
def Transparent (s : System) (c : Call) (s' : System) : Prop :=
  s'.answers = s.answers ++ [getFeed rt db c.userId c.query.cursor c.query.limit]

/-- Two queries ask for pages of one length, and no row of the feed lies between their cursors. -/
def SamePage (userId : String) (q q' : FeedQuery) : Prop :=
  q.effectiveLimit = q'.effectiveLimit ∧
    match decodeFeedCursorCondition rt q.cursor, decodeFeedCursorCondition rt q'.cursor with
    | .ok place, .ok place' =>
      ∀ r ∈ db.feedRows userId, past place r.position = past place' r.position
    | _, _ => False

def OwnPage (s : System) (c : Call) : Prop :=
  ∀ e, get s.cache c.now (feedKey c.userId "1") = some e →
    SamePage rt db c.userId e.query c.query

end

end

instance (rt : Runtime) (db : Database) (userId : String) (q q' : FeedQuery) :
    Decidable (SamePage rt db userId q q') := by
  unfold SamePage
  have : Decidable (match decodeFeedCursorCondition rt q.cursor,
      decodeFeedCursorCondition rt q'.cursor with
    | .ok place, .ok place' =>
      ∀ r ∈ db.feedRows userId, past place r.position = past place' r.position
    | _, _ => False) := by
    split <;> infer_instance
  infer_instance

instance (rt : Runtime) (db : Database) (s : System) (c : Call) : Decidable (OwnPage rt db s c) :=
  decidableOfFind (get s.cache c.now (feedKey c.userId "1")) fun e =>
    SamePage rt db c.userId e.query c.query

variable {q : FeedQuery} {cache : Cache} {now : Int} {e : Entry}

section Proofs

variable {rt : Runtime} {db : Database}

/-! ## One page or another -/

theorem mem_feedRows_of_head? {userId : String} {place : Option Position} {r : FeedRow}
    (h : (rest FeedRow.position (db.feedRows userId) place).head? = some r) :
    r ∈ db.feedRows userId := List.mem_of_mem_filter (le_of_head? h).1

theorem past_eq_of_pageOf {userId : String} {place place' : Option Position} {size : Nat}
    (hsize : 0 < size)
    (h : pageOf rt (rest position (db.feedRows userId) place) size =
      pageOf rt (rest FeedRow.position (db.feedRows userId) place') size) :
    ∀ r ∈ db.feedRows userId, past place r.position = past place' r.position := by
  have hfirst : ∀ left : List FeedRow,
      ((pageOf rt left size).items.head?.map (·.id)) = left.head?.map fun r => r.activityId.text := by
    intro left
    show (((left.take size).map (item rt)).head?).map (·.id) = _
    rw [List.head?_map, List.head?_take, if_neg (Nat.ne_of_gt hsize), Option.map_map]
    rfl
  have hids := hfirst (rest FeedRow.position (db.feedRows userId) place)
  rw [h, hfirst] at hids
  have hhead : (rest FeedRow.position (db.feedRows userId) place).head? =
      (rest FeedRow.position (db.feedRows userId) place').head? := by
    cases hleft : (rest FeedRow.position (db.feedRows userId) place).head? with
    | none =>
      rw [hleft, Option.map_none] at hids
      exact (Option.map_eq_none_iff.mp hids).symm
    | some r =>
      rw [hleft, Option.map_some] at hids
      obtain ⟨r', hr', hid⟩ := Option.map_eq_some_iff.mp hids
      have hsame : r' = r := List.inj_on_of_nodup_map (nodup_activityId_feedRows db userId)
        (mem_feedRows_of_head? hr') (mem_feedRows_of_head? hleft) (injective_text hid)
      rw [hr', hsame]
  exact fun r hr => past_eq_of_head? hhead hr

theorem getFeed_eq_iff {userId : String} {q' : FeedQuery} {page : PaginatedSocialFeedResult}
    (h : getFeed rt db userId q.cursor q.limit = .ok page) :
    getFeed rt db userId q'.cursor q'.limit = .ok page ↔ SamePage rt db userId q q' := by
  unfold SamePage
  cases hplace : decodeFeedCursorCondition rt q.cursor with
  | error e =>
    rw [getFeed_of_not_decode hplace] at h
    cases h
  | ok place =>
    rw [getFeed_of_decode hplace, Except.ok.injEq] at h
    cases hplace' : decodeFeedCursorCondition rt q'.cursor with
    | error e =>
      rw [getFeed_of_not_decode hplace']
      exact iff_of_false (fun he => by cases he) fun hsame => hsame.2
    | ok place' =>
      rw [getFeed_of_decode hplace', Except.ok.injEq, ← h]
      constructor
      · intro hpage
        have hlimit : q'.limit.getD 20 = q.limit.getD 20 :=
          congrArg (fun p : PaginatedSocialFeedResult => p.pagination.limit) hpage
        rw [hlimit] at hpage
        exact ⟨hlimit.symm, past_eq_of_pageOf q.effectiveLimit_pos hpage.symm⟩
      · rintro ⟨hlimit, hbetween⟩
        rw [rest_congr hbetween]
        exact congrArg (pageOf rt _) hlimit.symm

/-! ## What is cached -/

theorem feedKey_injective {userId userId' versionHash : String}
    (h : feedKey userId versionHash = feedKey userId' versionHash) : userId = userId' := by
  unfold feedKey at h
  rw [String.append_left_inj, String.append_left_inj, String.append_right_inj] at h
  exact h

def Right (rt : Runtime) (db : Database) (s : System) : Prop :=
  ∀ e ∈ s.cache.rows, e.key = feedKey e.userId "1" ∧
    getFeed rt db e.userId e.query.cursor e.query.limit = .ok e.value

theorem get_eq_some {key : String} (h : get cache now key = some e) :
    e ∈ cache.rows ∧ e.key = key := by
  obtain ⟨hfind, -⟩ := Option.filter_eq_some_iff.mp h
  exact ⟨Table.mem_of_find? hfind, Table.key_of_find? hfind⟩

theorem getFeed_hit {userId : String} (h : get cache now (feedKey userId "1") = some e) :
    SocialService.getFeed rt db cache now userId q = (.ok e.value, cache) := by
  simp only [SocialService.getFeed, getOrSetFeed, h]

theorem getFeed_stored {userId : String} {page : PaginatedSocialFeedResult}
    (h : get cache now (feedKey userId "1") = none)
    (hpage : Feed.getFeed rt db userId q.cursor q.limit = .ok page) :
    SocialService.getFeed rt db cache now userId q = (.ok page,
      cache.upsert ⟨feedKey userId "1", page, now + socialFeedCacheTtlMs, userId, q⟩) := by
  simp only [SocialService.getFeed, getOrSetFeed, h, hpage]

theorem getFeed_thrown {userId : String} {e : FeedError}
    (h : get cache now (feedKey userId "1") = none)
    (herror : Feed.getFeed rt db userId q.cursor q.limit = .error e) :
    SocialService.getFeed rt db cache now userId q = (.error e, cache) := by
  simp only [SocialService.getFeed, getOrSetFeed, h, herror]

/-! ## Call after call -/

theorem right_step {s s' : System} {c : Call} (hright : Right rt db s)
    (h : step rt db s c = some s') : Right rt db s' := by
  cases h
  show ∀ e ∈ (getFeed rt db s.cache c.now c.userId c.query).2.rows, _
  cases hcached : get s.cache c.now (feedKey c.userId "1") with
  | some e =>
    rw [getFeed_hit hcached]
    exact hright
  | none =>
    cases hpage : getFeed rt db c.userId c.query.cursor c.query.limit with
    | error e =>
      rw [getFeed_thrown hcached hpage]
      exact hright
    | ok page =>
      rw [getFeed_stored hcached hpage]
      intro e he
      rcases Table.mem_upsert.mp he with rfl | ⟨he, -⟩
      · exact ⟨rfl, hpage⟩
      · exact hright e he

theorem ownPage_iff {s s' : System} {c : Call} (hright : Right rt db s)
    (h : step rt db s c = some s') : OwnPage rt db s c ↔ Transparent rt db s c s' := by
  cases h
  have hanswer : Transparent rt db s c
      ⟨(getFeed rt db s.cache c.now c.userId c.query).2,
        s.answers ++ [(getFeed rt db s.cache c.now c.userId c.query).1]⟩ ↔
      (getFeed rt db s.cache c.now c.userId c.query).1 =
        getFeed rt db c.userId c.query.cursor c.query.limit := by
    unfold Transparent
    rw [List.append_cancel_left_eq, List.cons.injEq, and_iff_left rfl]
  refine Iff.trans ?_ hanswer.symm
  cases hcached : get s.cache c.now (feedKey c.userId "1") with
  | none =>
    refine iff_of_true (fun e he => ?_) ?_
    · rw [hcached] at he
      cases he
    · cases hpage : getFeed rt db c.userId c.query.cursor c.query.limit with
      | error e => rw [getFeed_thrown hcached hpage]
      | ok page => rw [getFeed_stored hcached hpage]
  | some e =>
    obtain ⟨hmem, hkey⟩ := get_eq_some hcached
    obtain ⟨hentry, hasked⟩ := hright e hmem
    have huser : e.userId = c.userId := feedKey_injective (hentry.symm.trans hkey)
    rw [huser] at hasked
    rw [getFeed_hit hcached, eq_comm, getFeed_eq_iff hasked]
    constructor
    · exact fun hown => hown e hcached
    · intro hsame e' he'
      rw [hcached, Option.some.injEq] at he'
      exact he' ▸ hsame

theorem transparent_iff (calls : List Call) :
    EachStep (step rt db) (Transparent rt db) .start calls ↔
      Along (step rt db) (OwnPage rt db) .start calls := by
  have henabled : ∀ s c, ∃ s', step rt db s c = some s' := fun s c => ⟨_, rfl⟩
  obtain ⟨t, ht⟩ := exec_of_enabled henabled .start calls
  refine along_iff_eachStep (I := Right rt db) (fun s c s' hright h => right_step hright h)
    (fun s c s' hright h => ownPage_iff hright h) ht ?_
  exact fun e he => absurd he List.not_mem_nil

/-! ## Cursor after cursor -/

theorem seen_pageOf {left : List FeedRow} {limit : Nat} (h : left.length ≤ limit) :
    (pageOf rt left limit).seen = (left.map (item rt), none) := by
  show ((left.take limit).map _, if _ then _ else _) = _
  rw [List.take_of_length_le h, if_neg (Nat.not_lt_of_le h)]

theorem seen_pageOf_of_lt {left : List FeedRow} {limit : Nat} (hlimit : 0 < limit)
    (h : limit < left.length) :
    ∃ items next, (pageOf rt left limit).seen = (items, some next) := by
  have hpage : left.take limit ≠ [] := by
    intro hnil
    rcases List.take_eq_nil_iff.mp hnil with hzero | hnil
    · exact absurd hlimit (by rw [hzero]; exact Nat.lt_irrefl 0)
    · rw [hnil] at h
      exact Nat.not_lt_zero _ h
  refine ⟨(left.take limit).map (item rt), ((left.take limit).getLast hpage).cursor rt, ?_⟩
  have hnext : (if limit < left.length then (left.take limit).getLast?.map (cursor rt)
      else none) = some (((left.take limit).getLast hpage).cursor rt) := by
    rw [if_pos h, List.getLast?_eq_some_getLast hpage, Option.map_some]
  exact Prod.ext rfl hnext

theorem pageAt_first (userId : String) (q : FeedQuery) (first : Int) :
    pageAt rt db userId q first (.empty _) none =
      (.ok (pageOf rt (descending position (db.feedRows userId)) q.effectiveLimit).seen,
        (Table.empty _).upsert ⟨feedKey userId "1",
          pageOf rt (descending position (db.feedRows userId)) q.effectiveLimit,
          first + socialFeedCacheTtlMs, userId, q.startingAt none⟩) := by
  have hnone : decodeFeedCursorCondition rt none = .ok none := rfl
  have hasked : getFeed rt db userId (q.startingAt none).cursor (q.startingAt none).limit =
      .ok (pageOf rt (descending position (db.feedRows userId)) q.effectiveLimit) := by
    rw [← rest_none]
    exact getFeed_of_decode hnone q.limit
  have hcold : get (.empty _) first (feedKey userId "1") = none := rfl
  unfold pageAt
  rw [getFeed_stored hcold hasked]
  rfl

theorem pageAt_cached {userId : String} (he : cache.find? (feedKey userId "1") = some e)
    (hnow : now < e.expiresAt) (cursor : Option String) :
    pageAt rt db userId q now cache cursor = (.ok e.value.seen, cache) := by
  have hcached : get cache now (feedKey userId "1") = some e :=
    Option.filter_eq_some_iff.mpr ⟨he, decide_eq_true hnow⟩
  unfold pageAt
  rw [getFeed_hit hcached]
  rfl

/-- **Following the cursors ends with the whole feed if it fits on a page, and does not end
otherwise**: every call returns the first page. -/
theorem followFeed_eq (userId : String) (q : FeedQuery) (first : Int) {later : List Int}
    (hlater : ∀ now ∈ later, now < first + socialFeedCacheTtlMs) :
    followFeed rt db userId q (first :: later) =
      if (db.feedRows userId).length ≤ q.effectiveLimit then
        some ((descending FeedRow.position (db.feedRows userId)).map (FeedRow.item rt))
      else none := by
  have hlength := (descending_perm FeedRow.position (db.feedRows userId)).length_eq
  have hfirst : pageAt rt db userId q first (.empty _) none = _ := pageAt_first userId q first
  unfold followFeed
  by_cases hfits : (db.feedRows userId).length ≤ q.effectiveLimit
  · rw [if_pos hfits]
    rw [← hlength] at hfits
    rw [seen_pageOf hfits] at hfirst
    exact follow_last hfirst
  · rw [if_neg hfits]
    rw [← hlength] at hfits
    obtain ⟨items, next, hseen⟩ : ∃ items next,
        (pageOf rt (descending position (db.feedRows userId)) q.effectiveLimit).seen =
          (items, some next) :=
      seen_pageOf_of_lt q.effectiveLimit_pos (Nat.lt_of_not_le hfits)
    rw [hseen] at hfirst
    have hstuck : ∀ (now : Int) (cache : Cache) (cursor : Option String),
        now < first + socialFeedCacheTtlMs →
        (∃ e, cache.find? (feedKey userId "1") = some e ∧ e.value.seen = (items, some next) ∧
          e.expiresAt = first + socialFeedCacheTtlMs) →
        ∃ items' next' cache', pageAt rt db userId q now cache cursor =
            (.ok (items', some next'), cache') ∧
          ∃ e, cache'.find? (feedKey userId "1") = some e ∧ e.value.seen = (items, some next) ∧
            e.expiresAt = first + socialFeedCacheTtlMs := by
      rintro now cache cursor hnow ⟨e, he, hvalue, hexpires⟩
      refine ⟨items, next, cache, ?_, e, he, hvalue, hexpires⟩
      rw [pageAt_cached he (hexpires ▸ hnow), hvalue]
    rw [follow_next hfirst, follow_eq_none hstuck hlater ?_ (some next), Option.map_none]
    exact ⟨_, by rw [Table.find?_upsert, if_pos rfl], hseen, rfl⟩

/-- **When the feed cache is transparent.** -/
theorem feed_cache_transparent_iff (rt : Runtime) (db : Database) :
    (∀ calls, EachStep (step rt db) (Transparent rt db) .start calls ↔
      Along (step rt db) (OwnPage rt db) .start calls) ∧
    ∀ userId q first later, (∀ now ∈ later, now < first + socialFeedCacheTtlMs) →
      ((∃ items, followFeed rt db userId q (first :: later) = some items ∧ Lists db userId items) ↔
        (db.feedRows userId).length ≤ q.effectiveLimit) := by
  refine ⟨transparent_iff, fun userId q first later hlater => ?_⟩
  rw [followFeed_eq userId q first hlater]
  split
  · next hfits =>
    refine iff_of_true ⟨_, rfl, ?_⟩ hfits
    exact lists_of_perm (descending_perm FeedRow.position (db.feedRows userId))
  · next hmore =>
    refine iff_of_false ?_ hmore
    rintro ⟨items, hitems, -⟩
    cases hitems

end Proofs

/-! ## Two activities -/

structure Moment where
  occurredAt : Int
  text : String
  activityId : String
  cursor : String

def moments : List Moment :=
  [⟨1780999200000000, "2026-06-09 10:00:00+00", "00000000-0000-0000-0000-000000000001",
    "eyJvY2N1cnJlZEF0IjoiMjAyNi0wNi0wOSAxMDowMDowMCswMCIsImFjdGl2aXR5SWQiOiIwMDAwMDAwMC0wMDAwLTAwM" ++
      "DAtMDAwMC0wMDAwMDAwMDAwMDEifQ"⟩,
    ⟨1781002800000000, "2026-06-09 11:00:00+00", "00000000-0000-0000-0000-000000000002",
    "eyJvY2N1cnJlZEF0IjoiMjAyNi0wNi0wOSAxMTowMDowMCswMCIsImFjdGl2aXR5SWQiOiIwMDAwMDAwMC0wMDAwLTAwM" ++
      "DAtMDAwMC0wMDAwMDAwMDAwMDIifQ"⟩]

def runtime : Runtime where
  parseCursor cursor := (moments.find? (·.cursor = cursor)).map fun m =>
    .fields (some m.text) (some m.activityId)
  encodeBase64JsonCursor occurredAt activityId :=
    ((moments.find? fun m => m.text = occurredAt ∧ m.activityId = activityId).map (·.cursor)).getD ""
  isIsoDateString text := moments.any (·.text = text)
  timestamptz text := (moments.find? (·.text = text)).map (·.occurredAt)
  text occurredAt := ((moments.find? (·.occurredAt = occurredAt)).map (·.text)).getD ""

def database : Database where
  friendships := .empty _ _
  follows := ⟨[⟨"w", "ada", "bob", 0, none⟩], by decide, by decide⟩
  blocks := .empty _ _
  users := ⟨[⟨"ada", "Ada", none⟩, ⟨"bob", "Bob", none⟩], by decide⟩
  userProfiles := .empty _
  activities := ⟨[⟨1, "bob", .instanceJoined, "", 1780999200000000⟩,
    ⟨2, "bob", .instanceCompleted, "", 1781002800000000⟩], by decide⟩

/-- One on a page. -/
theorem feed_pages_completely_singly : ∃ items, Lists database "ada" items ∧ PagesInOrder
    (fun cursor => (getFeed runtime database "ada" cursor (some 1)).map PaginatedSocialFeedResult.seen)
    items := by
  refine feed_pages_completely (by decide) ?_
  simp only [Runtime.ReadsBack]
  decide +kernel

def single (cursor : Option String) : FeedQuery where
  cursor
  limit := some 1
  limit_pos _ h := Option.some.inj h ▸ Nat.one_pos

def usual (cursor : Option String) : FeedQuery where
  cursor
  limit := none
  limit_pos _ h := by cases h

def nextCursor : Option String := moments.getLast?.map (·.cursor)

/-- A page that holds them both is asked for twice within a minute; then what is past the later one
is. -/
theorem feed_cache_transparent_on_one_page :
    EachStep (step runtime database) (Transparent runtime database) .start
        [⟨"ada", usual none, 0⟩, ⟨"ada", usual (some ""), 59999⟩,
          ⟨"ada", usual nextCursor, 60000⟩] ∧
      ∃ items, followFeed runtime database "ada" (usual none) [0, 1000] = some items ∧
        Lists database "ada" items :=
  ⟨((feed_cache_transparent_iff runtime database).1 _).mpr (by decide +kernel),
    ((feed_cache_transparent_iff runtime database).2 "ada" (usual none) 0 [1000]
      (by decide)).mpr (by decide +kernel)⟩

/-- On pages of one, the second call returns the first page again, and so do all that follow. -/
theorem feed_cache_repeats :
    ¬ EachStep (step runtime database) (Transparent runtime database) .start
        [⟨"ada", single none, 0⟩, ⟨"ada", single nextCursor, 1000⟩] ∧
      followFeed runtime database "ada" (single none) [0, 1000, 2000] = none := by
  refine ⟨fun h => ?_, by decide +kernel⟩
  obtain ⟨m, t, hanswers, -, hlast⟩ := h.read [⟨"ada", single none, 0⟩]
    ⟨"ada", single nextCursor, 1000⟩ (List.prefix_refl _) (fun _ => ()) ()
    (fun t => t.answers.getLast?) (some (Feed.getFeed runtime database "ada" none (some 1)))
    (by decide +kernel) (by decide +kernel)
  have hanswers : t.answers = _ := hanswers
  rw [hanswers, List.getLast?_concat] at hlast
  exact absurd hlast (by decide +kernel)

end QuizBackend.Social.FeedCache
