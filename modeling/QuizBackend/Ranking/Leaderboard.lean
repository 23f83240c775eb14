import QuizBackend.Lib.Async
import QuizBackend.Ranking.PeriodReset
import Mathlib.Data.List.Sort

/-!
# The leaderboard and its cache

`LeaderboardService` answers from Redis and fills it from the database. A page of the leaderboard, a
user's position and the number of participants are stored under keys that end in the period's
version, a counter in Redis that every XP commit increments after it (`bumpAllPeriods`); the XP of
the next rank is stored under a key without one. A miss is computed under a lock
(`getOrSetWithStampedeProtection`), so that one of many readers computes and the others wait.

A read is a program of Redis commands and database queries (`Async`), with `Promise.all` where the
source has it, and anything may happen between two of them. Redis commands succeed. A statement
that fails ends its read, which is then one that is never continued: its lock is left to expire.

Every value carries the number of XP commits in the oldest database state it was computed from
(`asOf`). Nobody stores that number; it says what a reader has been told. Beside it the store keeps,
for each period, the newest commit whose bump has happened (`announced`), and for each version the
newest commit announced when the counter took that value (`level`).

Left out are a user's name and picture, the period's dates in the response, and `limit` and `offset`
checks of the controller. A percentile is in hundredths.
-/

namespace QuizBackend.Ranking.Leaderboard

open Lib Async
open Ranking.Recalculation
open Ranking.PeriodReset (RankHistory RankHistoryRow)

/-! ## Queries (`leaderboard.repository.ts`, `rank-history.repository.ts`) -/

structure Database where
  users : String → Option UserInfo
  ranking : UserRanking
  history : RankHistory

section

variable (db : Database)

section

variable (period : RankingPeriod)

def participants : List (String × Int × Int) :=
  targetUsers db.users db.ranking (db.ranking.rows.map (·.userId)) period

/-- `getLeaderboard`: `ORDER BY xp DESC, created_at ASC LIMIT … OFFSET …`. -/
def getLeaderboard (limit offset : Nat) :
    List RankedUser :=
  let ordered := (participants db period).insertionSort fun a b => rankedAhead b a = false
  ((calculateAllRanksForUsers db.users db.ranking (ordered.map (·.1)) period).drop offset).take
    limit

def getTotalParticipants : Nat :=
  (participants db period).length

def countAhead (userXp : Int) : Nat :=
  db.ranking.rows.countP fun row =>
    userXp < getXp row period && (db.users row.userId).any fun info => info.deletedAt = none

/-- `getNextRankXp`: `RANK()` over `xp DESC, user_id ASC`, and the least XP above the user who has
the rank. -/
def getNextRankXp (currentRank : Nat) : Option Int :=
  if currentRank = 0 then none
  else
    let users := participants db period
    let ranked := users.map fun u =>
      (u.2.1, (users.countP fun v => u.2.1 < v.2.1 ∨ (v.2.1 = u.2.1 ∧ v.1 < u.1)) + 1)
    match ranked.find? (·.2 = currentRank) with
    | none => none
    | some target =>
      ((ranked.filter fun r => r.2 < currentRank ∧ target.1 < r.1).map (·.1)).min?

end

/-- `getLatestRankSnapshots`: the two latest, the later one first. -/
def getLatestRankSnapshots (userId : String) (period : RankingPeriod) :
    List RankHistoryRow :=
  ((db.history.rows.filter fun r => r.userId = userId ∧ r.period = period).insertionSort
    fun a b => b.snapshotDate < a.snapshotDate ∨
      (a.snapshotDate = b.snapshotDate ∧ b.recordedAt ≤ a.recordedAt)).take 2

end

/-! ## Responses -/

structure LeaderboardEntry where
  rank : Nat
  denseRank : Nat
  userId : String
  xp : Int
  isTied : Bool
  isCurrentUser : Bool

/-- `transformLeaderboardEntries`, after an entry with XP `prev`; nobody is the current user. -/
def transformLeaderboardEntries (prev : Option Int) : List RankedUser → List LeaderboardEntry
  | [] => []
  | entry :: rest =>
    { rank := entry.rank, denseRank := entry.denseRank, userId := entry.userId, xp := entry.xp
      isTied := prev = some entry.xp, isCurrentUser := false } ::
      transformLeaderboardEntries (some entry.xp) rest

/-- `calculatePercentile`, in hundredths: `Math.round` rounds halves up. -/
def calculatePercentile (rank totalUsers : Nat) : Int :=
  if rank = 0 ∨ totalUsers = 0 then 0
  else (((totalUsers : Int) - rank) * 20000 + totalUsers) / (2 * totalUsers)

def getPercentileLabel (percentile : Int) : String :=
  if 9900 ≤ percentile then "Top 1%"
  else if 9500 ≤ percentile then "Top 5%"
  else if 9000 ≤ percentile then "Top 10%"
  else if 7500 ≤ percentile then "Top 25%"
  else if 5000 ≤ percentile then "Top Half"
  else "Keep Climbing!"

inductive Trend
  | up
  | down
  | same
  | new

/-- `determineTrendWithSnapshots`, on the previous snapshot. -/
def determineTrend (currentRank : Nat) : Option RankHistoryRow → Trend
  | none => .new
  | some previous =>
    if (currentRank : Int) < previous.rank then .up
    else if previous.rank < currentRank then .down
    else .same

def calculateTrendAmount (currentRank : Nat) (previous : Option RankHistoryRow) : Option Int :=
  previous.map fun snapshot => snapshot.rank - currentRank

structure UserRankPosition where
  rank : Nat
  denseRank : Nat
  percentile : Int
  percentileLabel : String
  xp : Int
  xpToNextRank : Option Int
  nextRankXp : Option Int
  trend : Trend
  trendAmount : Option Int

structure LeaderboardPayload where
  entries : List LeaderboardEntry
  totalParticipants : Nat

structure LeaderboardResponse where
  entries : List LeaderboardEntry
  totalParticipants : Nat
  userPosition : Option UserRankPosition
  hasMore : Bool

/-! ## Keys -/

inductive CacheKey
  | leaderboard (period : RankingPeriod) (limit offset version : Nat)
  | position (userId : String) (period : RankingPeriod) (version : Nat)
  | total (period : RankingPeriod) (version : Nat)
  | nextRankXp (period : RankingPeriod) (rank : Nat)
  deriving DecidableEq

@[reducible] def CacheKey.Value : CacheKey → Type
  | .leaderboard _ _ _ _ => LeaderboardPayload
  | .position _ _ _ => Option UserRankPosition
  | .total _ _ => Nat
  | .nextRankXp _ _ => Option Int

def CacheKey.version? : CacheKey → Option (RankingPeriod × Nat)
  | .leaderboard period _ _ version => some (period, version)
  | .position _ period version => some (period, version)
  | .total period version => some (period, version)
  | .nextRankXp _ _ => none

def leaderboardCacheTtl : Int := 30
def userRankCacheTtl : Int := 10
def totalUsersCacheTtl : Int := 300
def nextRankXpCacheTtlSeconds : Int := 3600
def rankingVersionTtlSeconds : Int := 86400
def lockTtlMs : Int := 5000
def maxRetries : Nat := 10

/-! ## Commands -/

structure Stamped (α : Type) where
  value : α
  asOf : Nat

def Stamped.map {α β : Type} (f : α → β) (x : Stamped α) : Stamped β := ⟨f x.value, x.asOf⟩

inductive Command
  | getVersion (period : RankingPeriod)
  | get (key : CacheKey)
  | set (key : CacheKey) (value : Stamped key.Value) (ttlMs : Int)
  | lock (key : CacheKey)
  | unlock (key : CacheKey)
  | query

@[reducible] def Command.Reply : Command → Type
  | .getVersion _ => Nat
  | .get key => Option (Stamped key.Value)
  | .set _ _ _ => Unit
  | .lock _ => Bool
  | .unlock _ => Unit
  | .query => Stamped Database

abbrev Program (α : Type) := Async Command Command.Reply α

def getVersion (period : RankingPeriod) : Program Nat := send (Command.getVersion period)

section

variable (key : CacheKey)

def get : Program (Option (Stamped key.Value)) := send (Command.get key)

def set (value : Stamped key.Value) (ttlMs : Int) : Program Unit :=
  send (Command.set key value ttlMs)

def lock : Program Bool := send (Command.lock key)

def unlock : Program Unit := send (Command.unlock key)

end

def query {α : Type} (f : Database → α) : Program (Stamped α) := do
  let db ← (send Command.query : Program (Stamped Database))
  return db.map f

/-! ## `redis.service.ts` -/

def awaitOther (key : CacheKey) : Nat → Program (Option (Stamped key.Value))
  | 0 => return none
  | retries + 1 => do
    match ← get key with
    | some cached => return some cached
    | none => awaitOther key retries

def getOrSetWithStampedeProtection (key : CacheKey) (ttlMs : Int)
    (fetcher : Program (Stamped key.Value)) : Program (Stamped key.Value) := do
  match ← get key with
  | some cached => return cached
  | none =>
    if ← lock key then
      let value ← fetcher
      set key value ttlMs
      unlock key
      return value
    else
      match ← awaitOther key maxRetries with
      | some cached => return cached
      | none =>
        let value ← fetcher
        set key value ttlMs
        return value

/-! ## `leaderboard.service.ts` -/

def getCachedTotalParticipants (period : RankingPeriod) : Program (Stamped Nat) := do
  let version ← getVersion period
  getOrSetWithStampedeProtection (.total period version) (totalUsersCacheTtl * 1000)
    (query (getTotalParticipants · period))

/-- `nxp:${period}:${rank}`; there is no version. -/
def getCachedNextRankXp (period : RankingPeriod) (rank : Nat) : Program (Stamped (Option Int)) :=
  getOrSetWithStampedeProtection (.nextRankXp period rank) (nextRankXpCacheTtlSeconds * 1000)
    (query (getNextRankXp · period rank))

/-- `getUserRank`: one statement reads the user's XP, another counts who has more. -/
def getUserRank (userId : String) (period : RankingPeriod) : Program (Stamped (Option Nat)) := do
  let userRow ← query (·.ranking.find? userId)
  match userRow.value with
  | none => return ⟨none, userRow.asOf⟩
  | some row =>
    if getXp row period = 0 then return ⟨none, userRow.asOf⟩
    else
      let ahead ← query (countAhead · period (getXp row period))
      return ⟨some (ahead.value + 1), min userRow.asOf ahead.asOf⟩

def buildPosition (rank : Nat) (xp : Int) (snapshots : List RankHistoryRow) (total : Nat)
    (nextRankXp : Option Int) : UserRankPosition :=
  let percentile := calculatePercentile rank total
  { rank, denseRank := rank, percentile, percentileLabel := getPercentileLabel percentile, xp
    xpToNextRank := nextRankXp.map (· - xp), nextRankXp
    trend := determineTrend rank snapshots[1]?
    trendAmount := calculateTrendAmount rank snapshots[1]? }

def fetchPosition (userId : String) (period : RankingPeriod) :
    Program (Stamped (Option UserRankPosition)) := do
  let ranking ← query (·.ranking.find? userId)
  match ranking.value with
  | none => return ⟨none, ranking.asOf⟩
  | some row =>
    if getXp row period = 0 then return ⟨none, ranking.asOf⟩
    else
      let rank ← getUserRank userId period
      match rank.value with
      | none => return ⟨none, min ranking.asOf rank.asOf⟩
      | some r =>
        let (snapshots, total, nextRankXp) ←
          all (query (getLatestRankSnapshots · userId .allTime))
            (all (getCachedTotalParticipants period) (getCachedNextRankXp period r))
        return ⟨some (buildPosition r (getXp row period) snapshots.value total.value
            nextRankXp.value),
          min (min ranking.asOf rank.asOf) (min snapshots.asOf (min total.asOf nextRankXp.asOf))⟩

def getUserPosition (userId : String) (period : RankingPeriod) :
    Program (Stamped (Option UserRankPosition)) := do
  let version ← getVersion period
  getOrSetWithStampedeProtection (.position userId period version) (userRankCacheTtl * 1000)
    (fetchPosition userId period)

def fetchLeaderboard (period : RankingPeriod) (limit offset : Nat) :
    Program (Stamped LeaderboardPayload) := do
  let entries ← query (getLeaderboard · period limit offset)
  let total ← getCachedTotalParticipants period
  return ⟨⟨transformLeaderboardEntries none entries.value, total.value⟩,
    min entries.asOf total.asOf⟩

def getGlobalLeaderboard (period : RankingPeriod) (limit offset : Nat)
    (currentUserId : Option String) : Program (Stamped LeaderboardResponse) := do
  let version ← getVersion period
  let payload ← getOrSetWithStampedeProtection (.leaderboard period limit offset version)
    (leaderboardCacheTtl * 1000) (fetchLeaderboard period limit offset)
  let respond (userPosition : Option UserRankPosition) : LeaderboardResponse :=
    { entries := payload.value.entries, totalParticipants := payload.value.totalParticipants
      userPosition
      hasMore := offset + payload.value.entries.length < payload.value.totalParticipants }
  match currentUserId with
  | none => return ⟨respond none, payload.asOf⟩
  | some userId =>
    let position ← getUserPosition userId period
    return ⟨respond position.value, min payload.asOf position.asOf⟩

/-! ## Redis and the database -/

structure Counter where
  value : Nat
  expiresAt : Int

structure CacheEntry where
  key : CacheKey
  value : Stamped key.Value
  expiresAt : Int

structure Store where
  now : Int
  db : Database
  commits : Nat
  counters : RankingPeriod → Option Counter
  cache : List CacheEntry
  locks : List (CacheKey × Int)
  announced : RankingPeriod → Nat
  level : RankingPeriod → Nat → Nat

namespace Store

section

variable (st : Store)

/-- The version of a period at `now`: no key reads as `0`. -/
def versionAt (now : Int) (period : RankingPeriod) : Nat :=
  match st.counters period with
  | some counter => if now < counter.expiresAt then counter.value else 0
  | none => 0

def version (period : RankingPeriod) : Nat := st.versionAt st.now period

def lookup (key : CacheKey) : Option (Stamped key.Value) :=
  st.cache.findSome? fun e =>
    if h : e.key = key ∧ st.now < e.expiresAt then some (h.1 ▸ e.value) else none

def perform : (c : Command) → c.Reply × Store
  | .getVersion period => (st.version period, st)
  | .get key => (st.lookup key, st)
  | .set key value ttlMs =>
    ((), { st with
      cache := ⟨key, value, st.now + ttlMs⟩ :: st.cache.filter fun e => e.key ≠ key })
  | .lock key =>
    if st.locks.any fun l => l.1 = key ∧ st.now < l.2 then (false, st)
    else (true, { st with
      locks := (key, st.now + lockTtlMs) :: st.locks.filter fun l => l.1 ≠ key })
  | .unlock key => ((), { st with locks := st.locks.filter fun l => l.1 ≠ key })
  | .query => (⟨st.db, st.commits⟩, st)

/-- `incrementCounterWithInitialTtlSeconds`: `INCR`, and `EXPIRE` when that created the key. -/
def incrementCounter (period : RankingPeriod) : Counter :=
  match st.counters period with
  | some counter =>
    if st.now < counter.expiresAt then { counter with value := counter.value + 1 }
    else ⟨1, st.now + rankingVersionTtlSeconds * 1000⟩
  | none => ⟨1, st.now + rankingVersionTtlSeconds * 1000⟩

def bumpVersion (period : RankingPeriod) (commit : Nat) : Store :=
  let counter := st.incrementCounter period
  let newest := max (st.announced period) commit
  { st with
    counters := fun p => if p = period then some counter else st.counters p
    announced := fun p => if p = period then newest else st.announced p
    level := fun p v => if p = period ∧ v = counter.value then newest else st.level p v }

def Expires (now : Int) (period : RankingPeriod) : Prop :=
  st.versionAt now period ≠ st.version period

end

instance (st : Store) (now : Int) (period : RankingPeriod) : Decidable (st.Expires now period) :=
  inferInstanceAs (Decidable (_ ≠ _))

/-- Time goes on; a counter that expires reads as `0` from then on. -/
def advance (st : Store) (now : Int) : Store :=
  { st with
    now
    level := fun p v => if st.Expires now p ∧ v = 0 then st.announced p else st.level p v }

end Store

/-! ## Reads and steps -/

inductive Request
  | globalLeaderboard (period : RankingPeriod) (limit offset : Nat) (currentUserId : Option String)
  | userPosition (userId : String) (period : RankingPeriod)

def Request.period : Request → RankingPeriod
  | .globalLeaderboard period _ _ _ => period
  | .userPosition _ period => period

inductive Response
  | globalLeaderboard (response : LeaderboardResponse)
  | userPosition (position : Option UserRankPosition)

def Request.program : Request → Program (Stamped Response)
  | .globalLeaderboard period limit offset currentUserId => do
    let response ← getGlobalLeaderboard period limit offset currentUserId
    return response.map .globalLeaderboard
  | .userPosition userId period => do
    let position ← getUserPosition userId period
    return position.map .userPosition

/-- A read in progress, or finished. Kept beside it: the newest commit announced for its period
when it began, the versions it has read, and the level of the version in its position key. -/
structure Read where
  period : RankingPeriod
  program : Program (Stamped Response)
  floor : Nat
  versions : List Nat
  positionLevel : Nat

def Read.note (read : Read) (st : Store) : (c : Command) → c.Reply → Read
  | .getVersion _, version => { read with versions := version :: read.versions }
  | .get (.position _ _ version), _ =>
    { read with positionLevel := max read.positionLevel (st.level read.period version) }
  | _, _ => read

structure State where
  store : Store
  pending : List (Nat × RankingPeriod)
  reads : List Read

def State.initial (db : Database) (now : Int) : State :=
  { store := { now, db, commits := 0, counters := fun _ => none, cache := [], locks := []
               announced := fun _ => 0, level := fun _ _ => 0 }
    pending := [], reads := [] }

inductive Action
  /-- An XP event commits; the bumps of all periods are yet to come. -/
  | commit (event : XpEvent)
  | bump (commit : Nat) (period : RankingPeriod)
  | otherBump (period : RankingPeriod)
  | wait (ms : Nat)
  | begin (request : Request)
  | go (read : Nat) (path : List Bool)

def step (s : State) : Action → Option State
  | .commit e =>
    (xpStep s.store.db.ranking e).map fun t =>
      { s with
        store := { s.store with db := { s.store.db with ranking := t }
                                commits := s.store.commits + 1 }
        pending := s.pending ++ allPeriods.map (s.store.commits + 1, ·) }
  | .bump commit period =>
    if (commit, period) ∈ s.pending then
      some { s with store := s.store.bumpVersion period commit
                    pending := s.pending.erase (commit, period) }
    else none
  | .otherBump period => some { s with store := s.store.bumpVersion period 0 }
  | .wait ms => some { s with store := s.store.advance (s.store.now + ms) }
  | .begin request =>
    some { s with
      reads := s.reads ++ [⟨request.period, request.program, s.store.announced request.period,
        [], 0⟩] }
  | .go i path =>
    match s.reads[i]? with
    | none => none
    | some read =>
      (read.program.next path).map fun x =>
        let result := s.store.perform x.1
        { s with
          store := result.2
          reads := s.reads.set i
            { read.note s.store x.1 result.1 with program := x.2 result.1 } }

end QuizBackend.Ranking.Leaderboard
