import QuizBackend.Ranking.Xp

/-!
# The rank recalculation queue

An XP ingestion is one transaction: it updates the user's row of `user_ranking`, which it keeps
locked to its end, and enqueues a work item per period with
`INSERT … ON CONFLICT (user_id, period) DO NOTHING`. A run of `processDirtyRankings` reads a page of
work items, reads the users' XP and is to write their ranks period by period, and then deletes the
items it has read, by id, in a transaction that also clears `is_dirty`.

The writing never happens. `batchUpdateRanks` first lowers the users' peak ranks, and PostgreSQL
cannot parse that statement (`batchUpdatePeakRanks`): a period with a user to rank throws the run
out, with its items left where they are. What gets to the deletion is a run whose users have all
dropped out of every ranking, such as deleted accounts.

The queue is meant to say: a user whose XP has changed since a run last read it has a work item
(`State.Requested`). The deletion comes long after the XP was read, and until then the item is in
the way of every new one for its pair — so an ingestion that commits in between is not queued at
all. `requested_iff` says that this, and its variant in which the ingestion commits after the item
that swallowed its enqueue is gone, are the only ways to lose a request.

Statements are atomic and transactions are read committed:

* an `INSERT … ON CONFLICT DO NOTHING` looks at committed rows, and waits for a transaction that is
  about to delete the row in its way;
* a write to a row of `user_ranking` waits for an ingestion that has it locked, so one user has at
  most one ingestion open;
* the scheduler's advisory lock lets one run go on at a time.

Nobody sees an ingestion's rows before it commits, so they are added then.
-/

namespace QuizBackend.Ranking.Recalculation

open Lib Table

/-! ## Rows -/

inductive RankingPeriod
  | daily
  | weekly
  | monthly
  | allTime
  deriving DecidableEq

def allPeriods : List RankingPeriod := [.allTime, .weekly, .monthly, .daily]

theorem mem_allPeriods (p : RankingPeriod) : p ∈ allPeriods := by
  cases p <;> decide

structure WorkItem where
  workItemId : Nat
  userId : String
  period : RankingPeriod
  enqueuedAt : Int
  deriving DecidableEq

/-- What the unique index of the queue is on. -/
def WorkItem.pair (w : WorkItem) : String × RankingPeriod := (w.userId, w.period)

abbrev WorkItems := Table (String × RankingPeriod) WorkItem WorkItem.pair

structure UserInfo where
  createdAt : Int
  deletedAt : Option Int

/-! ## Ranks -/

def getXp (row : UserRankingRow) : RankingPeriod → Int
  | .daily => row.dailyXp
  | .weekly => row.weeklyXp
  | .monthly => row.monthlyXp
  | .allTime => row.allTimeXp

/-- A row of the ranking queries, as their callers read it. -/
structure RankedUser where
  userId : String
  xp : Int
  rank : Nat
  denseRank : Nat
  deriving DecidableEq

/-- `target_users`: those of the given users with XP who are not deleted, with the columns the
window functions order by. -/
def targetUsers (users : String → Option UserInfo) (t : UserRanking) (userIds : List String)
    (period : RankingPeriod) : List (String × Int × Int) :=
  userIds.filterMap fun userId =>
    match t.find? userId, users userId with
    | some row, some info =>
      if 0 < getXp row period ∧ info.deletedAt = none then
        some (userId, getXp row period, info.createdAt)
      else none
    | _, _ => none

/-- `ORDER BY xp DESC, created_at ASC` puts the first before the second. -/
def rankedAhead (a b : String × Int × Int) : Bool :=
  b.2.1 < a.2.1 || (a.2.1 = b.2.1 && a.2.2 < b.2.2)

/-- `calculateAllRanksForUsers`; `RANK()` and `DENSE_RANK()` over the target users. -/
def calculateAllRanksForUsers (users : String → Option UserInfo) (t : UserRanking)
    (userIds : List String) (period : RankingPeriod) : List RankedUser :=
  let targets := targetUsers users t userIds period
  targets.map fun u =>
    let ahead := targets.filter (rankedAhead · u)
    { userId := u.1, xp := u.2.1, rank := ahead.length + 1
      denseRank := (ahead.map (·.2)).eraseDups.length + 1 }

/-! ## Peak ranks -/

/-- The peak columns of `user_ranking`. -/
structure PeakRow where
  userId : String
  peakAllTimeRank : Option Int
  peakWeeklyRank : Option Int
  peakMonthlyRank : Option Int
  peakDailyRank : Option Int

abbrev PeakTable := Table String PeakRow (·.userId)

def PeakRow.peak (row : PeakRow) : RankingPeriod → Option Int
  | .daily => row.peakDailyRank
  | .weekly => row.peakWeeklyRank
  | .monthly => row.peakMonthlyRank
  | .allTime => row.peakAllTimeRank

structure RankUpdate where
  userId : String
  period : RankingPeriod
  rank : Int

structure PeakResult where
  userId : String
  period : RankingPeriod
  previousPeakRank : Option Int

/-- The rows of a batch of updates, with the table after it, or the error it is refused with. The
one statement begins by comparing `ARRAY['all_time', 'weekly', 'monthly', 'daily'][1]`. PostgreSQL
subscripts columns, parameters and what stands in parentheses; an array constructor is none of
these, so the parser rejects the statement before a row is read. -/
def batchUpdatePeakRanks (t : PeakTable) (updates : List RankUpdate) :
    Except String (List PeakResult × PeakTable) :=
  if updates.isEmpty then .ok ([], t)
  else .error "syntax error at or near \"[\""

/-- The peaks of period `p` are the minima of what was there and the new ranks, all other peaks are
as before, and the results tell what was there. -/
structure PeaksImprove (t t' : PeakTable) (updates : List RankUpdate) (p : RankingPeriod)
    (results : List PeakResult) : Prop where
  listed : ∀ u ∈ updates, ∀ row, t.find? u.userId = some row →
    (t'.find? u.userId).map (·.peak p) = some (some ((row.peak p).elim u.rank (min u.rank)))
  others : ∀ u ∈ updates, ∀ q, q ≠ p →
    (t'.find? u.userId).map (·.peak q) = (t.find? u.userId).map (·.peak q)
  unlisted : ∀ userId, userId ∉ updates.map (·.userId) →
    (t'.find? userId).map PeakRow.peak = (t.find? userId).map PeakRow.peak
  reported : results = updates.map fun u =>
    { userId := u.userId, period := u.period
      previousPeakRank := (t.find? u.userId).bind (·.peak p) }

theorem batchUpdatePeakRanks_ok_iff (t t' : PeakTable) (updates : List RankUpdate)
    (results : List PeakResult) :
    batchUpdatePeakRanks t updates = .ok (results, t') ↔
      updates = [] ∧ results = [] ∧ t' = t := by
  unfold batchUpdatePeakRanks
  cases updates with
  | nil =>
    rw [List.isEmpty_nil, if_pos rfl, Except.ok.injEq, Prod.mk.injEq, and_iff_right rfl]
    exact and_congr eq_comm eq_comm
  | cons u updates =>
    refine iff_of_false ?_ (fun h => by cases h.1)
    rw [if_neg (by simp)]
    intro h
    cases h

/-- **No batch improves a peak.** Whatever the table and the updates, a batch that has any does not
do what it is for: it is refused. -/
theorem peaks_never_improve (t : PeakTable) (updates : List RankUpdate) (p : RankingPeriod)
    (hne : updates ≠ []) :
    ¬ ∃ results t', batchUpdatePeakRanks t updates = .ok (results, t') ∧
      PeaksImprove t t' updates p results := by
  rintro ⟨results, t', hok, -⟩
  exact hne ((batchUpdatePeakRanks_ok_iff t t' updates results).mp hok).1

def fifthThisWeek : PeakTable :=
  { rows :=
      [{ userId := "01900000-0000-7000-8000-000000000001"
         peakAllTimeRank := some 9
         peakWeeklyRank := some 5
         peakMonthlyRank := none
         peakDailyRank := none }]
    nodup := by decide }

def secondThisWeek : List RankUpdate :=
  [{ userId := "01900000-0000-7000-8000-000000000001", period := .weekly, rank := 2 }]

theorem peaks_unimproved_fifthThisWeek :
    ¬ ∃ results t', batchUpdatePeakRanks fifthThisWeek secondThisWeek = .ok (results, t') ∧
      PeaksImprove fifthThisWeek t' secondThisWeek .weekly results :=
  peaks_never_improve fifthThisWeek secondThisWeek .weekly (by decide)

/-- One update of one user, for one period; the call rejects, and the weekly peak stays at 5. -/
theorem second_place_is_refused :
    ¬ ∀ (t : PeakTable) (updates : List RankUpdate) (p : RankingPeriod), updates ≠ [] →
      (updates.map (·.userId)).Nodup → (∀ u ∈ updates, u.period = p) →
      ∃ results t', batchUpdatePeakRanks t updates = .ok (results, t') ∧
        PeaksImprove t t' updates p results := by
  intro hall
  obtain ⟨results, t', hok, -⟩ := hall fifthThisWeek secondThisWeek .weekly
    (by decide) (by decide) (by decide)
  cases hok

/-! ## The two parties -/

/-- What the enqueue of an ingestion did: the periods it inserts an item for, and the ids of the
items that were in the way for the others. -/
structure Enqueued where
  inserted : List RankingPeriod
  swallowed : List (RankingPeriod × Nat)

/-- An open transaction of `applyXpEvent`; `enqueued` once its enqueue has run. -/
structure Ingestion where
  event : XpEvent
  enqueued : Option Enqueued

def Ingestion.userId (i : Ingestion) : String := i.event.userId

/-- `_enqueueRecalculationCore` for one user: `INSERT … ON CONFLICT DO NOTHING`. -/
def enqueueRecalculation (items : WorkItems) (userId : String) : Enqueued :=
  { inserted := allPeriods.filter fun p => items.find? (userId, p) = none
    swallowed := allPeriods.filterMap fun p =>
      (items.find? (userId, p)).map fun w => (p, w.workItemId) }

/-- The rows of the `INSERT`, with ids drawn from `n` on. -/
def newItems (userId : String) (enqueuedAt : Int) : Nat → List RankingPeriod → List WorkItem
  | _, [] => []
  | n, p :: ps => ⟨n, userId, p, enqueuedAt⟩ :: newItems userId enqueuedAt (n + 1) ps

/-- Where a run of `processDirtyRankings` is, with the items it has read and the periods left. -/
inductive RunPoint
  | idle
  | recalculate (items : List WorkItem) (left : List (RankingPeriod × List String))
  | marked (items : List WorkItem) (period : RankingPeriod) (userIds : List String)
      (left : List (RankingPeriod × List String))
  | ranked (items : List WorkItem) (period : RankingPeriod) (results : List RankedUser)
      (left : List (RankingPeriod × List String))
  | deleted (items : List WorkItem)
  | clearing (items : List WorkItem) (userIds : List String)

def RunPoint.items : RunPoint → List WorkItem
  | .idle => []
  | .recalculate items _ => items
  | .marked items _ _ _ => items
  | .ranked items _ _ _ => items
  | .deleted items => items
  | .clearing items _ => items

/-- The items of a deletion that is not committed yet. -/
def RunPoint.deleting : RunPoint → List WorkItem
  | .deleted items => items
  | .clearing items _ => items
  | _ => []

/-- The items that the next statement of the run commits the deletion of. -/
def RunPoint.finishes : RunPoint → Option (List WorkItem)
  | .clearing items _ => some items
  | _ => none

/-- The `Map` from periods to users, in the order of their first items. -/
def byPeriod (items : List WorkItem) : List (RankingPeriod × List String) :=
  (items.map (·.period)).eraseDups.map fun p =>
    (p, ((items.filter (·.period = p)).map (·.userId)).eraseDups)

/-- A page of `ORDER BY enqueued_at LIMIT limit`; items of one transaction share their time, and
the order among them is open. -/
def IsPage (limit : Nat) (items page : List WorkItem) : Prop :=
  page.Nodup ∧ (∀ w ∈ page, w ∈ items) ∧ page.length = min limit items.length ∧
    page.Pairwise (·.enqueuedAt ≤ ·.enqueuedAt) ∧
    ∀ w ∈ page, ∀ x ∈ items, x ∉ page → w.enqueuedAt ≤ x.enqueuedAt

instance (limit : Nat) (items page : List WorkItem) : Decidable (IsPage limit items page) :=
  inferInstanceAs (Decidable (_ ∧ _))

/-- `unread` lists the pairs whose user has had an ingestion committed since a run last read its XP
for the period. -/
structure State where
  ranking : UserRanking
  peaks : PeakTable
  items : WorkItems
  nextItem : Nat
  ingestions : Table String Ingestion Ingestion.userId
  run : RunPoint
  unread : List (String × RankingPeriod)

def State.initial (ranking : UserRanking) (peaks : PeakTable) : State :=
  { ranking, peaks, items := empty _, nextItem := 0, ingestions := empty _
    run := .idle, unread := [] }

inductive Action
  | ingest (event : XpEvent)
  | enqueue (userId : String)
  | commit (userId : String)
  | abort (userId : String)
  | processDirtyRankings (page : List WorkItem)
  | next
  | fail

/-! ## Steps -/

/-- No ingestion has the row of one of the users locked. -/
def State.unlocked (s : State) (userIds : List String) : Bool :=
  userIds.all fun u => (s.ingestions.find? u).isNone

def setEnqueued (q : Enqueued) (i : Ingestion) : Ingestion := { i with enqueued := some q }

theorem setEnqueued_userId (q : Enqueued) (i : Ingestion) :
    (setEnqueued q i).userId = i.userId := rfl

def setDirty (dirty : Bool) (userIds : List String) (row : UserRankingRow) : UserRankingRow :=
  if row.userId ∈ userIds then { row with isDirty := dirty } else row

theorem setDirty_userId (dirty : Bool) (userIds : List String) (row : UserRankingRow) :
    (setDirty dirty userIds row).userId = row.userId := by
  unfold setDirty
  split <;> rfl

def rankUpdates (period : RankingPeriod) (results : List RankedUser) : List RankUpdate :=
  results.map fun r => { userId := r.userId, period, rank := r.rank }

/-- The queue without the run's items. -/
def State.remaining (s : State) (items : List WorkItem) : WorkItems :=
  s.items.deleteWhere fun w => w.workItemId ∈ items.map (·.workItemId)

/-- `users_to_clear`: the run's users without a pending item, as the last transaction sees them. -/
def State.usersToClear (s : State) (items : List WorkItem) : List String :=
  (items.map (·.userId)).eraseDups.filter fun u =>
    !(s.remaining items).rows.any (·.userId = u)

/-- A statement of an ingestion. -/
def ingestionStep (s : State) : Action → Option State
  | .ingest event =>
    -- `updateXpInTx`; on an integer out of range the transaction is gone
    match xpStep s.ranking event with
    | none => none
    | some _ => (s.ingestions.insert? ⟨event, none⟩).map fun is => { s with ingestions := is }
  | .enqueue userId =>
    match s.ingestions.find? userId with
    | some ⟨_, none⟩ =>
      if s.run.deleting.any (·.userId = userId) then none
      else
        some
          { s with
            ingestions := s.ingestions.modify userId
              (setEnqueued (enqueueRecalculation s.items userId)) (setEnqueued_userId _) }
    | _ => none
  | .commit userId =>
    match s.ingestions.find? userId with
    | some ⟨event, some q⟩ =>
      match xpStep s.ranking event,
        s.items.insertAll? (newItems userId event.now s.nextItem q.inserted) with
      | some ranking, some items =>
        some
          { s with
            ranking, items
            nextItem := s.nextItem + q.inserted.length
            ingestions := s.ingestions.erase userId
            unread := allPeriods.map (userId, ·) ++ s.unread }
      | _, _ => none
    | _ => none
  | .abort userId => some { s with ingestions := s.ingestions.erase userId }
  | _ => none

/-- The next statement of the run. -/
def runNext (users : String → Option UserInfo) (s : State) : Option State :=
  match s.run with
  | .idle => none
  | .recalculate items ((period, userIds) :: left) =>
    if s.unlocked userIds then
      some
        { s with
          ranking := s.ranking.update (setDirty true userIds) (setDirty_userId true userIds)
          run := .marked items period userIds left }
    else none
  | .recalculate items [] => some { s with run := .deleted items }
  | .marked items period userIds left =>
    some
      { s with
        unread := s.unread.filter fun q => ¬ (q.1 ∈ userIds ∧ q.2 = period)
        run := .ranked items period (calculateAllRanksForUsers users s.ranking userIds period)
          left }
  | .ranked items period results left =>
    -- `batchUpdateRanks` returns at once when there is nobody to rank, and throws otherwise
    match batchUpdatePeakRanks s.peaks (rankUpdates period results) with
    | .ok _ => some { s with run := .recalculate items left }
    | .error _ => some { s with run := .idle }
  | .deleted items => some { s with run := .clearing items (s.usersToClear items) }
  | .clearing items userIds =>
    if s.unlocked userIds then
      some
        { s with
          items := s.remaining items
          ranking := s.ranking.update (setDirty false userIds) (setDirty_userId false userIds)
          run := .idle }
    else none

/-- One statement of either party. A run that fails leaves what it has written, and rolls back its
last transaction. -/
def step (users : String → Option UserInfo) (limit : Nat) (s : State) (a : Action) :
    Option State :=
  match a with
  | .processDirtyRankings page =>
    match s.run with
    | .idle =>
      if IsPage limit s.items.rows page then
        if page.isEmpty then some s else some { s with run := .recalculate page (byPeriod page) }
      else none
    | _ => none
  | .next => runNext users s
  | .fail => some { s with run := .idle }
  | a => ingestionStep s a

/-! ## The rows of one enqueue -/

variable {u : String} {p : RankingPeriod} {ps : List RankingPeriod}
  {users : String → Option UserInfo} {a : Action} {limit : Nat} {items : List WorkItem}

theorem mem_inserted_iff {items : WorkItems} :
    p ∈ (enqueueRecalculation items u).inserted ↔ items.find? (u, p) = none := by
  simp [enqueueRecalculation, mem_allPeriods]

theorem mem_swallowed_iff {items : WorkItems} {id : Nat} :
    (p, id) ∈ (enqueueRecalculation items u).swallowed ↔
      ∃ w, items.find? (u, p) = some w ∧ w.workItemId = id := by
  simp only [enqueueRecalculation, List.mem_filterMap, Option.map_eq_some_iff, Prod.mk.injEq]
  constructor
  · rintro ⟨p', -, w, hw, rfl, rfl⟩
    exact ⟨w, hw, rfl⟩
  · rintro ⟨w, hw, rfl⟩
    exact ⟨p, mem_allPeriods p, w, hw, rfl, rfl⟩

theorem of_mem_newItems {at_ : Int} {n : Nat} {w : WorkItem} (h : w ∈ newItems u at_ n ps) :
    w.userId = u ∧ w.period ∈ ps ∧ n ≤ w.workItemId ∧ w.workItemId < n + ps.length := by
  induction ps generalizing n with
  | nil => cases h
  | cons p ps ih =>
    rcases List.mem_cons.mp h with rfl | h
    · exact ⟨rfl, List.mem_cons_self, Nat.le_refl n,
        Nat.lt_add_of_pos_right (Nat.succ_pos ps.length)⟩
    · obtain ⟨hu, hp, hle, hlt⟩ := ih h
      refine ⟨hu, List.mem_cons_of_mem p hp, by omega, ?_⟩
      rw [List.length_cons]
      omega

theorem exists_mem_newItems (u : String) (at_ : Int) (n : Nat) (hp : p ∈ ps) :
    ∃ w ∈ newItems u at_ n ps, w.pair = (u, p) := by
  induction ps generalizing n with
  | nil => cases hp
  | cons p' ps ih =>
    rcases List.mem_cons.mp hp with rfl | hp
    · exact ⟨⟨n, u, p, at_⟩, List.mem_cons_self, rfl⟩
    · obtain ⟨w, hw, hpair⟩ := ih (n + 1) hp
      exact ⟨w, List.mem_cons_of_mem _ hw, hpair⟩

theorem newItems_ids {at_ : Int} {n : Nat} {w x : WorkItem} (hw : w ∈ newItems u at_ n ps)
    (hx : x ∈ newItems u at_ n ps) (hid : w.workItemId = x.workItemId) : w = x := by
  induction ps generalizing n with
  | nil => cases hw
  | cons p ps ih =>
    rcases List.mem_cons.mp hw with rfl | hw <;> rcases List.mem_cons.mp hx with rfl | hx
    · rfl
    · have hle := (of_mem_newItems hx).2.2.1
      simp only at hid
      omega
    · have hle := (of_mem_newItems hw).2.2.1
      simp only at hid
      omega
    · exact ih hw hx

/-! ## What a step does to the queue -/

/-- What the queue, the ingestions and `unread` are after a step of each kind. -/
inductive Effect (s s' : State) : Action → Prop
  | ingest (event : XpEvent)
      (hingestions : s'.ingestions.rows = s.ingestions.rows ++ [⟨event, none⟩])
      (hitems : s'.items = s.items) (hnext : s'.nextItem = s.nextItem) (hrun : s'.run = s.run)
      (hunread : s'.unread = s.unread) : Effect s s' (.ingest event)
  | enqueue (userId : String)
      (hingestions : s'.ingestions = s.ingestions.modify userId
        (setEnqueued (enqueueRecalculation s.items userId)) (setEnqueued_userId _))
      (hitems : s'.items = s.items) (hnext : s'.nextItem = s.nextItem) (hrun : s'.run = s.run)
      (hunread : s'.unread = s.unread) : Effect s s' (.enqueue userId)
  | commit (userId : String) (event : XpEvent) (q : Enqueued)
      (hfound : s.ingestions.find? userId = some ⟨event, some q⟩)
      (hingestions : s'.ingestions = s.ingestions.erase userId)
      (hitems : s'.items.rows = s.items.rows ++ newItems userId event.now s.nextItem q.inserted)
      (hnext : s'.nextItem = s.nextItem + q.inserted.length) (hrun : s'.run = s.run)
      (hunread : s'.unread = allPeriods.map (userId, ·) ++ s.unread) : Effect s s' (.commit userId)
  | abort (userId : String) (hingestions : s'.ingestions = s.ingestions.erase userId)
      (hitems : s'.items = s.items) (hnext : s'.nextItem = s.nextItem) (hrun : s'.run = s.run)
      (hunread : s'.unread = s.unread) : Effect s s' (.abort userId)
  | start (page : List WorkItem) (hingestions : s'.ingestions = s.ingestions)
      (hitems : s'.items = s.items) (hnext : s'.nextItem = s.nextItem)
      (hpage : ∀ w ∈ s'.run.items, w ∈ s.items.rows)
      (hunread : s'.unread = s.unread) : Effect s s' (.processDirtyRankings page)
  /-- A statement of the run before its last one, or the end of a run that throws; reading XP may
  only shorten `unread`. -/
  | move (hpoint : s.run.finishes = none) (hingestions : s'.ingestions = s.ingestions)
      (hitems : s'.items = s.items) (hnext : s'.nextItem = s.nextItem)
      (hrun : ∀ w ∈ s'.run.items, w ∈ s.run.items) (hunread : ∀ q ∈ s'.unread, q ∈ s.unread) :
      Effect s s' .next
  | finish (items : List WorkItem) (hpoint : s.run.finishes = some items)
      (hingestions : s'.ingestions = s.ingestions) (hitems : s'.items = s.remaining items)
      (hnext : s'.nextItem = s.nextItem) (hrun : s'.run = .idle)
      (hunread : s'.unread = s.unread) : Effect s s' .next
  | fail (hingestions : s'.ingestions = s.ingestions) (hitems : s'.items = s.items)
      (hnext : s'.nextItem = s.nextItem) (hrun : s'.run = .idle)
      (hunread : s'.unread = s.unread) : Effect s s' .fail

theorem runNext_effect {s s' : State} (h : runNext users s = some s') :
    Effect s s' .next := by
  unfold runNext at h
  split at h
  · cases h
  next hp =>
    split at h
    · cases h
      exact .move (by rw [hp]; rfl) rfl rfl rfl (by rw [hp]; exact fun w hw => hw) fun q hq => hq
    · cases h
  next hp =>
    cases h
    exact .move (by rw [hp]; rfl) rfl rfl rfl (by rw [hp]; exact fun w hw => hw) fun q hq => hq
  next hp =>
    cases h
    exact .move (by rw [hp]; rfl) rfl rfl rfl (by rw [hp]; exact fun w hw => hw) fun q hq =>
      List.mem_of_mem_filter hq
  next hp =>
    split at h
    · cases h
      exact .move (by rw [hp]; rfl) rfl rfl rfl (by rw [hp]; exact fun w hw => hw)
        fun q hq => hq
    · cases h
      exact .move (by rw [hp]; rfl) rfl rfl rfl (fun w hw => by cases hw) fun q hq => hq
  next hp =>
    cases h
    exact .move (by rw [hp]; rfl) rfl rfl rfl (by rw [hp]; exact fun w hw => hw) fun q hq => hq
  next items userIds hp =>
    split at h
    · cases h
      exact .finish items (by rw [hp]; rfl) rfl rfl rfl rfl rfl
    · cases h

theorem ingestionStep_effect {s s' : State} (h : ingestionStep s a = some s') : Effect s s' a := by
  unfold ingestionStep at h
  split at h
  next event =>
    split at h
    · cases h
    · obtain ⟨is, his, rfl⟩ := Option.map_eq_some_iff.mp h
      exact .ingest event (rows_of_insert? his) rfl rfl rfl rfl
  next userId =>
    split at h
    · split at h
      · cases h
      · cases h
        exact .enqueue userId rfl rfl rfl rfl rfl
    · cases h
  next userId =>
    split at h
    next event q hfound =>
      split at h
      next hitems =>
        cases h
        exact .commit userId event q hfound rfl (rows_of_insertAll? hitems) rfl rfl rfl
      · cases h
    · cases h
  next userId =>
    cases h
    exact .abort userId rfl rfl rfl rfl rfl
  · cases h

/-- **A step, inverted.** -/
theorem step_effect {s s' : State} (h : step users limit s a = some s') : Effect s s' a := by
  unfold step at h
  split at h
  next page =>
    split at h
    next hidle =>
      split at h
      next hpage =>
        split at h
        · cases h
          refine .start page rfl rfl rfl ?_ rfl
          rw [hidle]
          intro w hw
          cases hw
        · cases h
          exact .start page rfl rfl rfl hpage.2.1 rfl
      · cases h
    · cases h
  · exact runNext_effect h
  · cases h
    exact .fail rfl rfl rfl rfl rfl
  · exact ingestionStep_effect h

/-! ## The invariant -/

/-- An item that an enqueue ran into: as long as there is an item for the pair, it is this one, and
its id is no other's. -/
def InTheWay (s : State) (pair : String × RankingPeriod) (id : Nat) : Prop :=
  id < s.nextItem ∧ ∀ x ∈ s.items.rows, x.pair = pair ↔ x.workItemId = id

/-- Ids are unique and drawn upwards, a run holds items that are there, and what swallowed an
enqueue stays in the way of its pair. -/
structure Inv (s : State) : Prop where
  fresh : ∀ x ∈ s.items.rows, x.workItemId < s.nextItem
  ids : ∀ x ∈ s.items.rows, ∀ y ∈ s.items.rows, x.workItemId = y.workItemId → x = y
  held : ∀ w ∈ s.run.items, w ∈ s.items.rows
  enqueued : ∀ i ∈ s.ingestions.rows, ∀ q ∈ i.enqueued,
    (∃ items, q = enqueueRecalculation items i.userId) ∧
      ∀ p id, (p, id) ∈ q.swallowed → InTheWay s (i.userId, p) id

theorem Inv.initial (ranking : UserRanking) (peaks : PeakTable) :
    Inv (State.initial ranking peaks) := by
  refine ⟨?_, ?_, ?_, ?_⟩ <;> intro x hx <;> cases hx

section InvStep

variable {s s' : State}

theorem InTheWay.of_eq {pair : String × RankingPeriod} {id : Nat} (h : InTheWay s pair id)
    (hitems : s'.items = s.items) (hnext : s'.nextItem = s.nextItem) : InTheWay s' pair id := by
  rw [InTheWay, hitems, hnext]
  exact h

theorem Inv.of_items_eq (hi : Inv s) (hitems : s'.items = s.items)
    (hnext : s'.nextItem = s.nextItem) (hheld : ∀ w ∈ s'.run.items, w ∈ s.items.rows)
    (hingestions : ∀ i ∈ s'.ingestions.rows, ∀ q ∈ i.enqueued,
      i ∈ s.ingestions.rows ∨ q = enqueueRecalculation s.items i.userId) : Inv s' := by
  refine ⟨?_, ?_, ?_, ?_⟩
  · rw [hitems, hnext]
    exact hi.fresh
  · rw [hitems]
    exact hi.ids
  · rw [hitems]
    exact hheld
  · intro i hmem q hq
    rcases hingestions i hmem q hq with hold | rfl
    · obtain ⟨hwas, hway⟩ := hi.enqueued i hold q hq
      exact ⟨hwas, fun p id hp => (hway p id hp).of_eq hitems hnext⟩
    · refine ⟨⟨s.items, rfl⟩, ?_⟩
      intro p id hp
      obtain ⟨w, hw, rfl⟩ := mem_swallowed_iff.mp hp
      refine InTheWay.of_eq ⟨hi.fresh w (mem_of_find? hw), ?_⟩ hitems hnext
      intro x hx
      constructor
      · intro hpair
        have hxw : s.items.find? x.pair = some x := find?_of_mem hx
        rw [hpair, hw, Option.some.injEq] at hxw
        rw [hxw]
      · intro hid
        rw [hi.ids x hx w (mem_of_find? hw) hid]
        exact key_of_find? hw

theorem Inv.commit (hi : Inv s) {userId : String} {event : XpEvent} {q : Enqueued}
    (hingestions : s'.ingestions = s.ingestions.erase userId)
    (hitems : s'.items.rows = s.items.rows ++ newItems userId event.now s.nextItem q.inserted)
    (hnext : s'.nextItem = s.nextItem + q.inserted.length) (hrun : s'.run = s.run) : Inv s' := by
  have hmem : ∀ {x : WorkItem}, x ∈ s'.items.rows →
      x ∈ s.items.rows ∨ x ∈ newItems userId event.now s.nextItem q.inserted := by
    intro x hx
    rw [hitems] at hx
    exact List.mem_append.mp hx
  refine ⟨?_, ?_, ?_, ?_⟩
  · intro x hx
    rcases hmem hx with hx | hx
    · have := hi.fresh x hx
      omega
    · have := (of_mem_newItems hx).2.2.2
      omega
  · intro x hx y hy hid
    rcases hmem hx with hx | hx <;> rcases hmem hy with hy | hy
    · exact hi.ids x hx y hy hid
    · have hlt := hi.fresh x hx
      have hle := (of_mem_newItems hy).2.2.1
      omega
    · have hlt := hi.fresh y hy
      have hle := (of_mem_newItems hx).2.2.1
      omega
    · exact newItems_ids hx hy hid
  · intro w hw
    rw [hrun] at hw
    rw [hitems]
    exact List.mem_append_left _ (hi.held w hw)
  · intro i hmem' q' hq'
    rw [hingestions, mem_erase] at hmem'
    obtain ⟨hold, hne⟩ := hmem'
    obtain ⟨hwas, hway⟩ := hi.enqueued i hold q' hq'
    refine ⟨hwas, ?_⟩
    intro p id hp
    obtain ⟨hlt, hiff⟩ := hway p id hp
    refine ⟨by omega, ?_⟩
    intro x hx
    rcases hmem hx with hx | hx
    · exact hiff x hx
    · -- the new items are another user's, with ids not drawn before
      obtain ⟨hu, -, hle, -⟩ := of_mem_newItems hx
      refine iff_of_false ?_ (by omega)
      intro hpair
      exact hne ((congrArg Prod.fst hpair).symm.trans hu)

theorem Inv.finish (hi : Inv s) (hingestions : s'.ingestions = s.ingestions)
    (hitems : s'.items = s.remaining items) (hnext : s'.nextItem = s.nextItem)
    (hrun : s'.run = .idle) : Inv s' := by
  have hmem : ∀ {x : WorkItem}, x ∈ s'.items.rows → x ∈ s.items.rows := by
    intro x hx
    rw [hitems, State.remaining, mem_deleteWhere] at hx
    exact hx.1
  refine ⟨?_, ?_, ?_, ?_⟩
  · intro x hx
    rw [hnext]
    exact hi.fresh x (hmem hx)
  · intro x hx y hy
    exact hi.ids x (hmem hx) y (hmem hy)
  · intro w hw
    rw [hrun] at hw
    cases hw
  · intro i hmem' q hq
    rw [hingestions] at hmem'
    obtain ⟨hwas, hway⟩ := hi.enqueued i hmem' q hq
    refine ⟨hwas, ?_⟩
    intro p id hp
    obtain ⟨hlt, hiff⟩ := hway p id hp
    exact ⟨by omega, fun x hx => hiff x (hmem hx)⟩

theorem Inv.next (hi : Inv s) (h : step users limit s a = some s') : Inv s' := by
  have hsame : ∀ {i : Ingestion} {q : Enqueued}, s'.ingestions = s.ingestions →
      i ∈ s'.ingestions.rows →
      i ∈ s.ingestions.rows ∨ q = enqueueRecalculation s.items i.userId := by
    intro i q heq hmem
    rw [heq] at hmem
    exact .inl hmem
  cases step_effect h with
  | ingest event hingestions hitems hnext hrun =>
    refine hi.of_items_eq hitems hnext (by rw [hrun]; exact hi.held) ?_
    intro i hmem q hq
    rw [hingestions, List.mem_append, List.mem_singleton] at hmem
    rcases hmem with hmem | rfl
    · exact .inl hmem
    · cases hq
  | enqueue userId hingestions hitems hnext hrun =>
    refine hi.of_items_eq hitems hnext (by rw [hrun]; exact hi.held) ?_
    intro i hmem q hq
    rw [hingestions] at hmem
    obtain ⟨old, hold, heq⟩ := mem_modify.mp hmem
    split at heq
    next hu =>
      subst heq
      cases hq
      exact .inr (by rw [setEnqueued_userId, hu])
    · subst heq
      exact .inl hold
  | commit userId event q hfound hingestions hitems hnext hrun =>
    exact hi.commit hingestions hitems hnext hrun
  | abort userId hingestions hitems hnext hrun =>
    refine hi.of_items_eq hitems hnext (by rw [hrun]; exact hi.held) ?_
    intro i hmem q hq
    rw [hingestions, mem_erase] at hmem
    exact .inl hmem.1
  | start page hingestions hitems hnext hpage =>
    exact hi.of_items_eq hitems hnext hpage fun i hmem q _ => hsame hingestions hmem
  | move hpoint hingestions hitems hnext hrun =>
    exact hi.of_items_eq hitems hnext (fun w hw => hi.held w (hrun w hw))
      fun i hmem q _ => hsame hingestions hmem
  | finish items hpoint hingestions hitems hnext hrun =>
    exact hi.finish hingestions hitems hnext hrun
  | fail hingestions hitems hnext hrun =>
    refine hi.of_items_eq hitems hnext ?_ fun i hmem q _ => hsame hingestions hmem
    rw [hrun]
    intro w hw
    cases hw

end InvStep

/-! ## No request is lost -/

/-- A user whose XP has changed since a run last read it for a period has a work item for the
period. -/
def State.Requested (s : State) : Prop :=
  ∀ q ∈ s.unread, ∃ x ∈ s.items.rows, x.pair = q

/-- A run deletes its items only if no ingestion for one of them has committed since the run read
the XP; an ingestion commits only while the items that swallowed its enqueue are still there. -/
def DeletesTimely (s : State) : Action → Prop
  | .next => ∀ items ∈ s.run.finishes, ∀ w ∈ items, w.pair ∉ s.unread
  | .commit userId => ∀ i ∈ s.ingestions.find? userId, ∀ q ∈ i.enqueued, ∀ b ∈ q.swallowed,
      ∃ x ∈ s.items.rows, x.workItemId = b.2
  | _ => True

instance (s : State) : (a : Action) → Decidable (DeletesTimely s a)
  | .next => inferInstanceAs (Decidable (∀ _ ∈ _, _))
  | .commit _ => inferInstanceAs (Decidable (∀ _ ∈ _, _))
  | .ingest _ => .isTrue trivial
  | .enqueue _ => .isTrue trivial
  | .abort _ => .isTrue trivial
  | .processDirtyRankings _ => .isTrue trivial
  | .fail => .isTrue trivial

section RequestedStep

variable {s s' : State}

theorem RunPoint.items_of_finishes {r : RunPoint} (h : r.finishes = some items) :
    r.items = items := by
  cases r with
  | clearing items' userIds => exact Option.some.inj h
  | idle => cases h
  | recalculate _ _ => cases h
  | marked _ _ _ _ => cases h
  | ranked _ _ _ _ => cases h
  | deleted _ => cases h

/-- The deletion takes the request of every pair it has read: no other item can be there for it. -/
theorem requested_finish_iff (hi : Inv s) (hr : s.Requested) (hpoint : s.run.finishes = some items)
    (hitems : s'.items = s.remaining items) (hunread : s'.unread = s.unread) :
    (∀ w ∈ items, w.pair ∉ s.unread) ↔ s'.Requested := by
  have hheld : ∀ w ∈ items, w ∈ s.items.rows := by
    rw [← RunPoint.items_of_finishes hpoint]
    exact hi.held
  constructor
  · intro hfree q hq
    rw [hunread] at hq
    obtain ⟨x, hx, rfl⟩ := hr q hq
    refine ⟨x, ?_, rfl⟩
    rw [hitems, State.remaining, mem_deleteWhere, decide_eq_false_iff_not, List.mem_map]
    refine ⟨hx, ?_⟩
    rintro ⟨w, hw, hid⟩
    rw [hi.ids w (hheld w hw) x hx hid] at hw
    exact hfree x hw hq
  · intro hr' w hw hq
    rw [← hunread] at hq
    obtain ⟨x, hx, hpair⟩ := hr' w.pair hq
    rw [hitems, State.remaining, mem_deleteWhere, decide_eq_false_iff_not, List.mem_map] at hx
    -- the unique index: the item left for the pair would be the one deleted
    have hfound : s.items.find? x.pair = some x := find?_of_mem hx.1
    rw [hpair, find?_of_mem (hheld w hw), Option.some.injEq] at hfound
    exact hx.2 ⟨w, hw, by rw [hfound]⟩

/-- An ingestion leaves its user requested in every period if its enqueue inserted an item or ran
into one that is still there. -/
theorem requested_commit_iff (hi : Inv s) (hr : s.Requested) {userId : String} {event : XpEvent}
    {q : Enqueued} (hfound : s.ingestions.find? userId = some ⟨event, some q⟩)
    (hitems : s'.items.rows = s.items.rows ++ newItems userId event.now s.nextItem q.inserted)
    (hunread : s'.unread = allPeriods.map (userId, ·) ++ s.unread) :
    (∀ b ∈ q.swallowed, ∃ x ∈ s.items.rows, x.workItemId = b.2) ↔ s'.Requested := by
  have hkey : Ingestion.userId ⟨event, some q⟩ = userId := key_of_find? hfound
  obtain ⟨⟨items, hq⟩, hway⟩ := hi.enqueued _ (mem_of_find? hfound) q rfl
  rw [hkey] at hq hway
  constructor
  · intro hthere pair hpair
    rw [hunread, List.mem_append] at hpair
    rw [hitems]
    rcases hpair with hpair | hpair
    · obtain ⟨p, -, rfl⟩ := List.mem_map.mp hpair
      cases hold : items.find? (userId, p) with
      | none =>
        have hins : p ∈ q.inserted := by
          rw [hq]
          exact mem_inserted_iff.mpr hold
        obtain ⟨x, hx, hxp⟩ := exists_mem_newItems userId event.now s.nextItem hins
        exact ⟨x, List.mem_append_right _ hx, hxp⟩
      | some w =>
        have hsw : (p, w.workItemId) ∈ q.swallowed := by
          rw [hq]
          exact mem_swallowed_iff.mpr ⟨w, hold, rfl⟩
        obtain ⟨x, hx, hid⟩ := hthere _ hsw
        exact ⟨x, List.mem_append_left _ hx, ((hway p _ hsw).2 x hx).mpr hid⟩
    · obtain ⟨x, hx, hxp⟩ := hr pair hpair
      exact ⟨x, List.mem_append_left _ hx, hxp⟩
  · rintro hr' ⟨p, id⟩ hb
    have hmem : (userId, p) ∈ s'.unread := by
      rw [hunread]
      exact List.mem_append_left _ (List.mem_map_of_mem (mem_allPeriods p))
    obtain ⟨x, hx, hpair⟩ := hr' _ hmem
    rw [hitems, List.mem_append] at hx
    rcases hx with hx | hx
    · exact ⟨x, hx, ((hway p id hb).2 x hx).mp hpair⟩
    · -- a period is not both inserted and swallowed
      have hins := (of_mem_newItems hx).2.1
      rw [show x.period = p from congrArg Prod.snd hpair, hq, mem_inserted_iff] at hins
      rw [hq, mem_swallowed_iff] at hb
      obtain ⟨w, hw, -⟩ := hb
      rw [hins] at hw
      cases hw

theorem requested_of_items_eq (hr : s.Requested) (hitems : s'.items = s.items)
    (hunread : ∀ q ∈ s'.unread, q ∈ s.unread) : s'.Requested := by
  intro q hq
  rw [hitems]
  exact hr q (hunread q hq)

theorem deletesTimely_iff (hi : Inv s) (hr : s.Requested) (h : step users limit s a = some s') :
    DeletesTimely s a ↔ s'.Requested := by
  cases step_effect h with
  | commit userId event q hfound hingestions hitems hnext hrun hunread =>
    rw [← requested_commit_iff hi hr hfound hitems hunread, DeletesTimely, hfound]
    simp
  | finish items hpoint hingestions hitems hnext hrun hunread =>
    rw [← requested_finish_iff hi hr hpoint hitems hunread, DeletesTimely, hpoint]
    simp
  | move hpoint hingestions hitems hnext hrun hunread =>
    refine iff_of_true ?_ (requested_of_items_eq hr hitems hunread)
    rw [DeletesTimely, hpoint]
    intro items hmem
    cases hmem
  | ingest event hingestions hitems hnext hrun hunread =>
    exact iff_of_true trivial (requested_of_items_eq hr hitems fun q hq => hunread ▸ hq)
  | enqueue userId hingestions hitems hnext hrun hunread =>
    exact iff_of_true trivial (requested_of_items_eq hr hitems fun q hq => hunread ▸ hq)
  | abort userId hingestions hitems hnext hrun hunread =>
    exact iff_of_true trivial (requested_of_items_eq hr hitems fun q hq => hunread ▸ hq)
  | start page hingestions hitems hnext hpage hunread =>
    exact iff_of_true trivial (requested_of_items_eq hr hitems fun q hq => hunread ▸ hq)
  | fail hingestions hitems hnext hrun hunread =>
    exact iff_of_true trivial (requested_of_items_eq hr hitems fun q hq => hunread ▸ hq)

end RequestedStep

/-- **No recalculation request is lost, exactly.** In a run of ingestions and of
`processDirtyRankings`, in any interleaving of their statements, every pair whose user has had an
ingestion committed since the pair's XP was last read has a pending work item in every state passed
through, if and only if no run deletes an item after an ingestion for its user has committed since
the run read the user's XP for the period, and no ingestion commits after an item that swallowed
its enqueue has been deleted. -/
theorem requested_iff (users : String → Option UserInfo) (limit : Nat) (ranking : UserRanking)
    (peaks : PeakTable) (as : List Action) (s : State)
    (h : exec (step users limit) (State.initial ranking peaks) as = some s) :
    Always (step users limit) State.Requested (State.initial ranking peaks) as ↔
      Along (step users limit) DeletesTimely (State.initial ranking peaks) as := by
  have hinit : (State.initial ranking peaks).Requested := by
    intro q hq
    cases hq
  refine along_iff_always (I := Inv) ?_ ?_ h (Inv.initial ranking peaks) hinit
  · intro s a s' hi hstep
    exact hi.next hstep
  · intro s a s' hi hr hstep
    exact deletesTimely_iff hi hr hstep

def player : String := "01900000-0000-7000-8000-000000000001"

/-- The account has been deleted; its events of XP are still on their way. -/
def deletedPlayer (_ : String) : Option UserInfo := some { createdAt := 0, deletedAt := some 500 }

def ingestion (amount now : Int) : List Action :=
  [.ingest ⟨player, amount, now⟩, .enqueue player, .commit player]

/-- A run up to the transaction that deletes the items: four periods of three statements. -/
def recalculation : List Action :=
  .processDirtyRankings (newItems player 1000 0 allPeriods) :: List.replicate 12 .next

def inTurn : List Action :=
  ingestion 10 1000 ++ recalculation ++ List.replicate 3 .next ++ ingestion 5 4000

def overtaken : List Action :=
  ingestion 10 1000 ++ recalculation ++ ingestion 5 2500 ++ List.replicate 3 .next

theorem requested_inTurn :
    Always (step deletedPlayer 100) State.Requested
      (State.initial (Table.empty _) (Table.empty _)) inTurn := by
  obtain ⟨s, hs, -⟩ : ∃ s, exec (step deletedPlayer 100)
      (State.initial (Table.empty _) (Table.empty _)) inTurn = some s ∧
      s.items.rows.length = 4 := Option.map_eq_some_iff.mp (by decide +kernel)
  exact (requested_iff deletedPlayer 100 (Table.empty _) (Table.empty _) inTurn s hs).mpr
    (by decide +kernel)

/-- The run has read 10 XP of a user it does not rank; the user has 15, is not dirty, and nothing
is queued. -/
theorem request_lost_when_overtaken :
    ∃ s, exec (step deletedPlayer 100) (State.initial (Table.empty _) (Table.empty _))
        overtaken = some s ∧
      ¬ s.Requested ∧ s.items.rows = [] ∧
      (s.ranking.find? player).map (fun row => (row.allTimeXp, row.isDirty)) =
        some (15, false) := by
  refine exists_of_read
    (fun s => (s.items.rows, s.unread,
      (s.ranking.find? player).map fun row => (row.allTimeXp, row.isDirty)))
    ([], allPeriods.map (player, ·), some (15, false)) (by decide +kernel) fun s hs hread => ?_
  simp only [Prod.mk.injEq] at hread
  obtain ⟨hitems, hunread, hrow⟩ := hread
  refine ⟨?_, hitems, hrow⟩
  intro hr
  obtain ⟨x, hx, -⟩ := hr (player, .allTime) (by rw [hunread]; decide)
  rw [hitems] at hx
  cases hx

end QuizBackend.Ranking.Recalculation
