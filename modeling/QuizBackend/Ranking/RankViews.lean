import QuizBackend.Lib.RowNumber
import QuizBackend.Ranking.Leaderboard

/-!
# Ranks, as the queries see them (`leaderboard.repository.ts`)

Every participant of a period has a rank, `RANK()` by XP and then by the time the account was created.
`calculateAllRanks`, `getLeaderboard` and `getNearbyRanks` compute it with the same window. Two do not:
`getUserRank` counts who has more XP, so that ties share a rank whatever their age, and
`calculateAllRanksForUsers` picks the users before it ranks them, so that nobody else counts. And
`calculateAllRanks` reads the dense rank from a column that its query does not have.
`getNextRankXp` has a window of its own, in which no two users tie.

Here they look at one state of the tables.
-/

namespace QuizBackend.Ranking.RankViews

open Lib
open Ranking.Recalculation
open Ranking.Leaderboard (Database participants getLeaderboard getTotalParticipants countAhead
  getNextRankXp)

/-! ## The queries -/

/-- A rank as the two calculations return it; a `denseRank` of `none` is `NaN`. -/
structure CalculatedRank where
  userId : String
  xp : Int
  rank : Nat
  denseRank : Option Nat
  deriving DecidableEq

/-- `calculateAllRanksForUsers`: the rows with `user_id = ANY(userIds)`, ranked. -/
def calculateAllRanksForUsers (db : Database) (userIds : List String) (period : RankingPeriod) :
    List CalculatedRank :=
  (Recalculation.calculateAllRanksForUsers db.users db.ranking
      ((db.ranking.rows.map (·.userId)).filter (· ∈ userIds)) period).map fun row =>
    { userId := row.userId, xp := row.xp, rank := row.rank, denseRank := some row.denseRank }

/-- `calculateAllRanks`. Its `SELECT * FROM ranked` has the dense rank in a column `dense_rank`, and
the mapper takes `Number(row.denseRank)`, a number of nothing. -/
def calculateAllRanks (db : Database) (period : RankingPeriod) : List CalculatedRank :=
  (Recalculation.calculateAllRanksForUsers db.users db.ranking
      (db.ranking.rows.map (·.userId)) period).map fun row =>
    { userId := row.userId, xp := row.xp, rank := row.rank, denseRank := none }

def getUserRank (db : Database) (userId : String) (period : RankingPeriod) : Option Nat :=
  match db.ranking.find? userId with
  | none => none
  | some row =>
    if getXp row period = 0 then none else some (countAhead db period (getXp row period) + 1)

structure NearbyRankEntryRow where
  rank : Nat
  userId : String
  username : String
  xp : Int

structure NearbyRanks where
  above : List NearbyRankEntryRow
  me : Option NearbyRankEntryRow
  below : List NearbyRankEntryRow

/-- A row of `ranked_users`; names are in the table `users` too. -/
def nearbyRow (username : String → String) (users : List (String × Int × Int))
    (u : String × Int × Int) : NearbyRankEntryRow :=
  { rank := (users.filter (rankedAhead · u)).length + 1, userId := u.1, username := username u.1
    xp := u.2.1 }

def getNearbyRanks (username : String → String) (db : Database) (userId : String)
    (period : RankingPeriod) (radius : Nat) : NearbyRanks :=
  let ranked := (participants db period).map (nearbyRow username (participants db period))
  match ranked.find? (·.userId = userId) with
  | none => ⟨[], none, []⟩
  | some target =>
    let rows := (ranked.filter fun r => target.rank ≤ r.rank + radius ∧ r.rank ≤ target.rank + radius)
      |>.insertionSort fun a b => a.rank < b.rank ∨ (a.rank = b.rank ∧ a.username ≤ b.username)
    { above := rows.filter fun r => r.userId ≠ target.userId ∧ r.rank < target.rank
      me := rows.find? (·.userId = target.userId)
      below := rows.filter fun r => r.userId ≠ target.userId ∧ ¬ r.rank < target.rank }

/-! ## Participants -/

def target (users : String → Option UserInfo) (t : UserRanking) (period : RankingPeriod)
    (userId : String) : Option (String × Int × Int) :=
  match t.find? userId, users userId with
  | some row, some info =>
    if 0 < getXp row period ∧ info.deletedAt = none then
      some (userId, getXp row period, info.createdAt)
    else none
  | _, _ => none

theorem targetUsers_eq (users : String → Option UserInfo) (t : UserRanking) (userIds : List String)
    (period : RankingPeriod) :
    targetUsers users t userIds period = userIds.filterMap (target users t period) := rfl

variable {users : String → Option UserInfo} {t : UserRanking} {period : RankingPeriod}
  {userIds : List String} {db : Database}

theorem target_eq_some_iff {userId : String} {u : String × Int × Int} :
    target users t period userId = some u ↔
      ∃ row info, t.find? userId = some row ∧ users userId = some info ∧ 0 < getXp row period ∧
        info.deletedAt = none ∧ u = (userId, getXp row period, info.createdAt) := by
  unfold target
  cases hrow : t.find? userId with
  | none => simp
  | some row =>
    cases hinfo : users userId with
    | none => simp
    | some info => simp [and_assoc, eq_comm]

theorem fst_of_target {userId : String} {u : String × Int × Int}
    (h : target users t period userId = some u) : u.1 = userId := by
  obtain ⟨_, _, -, -, -, -, rfl⟩ := target_eq_some_iff.mp h
  rfl

theorem targetUsers_filter (p : String → Bool) :
    targetUsers users t (userIds.filter p) period =
      (targetUsers users t userIds period).filter fun u => p u.1 := by
  rw [targetUsers_eq, targetUsers_eq, List.filterMap_filter, List.filter_filterMap]
  refine List.filterMap_congr fun userId _ => ?_
  cases h : target users t period userId with
  | none => exact ite_self _
  | some u =>
    rw [Option.filter_some, fst_of_target h]

theorem targetUsers_map_fst {us : List (String × Int × Int)}
    (h : ∀ u ∈ us, target users t period u.1 = some u) :
    targetUsers users t (us.map (·.1)) period = us := by
  have hself : us.filterMap (target users t period ∘ (·.1)) = us.filterMap some :=
    List.filterMap_congr fun u hu => h u hu
  rw [targetUsers_eq, List.filterMap_map, hself, List.filterMap_some]

theorem mem_participants {u : String × Int × Int} :
    u ∈ participants db period ↔ target db.users db.ranking period u.1 = some u := by
  rw [participants, targetUsers_eq, List.mem_filterMap]
  constructor
  · rintro ⟨userId, -, hu⟩
    rw [fst_of_target hu]
    exact hu
  · intro hu
    obtain ⟨row, _, hrow, -⟩ := target_eq_some_iff.mp hu
    refine ⟨u.1, ?_, hu⟩
    rw [← Table.key_of_find? hrow]
    exact List.mem_map_of_mem (Table.mem_of_find? hrow)

theorem eq_of_fst_eq {u v : String × Int × Int} (hu : u ∈ participants db period)
    (hv : v ∈ participants db period) (h : u.1 = v.1) : u = v := by
  have hu' := mem_participants.mp hu
  rw [h, mem_participants.mp hv, Option.some.injEq] at hu'
  exact hu'.symm

theorem participants_nodup : (participants db period).Nodup := by
  have hids : (db.ranking.rows.map (·.userId)).Nodup := db.ranking.nodup
  rw [participants, targetUsers_eq]
  refine hids.filterMap ?_
  intro userId userId' u hu hu'
  rw [← fst_of_target hu, ← fst_of_target hu']

/-! ## Ranks -/

def rankRow (targets : List (String × Int × Int)) (u : String × Int × Int) : RankedUser :=
  let ahead := targets.filter (rankedAhead · u)
  { userId := u.1, xp := u.2.1, rank := ahead.length + 1
    denseRank := (ahead.map (·.2)).eraseDups.length + 1 }

theorem calculateAllRanksForUsers_eq :
    Recalculation.calculateAllRanksForUsers users t userIds period =
      (targetUsers users t userIds period).map (rankRow (targetUsers users t userIds period)) := rfl

theorem calculateAllRanks_eq :
    calculateAllRanks db period = (participants db period).map fun u =>
      { userId := u.1, xp := u.2.1, rank := (rankRow (participants db period) u).rank
        denseRank := none } := List.map_map

section Rows

variable {targets others : List (String × Int × Int)} {u v : String × Int × Int}

theorem rank_rankRow :
    (rankRow targets u).rank = rank (fun a b => rankedAhead a b = true) targets u := by
  rw [rank, Nat.add_comm, List.countP_eq_length_filter]
  refine congrArg (fun l : List (String × Int × Int) => l.length + 1) ?_
  exact List.filter_congr fun x _ => Bool.decide_eq_true.symm

theorem rankRow_perm (h : targets.Perm others) (u : String × Int × Int) :
    rankRow targets u = rankRow others u := by
  have hahead := h.filter (rankedAhead · u)
  simp only [rankRow, hahead.length_eq, length_eraseDups_perm (hahead.map (·.2))]

theorem rankedAhead_iff :
    rankedAhead u v = true ↔ v.2.1 < u.2.1 ∨ u.2.1 = v.2.1 ∧ u.2.2 < v.2.2 := by
  unfold rankedAhead
  rw [Bool.or_eq_true, Bool.and_eq_true, decide_eq_true_eq, decide_eq_true_eq, decide_eq_true_eq]

end Rows

/-! ## The ranks of some -/

/-- The participants among the listed users. -/
def listed (db : Database) (userIds : List String) (period : RankingPeriod) :
    List (String × Int × Int) :=
  (participants db period).filter fun u => decide (u.1 ∈ userIds)

theorem calculateAllRanksForUsers_listed :
    calculateAllRanksForUsers db userIds period = (listed db userIds period).map fun u =>
      { userId := u.1, xp := u.2.1, rank := (rankRow (listed db userIds period) u).rank
        denseRank := some (rankRow (listed db userIds period) u).denseRank } := by
  have htargets : targetUsers db.users db.ranking
      ((db.ranking.rows.map (·.userId)).filter (· ∈ userIds)) period = listed db userIds period :=
    targetUsers_filter _
  rw [calculateAllRanksForUsers, calculateAllRanksForUsers_eq, htargets, List.map_map]
  rfl

theorem filter_listed {userId : String} (h : userId ∈ userIds) :
    (listed db userIds period).filter (·.1 = userId) =
      (participants db period).filter (·.1 = userId) := by
  rw [listed, List.filter_filter]
  refine List.filter_congr fun u _ => ?_
  by_cases hu : u.1 = userId <;> simp [hu, h]

/-- What the two calculations have for every listed user. -/
def RanksAlike (db : Database) (userIds : List String) (period : RankingPeriod) : Prop :=
  ∀ userId ∈ userIds,
    (calculateAllRanksForUsers db userIds period).filter (·.userId = userId) =
      (calculateAllRanks db period).filter (·.userId = userId)

/-- **When the ranks of some are the ranks of all**: just when none of them has a rank. Wherever there
is one, its dense rank is a number on one side only. -/
theorem ranksAlike_iff (db : Database) (userIds : List String) (period : RankingPeriod) :
    RanksAlike db userIds period ↔ ∀ u ∈ participants db period, u.1 ∉ userIds := by
  unfold RanksAlike
  rw [calculateAllRanksForUsers_listed, calculateAllRanks_eq]
  simp only [List.filter_map]
  constructor
  · intro h u hu hlisted
    have hrows := h u.1 hlisted
    have hmem : u ∈ (listed db userIds period).filter (·.1 = u.1) := by
      rw [filter_listed hlisted]
      exact List.mem_filter.mpr ⟨hu, decide_eq_true rfl⟩
    have hrow := List.mem_map_of_mem (f := fun u : String × Int × Int => (
      { userId := u.1, xp := u.2.1, rank := (rankRow (listed db userIds period) u).rank
        denseRank := some (rankRow (listed db userIds period) u).denseRank } : CalculatedRank)) hmem
    obtain ⟨v, -, hv⟩ := List.mem_map.mp (hrows ▸ hrow)
    cases congrArg CalculatedRank.denseRank hv
  · intro h userId hlisted
    have hnone : (participants db period).filter (·.1 = userId) = [] := by
      refine List.filter_eq_nil_iff.mpr fun u hu => ?_
      rw [decide_eq_true_eq]
      rintro rfl
      exact h u hu hlisted
    change List.map _ ((listed db userIds period).filter (·.1 = userId)) =
      List.map _ ((participants db period).filter (·.1 = userId))
    rw [filter_listed hlisted, hnone]
    rfl

/-- Dense ranks apart, the incremental recalculation finds the rank of every listed user just when
nobody who is ahead of a listed participant has been left out. -/
theorem rank_listed_iff (db : Database) (userIds : List String) (period : RankingPeriod) :
    (∀ u ∈ listed db userIds period, (rankRow (listed db userIds period) u).rank =
        (rankRow (participants db period) u).rank) ↔
      ∀ u ∈ participants db period, u.1 ∈ userIds → ∀ v ∈ participants db period,
        rankedAhead v u → v.1 ∈ userIds := by
  have hrank : ∀ u, (rankRow (listed db userIds period) u).rank =
      (rankRow (participants db period) u).rank ↔
        ∀ v ∈ participants db period, rankedAhead v u → v.1 ∈ userIds := by
    intro u
    rw [listed, rank_rankRow, rank_rankRow, rank_filter_iff]
    simp only [decide_eq_true_eq]
  constructor
  · intro h u hu hmem
    exact (hrank u).mp (h u (List.mem_filter.mpr ⟨hu, decide_eq_true hmem⟩))
  · intro h u hu
    obtain ⟨hu, hmem⟩ := List.mem_filter.mp hu
    exact (hrank u).mpr (h u hu (of_decide_eq_true hmem))

/-! Two players, of whom the second one has earned XP just now. -/

def playerRow (userId : String) (allTimeXp : Int) : UserRankingRow :=
  { userId, allTimeXp, weeklyXp := 0, monthlyXp := 0, dailyXp := 0, lastWeeklyResetAt := none
    lastMonthlyResetAt := none, lastDailyResetAt := none, lastActivityAt := none, updatedAt := 0
    isDirty := false }

def twoPlayers (first second : Int) : Database where
  users userId :=
    if userId = "a" then some { createdAt := 1, deletedAt := none }
    else if userId = "b" then some { createdAt := 2, deletedAt := none }
    else none
  ranking := ((Table.empty _).upsert (playerRow "a" first)).upsert (playerRow "b" second)
  history := Table.empty _

/-- **Both players are asked about**, and the two calculations differ in their dense ranks. -/
theorem dense_rank_not_a_number : ¬ RanksAlike (twoPlayers 20 10) ["a", "b"] .allTime := by
  intro h
  have hrows := congrArg (List.map CalculatedRank.denseRank) (h "b" (by decide))
  exact absurd hrows (by decide +kernel)

/-! ## Who is ahead -/

theorem countAhead_eq {userXp : Int} (hxp : 0 ≤ userXp) :
    countAhead db period userXp = (participants db period).countP fun v => decide (userXp < v.2.1) := by
  rw [participants, targetUsers_eq, List.countP_filterMap, List.countP_map, countAhead]
  refine List.countP_congr fun row hrow => ?_
  have hfind : db.ranking.find? row.userId = some row := Table.find?_of_mem hrow
  show _ ↔ ((target db.users db.ranking period row.userId).map _).getD false = true
  unfold target
  rw [hfind]
  cases db.users row.userId with
  | none => simp
  | some info =>
    by_cases hdeleted : info.deletedAt = none
    · by_cases hpos : 0 < getXp row period
      · simp [hdeleted, hpos]
      · simp [hdeleted, hpos]
        omega
    · simp [hdeleted]

theorem getUserRank_eq {u : String × Int × Int} (hu : u ∈ participants db period) :
    getUserRank db u.1 period =
      some ((participants db period).countP (fun v => decide (u.2.1 < v.2.1)) + 1) := by
  obtain ⟨row, info, hrow, -, hpos, -, hu⟩ := target_eq_some_iff.mp (mem_participants.mp hu)
  have hxp : u.2.1 = getXp row period := by rw [hu]
  rw [getUserRank, hrow]
  show (if getXp row period = 0 then none else _) = _
  rw [if_neg (ne_of_gt hpos), countAhead_eq (le_of_lt hpos), hxp]

/-- **The rank by XP is the rank when no tie is older.** -/
theorem countP_ahead_iff (u : String × Int × Int) :
    (participants db period).countP (fun v => decide (u.2.1 < v.2.1)) + 1 =
        (rankRow (participants db period) u).rank ↔
      ∀ v ∈ participants db period, v.2.1 = u.2.1 → u.2.2 ≤ v.2.2 := by
  rw [rank_rankRow, rank, Nat.add_comm, Nat.add_left_cancel_iff, countP_eq_iff]
  · simp only [decide_eq_true_eq, rankedAhead_iff]
    constructor
    · intro h v hv htied
      by_contra holder
      have := h v hv (.inr ⟨htied, by omega⟩)
      omega
    · rintro h v hv (hmore | ⟨htied, holder⟩)
      · exact hmore
      · have := h v hv htied
        omega
  · intro v _ hmore
    rw [decide_eq_true_eq] at hmore ⊢
    exact rankedAhead_iff.mpr (.inl hmore)

/-! ## The next rank -/

/-- The least XP of a participant above `userXp`, if somebody has more. -/
def IsNextXp (db : Database) (period : RankingPeriod) (userXp : Int) : Option Int → Prop
  | none => ∀ v ∈ participants db period, v.2.1 ≤ userXp
  | some xp => (∃ v ∈ participants db period, v.2.1 = xp) ∧ userXp < xp ∧
      ∀ v ∈ participants db period, userXp < v.2.1 → xp ≤ v.2.1

def byId (v u : String × Int × Int) : Prop := u.2.1 < v.2.1 ∨ (v.2.1 = u.2.1 ∧ v.1 < u.1)

instance (v u : String × Int × Int) : Decidable (byId v u) := inferInstanceAs (Decidable (_ ∨ _))

instance : IsTrans (String × Int × Int) byId where
  trans := by
    rintro u v w (huv | ⟨huv, hid⟩) (hvw | ⟨hvw, hid'⟩)
    · exact .inl (by omega)
    · exact .inl (by omega)
    · exact .inl (by omega)
    · exact .inr ⟨huv.trans hvw, String.lt_trans hid hid'⟩

instance : Std.Irrefl byId where
  irrefl u h := by
    rcases h with h | ⟨-, h⟩
    · exact lt_irrefl _ h
    · exact String.lt_irrefl _ h

theorem fst_eq_of_byId {u v : String × Int × Int} (huv : ¬ byId u v) (hvu : ¬ byId v u) : u.1 = v.1 := by
  have hmore : ¬ v.2.1 < u.2.1 := fun h => huv (.inl h)
  have hless : ¬ u.2.1 < v.2.1 := fun h => hvu (.inl h)
  have hxp : u.2.1 = v.2.1 := by omega
  exact String.le_antisymm (String.not_lt.mp fun h => hvu (.inr ⟨hxp.symm, h⟩))
    (String.not_lt.mp fun h => huv (.inr ⟨hxp, h⟩))

def rankById (us : List (String × Int × Int)) (u : String × Int × Int) : Nat :=
  us.countP (fun v => u.2.1 < v.2.1 ∨ (v.2.1 = u.2.1 ∧ v.1 < u.1)) + 1

theorem rankById_eq (us : List (String × Int × Int)) (u : String × Int × Int) :
    rankById us u = rank byId us u := Nat.add_comm _ _

theorem getNextRankXp_of_find? {currentRank : Nat} {g : String × Int × Int} (hpos : currentRank ≠ 0)
    (hg : (participants db period).find? (fun u =>
      decide (rankById (participants db period) u = currentRank)) = some g) :
    getNextRankXp db period currentRank =
      (((participants db period).filter fun v =>
        decide (rankById (participants db period) v < currentRank ∧ g.2.1 < v.2.1)).map (·.2.1)).min? := by
  have hranked : ((participants db period).map fun u =>
      (u.2.1, rankById (participants db period) u)).find? (·.2 = currentRank) =
        some (g.2.1, rankById (participants db period) g) := by
    rw [List.find?_map]
    exact congrArg (Option.map _) hg
  unfold rankById at hranked
  unfold getNextRankXp
  simp only [if_neg hpos, hranked, List.filter_map, List.map_map]
  rfl

/-- **The rank leads to the XP.** Whoever has the rank by id that `userXp` has by XP, has `userXp`, and
exactly those with more come before. -/
theorem getNextRankXp_eq {u : String × Int × Int} (hu : u ∈ participants db period) :
    getNextRankXp db period ((participants db period).countP (fun v => decide (u.2.1 < v.2.1)) + 1) =
      (((participants db period).filter fun v => decide (u.2.1 < v.2.1)).map (·.2.1)).min? := by
  -- the first by id of those with the same XP
  obtain ⟨g, hg, hfirst⟩ : ∃ g ∈ (participants db period).filter (fun v => decide (v.2.1 = u.2.1)),
      ∀ v ∈ (participants db period).filter (fun v => decide (v.2.1 = u.2.1)), ¬ byId v g :=
    exists_first (List.ne_nil_of_mem (List.mem_filter.mpr ⟨hu, decide_eq_true rfl⟩))
  obtain ⟨hg, hxp⟩ := List.mem_filter.mp hg
  rw [decide_eq_true_eq] at hxp
  have hrank : rankById (participants db period) g =
      (participants db period).countP (fun v => decide (u.2.1 < v.2.1)) + 1 := by
    refine congrArg (· + 1) (List.countP_congr fun v hv => ?_)
    rw [decide_eq_true_eq, decide_eq_true_eq]
    constructor
    · rintro (hmore | htied)
      · exact hxp ▸ hmore
      · exact absurd (.inr htied) (hfirst v
          (List.mem_filter.mpr ⟨hv, decide_eq_true (htied.1.trans hxp)⟩))
    · intro hmore
      exact .inl (hxp ▸ hmore)
  have hfind : (participants db period).find? (fun v =>
      decide (rankById (participants db period) v = rankById (participants db period) g)) = some g := by
    have hsome : ((participants db period).find? fun v =>
        decide (rankById (participants db period) v = rankById (participants db period) g)).isSome :=
      List.find?_isSome.mpr ⟨g, hg, decide_eq_true rfl⟩
    obtain ⟨t, ht⟩ := Option.isSome_iff_exists.mp hsome
    have htmem := List.mem_of_find?_eq_some ht
    have htrank := List.find?_some ht
    rw [decide_eq_true_eq, rankById_eq, rankById_eq] at htrank
    -- no two participants share a rank by id
    have hafter : ¬ byId t g := fun h => absurd htrank (Nat.ne_of_lt (rank_lt_rank htmem h))
    have hbefore : ¬ byId g t := fun h => absurd htrank.symm (Nat.ne_of_lt (rank_lt_rank hg h))
    rw [ht, eq_of_fst_eq htmem hg (fst_eq_of_byId hafter hbefore)]
  have hpos : rankById (participants db period) g ≠ 0 := Nat.succ_ne_zero _
  rw [← hrank, getNextRankXp_of_find? hpos hfind, hxp]
  refine congrArg (fun l : List (String × Int × Int) => (l.map (·.2.1)).min?) ?_
  refine List.filter_congr fun v hv => ?_
  rw [decide_eq_decide, rankById_eq, rankById_eq]
  exact and_iff_right_of_imp fun hmore => rank_lt_rank hv (.inl (hxp.symm ▸ hmore))

/-- **The next rank's XP is right** for the rank by XP of every participant. -/
theorem isNextXp_getNextRankXp {u : String × Int × Int} (hu : u ∈ participants db period) :
    IsNextXp db period u.2.1 (getNextRankXp db period
      ((participants db period).countP (fun v => decide (u.2.1 < v.2.1)) + 1)) := by
  have hmem : ∀ xp, xp ∈ ((participants db period).filter fun v => decide (u.2.1 < v.2.1)).map (·.2.1) ↔
      (∃ v ∈ participants db period, v.2.1 = xp) ∧ u.2.1 < xp := by
    intro xp
    rw [List.mem_map]
    constructor
    · rintro ⟨v, hv, rfl⟩
      obtain ⟨hv, hmore⟩ := List.mem_filter.mp hv
      exact ⟨⟨v, hv, rfl⟩, of_decide_eq_true hmore⟩
    · rintro ⟨⟨v, hv, rfl⟩, hmore⟩
      exact ⟨v, List.mem_filter.mpr ⟨hv, decide_eq_true hmore⟩, rfl⟩
  rw [getNextRankXp_eq hu]
  cases hmin : (((participants db period).filter fun v => decide (u.2.1 < v.2.1)).map (·.2.1)).min? with
  | none =>
    intro v hv
    by_contra hmore
    have hin := (hmem v.2.1).mpr ⟨⟨v, hv, rfl⟩, lt_of_not_ge hmore⟩
    rw [List.min?_eq_none_iff.mp hmin] at hin
    cases hin
  | some xp =>
    obtain ⟨hin, hleast⟩ := List.min?_eq_some_iff.mp hmin
    obtain ⟨hreal, hmore⟩ := (hmem xp).mp hin
    exact ⟨hreal, hmore, fun v hv hv' => hleast _ ((hmem v.2.1).mpr ⟨⟨v, hv, rfl⟩, hv'⟩)⟩

/-! ## All views of a user -/

def ordered (db : Database) (period : RankingPeriod) : List (String × Int × Int) :=
  (participants db period).insertionSort fun a b => rankedAhead b a = false

theorem ordered_perm : (ordered db period).Perm (participants db period) :=
  List.perm_insertionSort _ _

theorem getLeaderboard_eq (limit offset : Nat) :
    getLeaderboard db period limit offset =
      (((ordered db period).map (rankRow (participants db period))).drop offset).take limit := by
  have hrows : targetUsers db.users db.ranking ((ordered db period).map (·.1)) period =
      ordered db period :=
    targetUsers_map_fst fun u hu => mem_participants.mp (ordered_perm.mem_iff.mp hu)
  show ((Recalculation.calculateAllRanksForUsers db.users db.ranking
    ((ordered db period).map (·.1)) period).drop offset).take limit = _
  rw [calculateAllRanksForUsers_eq, hrows]
  refine congrArg (fun l : List RankedUser => (l.drop offset).take limit) ?_
  exact List.map_congr_left fun u _ => rankRow_perm ordered_perm u

theorem rank_of_mem_map {us : List (String × Int × Int)} (hus : us.Perm (participants db period))
    {u : String × Int × Int} (hu : u ∈ participants db period) {e : RankedUser}
    (he : e ∈ us.map (rankRow (participants db period))) (hid : e.userId = u.1) :
    e.rank = (rankRow (participants db period) u).rank := by
  obtain ⟨v, hv, rfl⟩ := List.mem_map.mp he
  rw [eq_of_fst_eq (hus.mem_iff.mp hv) hu hid]

theorem rank_of_mem_calculateAllRanks {u : String × Int × Int} (hu : u ∈ participants db period)
    {e : CalculatedRank} (he : e ∈ calculateAllRanks db period) (hid : e.userId = u.1) :
    e.rank = (rankRow (participants db period) u).rank := by
  rw [calculateAllRanks_eq] at he
  obtain ⟨v, hv, rfl⟩ := List.mem_map.mp he
  rw [eq_of_fst_eq hv hu hid]

theorem exists_mem_calculateAllRanks {u : String × Int × Int} (hu : u ∈ participants db period) :
    ∃ e ∈ calculateAllRanks db period, e.userId = u.1 := by
  rw [calculateAllRanks_eq]
  exact ⟨_, List.mem_map_of_mem hu, rfl⟩

theorem me_getNearbyRanks (username : String → String) {u : String × Int × Int}
    (hu : u ∈ participants db period) (radius : Nat) :
    ∃ e, (getNearbyRanks username db u.1 period radius).me = some e ∧
      e.rank = (rankRow (participants db period) u).rank := by
  generalize hranked : (participants db period).map (nearbyRow username (participants db period)) =
    ranked
  have hsome : (ranked.find? (·.userId = u.1)).isSome :=
    List.find?_isSome.mpr ⟨_, hranked ▸ List.mem_map_of_mem hu, decide_eq_true rfl⟩
  obtain ⟨target, htarget⟩ := Option.isSome_iff_exists.mp hsome
  have htid := List.find?_some htarget
  rw [decide_eq_true_eq] at htid
  simp only [getNearbyRanks, hranked, htarget, htid]
  -- the target is among the rows, and whatever is found has its id
  have hrow : ∀ radius, target ∈ (ranked.filter fun r =>
      target.rank ≤ r.rank + radius ∧ r.rank ≤ target.rank + radius) := fun radius =>
    List.mem_filter.mpr ⟨List.mem_of_find?_eq_some htarget,
      decide_eq_true ⟨Nat.le_add_right _ _, Nat.le_add_right _ _⟩⟩
  have hme : (((ranked.filter fun r => target.rank ≤ r.rank + radius ∧ r.rank ≤ target.rank + radius)
      |>.insertionSort fun a b => a.rank < b.rank ∨ (a.rank = b.rank ∧ a.username ≤ b.username)).find?
        (·.userId = u.1)).isSome :=
    List.find?_isSome.mpr ⟨target, (List.mem_insertionSort _).mpr (hrow radius), decide_eq_true htid⟩
  obtain ⟨e, he⟩ := Option.isSome_iff_exists.mp hme
  refine ⟨e, he, ?_⟩
  have hmem := (List.mem_insertionSort _).mp (List.mem_of_find?_eq_some he)
  have hid := List.find?_some he
  rw [decide_eq_true_eq] at hid
  rw [← hranked] at hmem
  obtain ⟨v, hv, rfl⟩ := List.mem_map.mp (List.mem_of_mem_filter hmem)
  rw [← eq_of_fst_eq hv hu hid]
  rfl

/-- **All rank views agree** on a user. -/
def ViewsAgree (username : String → String) (db : Database) (period : RankingPeriod)
    (u : String × Int × Int) : Prop :=
  ∃ rank, getUserRank db u.1 period = some rank ∧
    (∃ e ∈ getLeaderboard db period (getTotalParticipants db period) 0, e.userId = u.1) ∧
    (∀ limit offset, ∀ e ∈ getLeaderboard db period limit offset, e.userId = u.1 → e.rank = rank) ∧
    (∀ radius, ∃ e, (getNearbyRanks username db u.1 period radius).me = some e ∧ e.rank = rank) ∧
    (∃ e ∈ calculateAllRanks db period, e.userId = u.1) ∧
    (∀ e ∈ calculateAllRanks db period, e.userId = u.1 → e.rank = rank) ∧
    IsNextXp db period u.2.1 (getNextRankXp db period rank)

theorem exists_in_leaderboard {u : String × Int × Int} (hu : u ∈ participants db period) :
    ∃ e ∈ getLeaderboard db period (getTotalParticipants db period) 0, e.userId = u.1 := by
  refine ⟨rankRow (participants db period) u, ?_, rfl⟩
  rw [getLeaderboard_eq, List.drop_zero, List.take_of_length_le]
  · exact List.mem_map_of_mem (ordered_perm.mem_iff.mpr hu)
  · rw [List.length_map, ordered_perm.length_eq]
    exact Nat.le_refl _

/-- **When all rank views agree**: just when no participant with the same XP has the older account. -/
theorem viewsAgree_iff (username : String → String) (db : Database) (period : RankingPeriod)
    (u : String × Int × Int) (hu : u ∈ participants db period) :
    ViewsAgree username db period u ↔
      ∀ v ∈ participants db period, v.2.1 = u.2.1 → u.2.2 ≤ v.2.2 := by
  rw [← countP_ahead_iff]
  constructor
  · rintro ⟨rank, hrank, -, -, -, ⟨e, he, hid⟩, hfull, -⟩
    rw [getUserRank_eq hu, Option.some.injEq] at hrank
    rw [hrank, ← hfull e he hid]
    exact rank_of_mem_calculateAllRanks hu he hid
  · intro hrank
    refine ⟨_, getUserRank_eq hu, exists_in_leaderboard hu, ?_, ?_,
      exists_mem_calculateAllRanks hu, ?_, isNextXp_getNextRankXp hu⟩
    · intro limit offset e he hid
      rw [getLeaderboard_eq] at he
      rw [hrank]
      exact rank_of_mem_map ordered_perm hu (List.mem_of_mem_drop (List.mem_of_mem_take he)) hid
    · intro radius
      rw [hrank]
      exact me_getNearbyRanks username hu radius
    · intro e he hid
      rw [hrank]
      exact rank_of_mem_calculateAllRanks hu he hid

/-- The older one of two players who are tied. -/
theorem viewsAgree_older : ViewsAgree id (twoPlayers 10 10) .allTime ("a", 10, 1) :=
  (viewsAgree_iff id (twoPlayers 10 10) .allTime ("a", 10, 1) (by decide +kernel)).mpr
    (by decide +kernel)

/-- **The younger one is first by XP and second on the leaderboard.** -/
theorem younger_tied_first : ¬ ViewsAgree id (twoPlayers 10 10) .allTime ("b", 10, 2) := by
  rintro ⟨rank, hrank, -, -, -, -, hfull, -⟩
  have hfirst : getUserRank (twoPlayers 10 10) "b" .allTime = some 1 := by decide +kernel
  have hsecond : (⟨"b", 10, 2, none⟩ : CalculatedRank) ∈ calculateAllRanks (twoPlayers 10 10) .allTime := by
    decide +kernel
  rw [hfirst, Option.some.injEq] at hrank
  have htwo : (2 : Nat) = rank := hfull _ hsecond rfl
  omega

end QuizBackend.Ranking.RankViews
