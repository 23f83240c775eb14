import QuizBackend.Streak.Cache
import Mathlib.Data.List.Induction

/-!
# The cache, the history and the backfill

`StreakTrio.ofHistory` says what the three columns are *for*: the most recent completion day,
the run of consecutive days that ends there, and the longest run anywhere. This file proves that
folding the hot path over a history in order computes it, and says exactly when the backfill
leaves a row the hot path can go on from.

The two algorithms of `user-streak.algorithm.ts` get one lemma each. The backward walk is
determined by the days it meets (`computeCurrentStreak_eq_iff`). The run-length scan, on a
descending list, peels off its first day (`computeLongestStreak_cons`): the longest run either
ends at the latest day or lies in the rest.
-/

namespace QuizBackend.Streak

open Lib StreakTrio LongestLoop

/-! ## The backward walk -/

private theorem walkBack_spec (days : List Int) (fuel current : Nat) (cursor : Int) :
    ∃ k, walkBack days fuel current cursor = current + k ∧ k ≤ fuel ∧
      (∀ i : Nat, i < k → cursor - i ∈ days) ∧ (k < fuel → cursor - k ∉ days) := by
  induction fuel generalizing current cursor with
  | zero => exact ⟨0, rfl, Nat.le_refl 0, fun i hi => absurd hi (Nat.not_lt_zero i),
      fun h => absurd h (Nat.lt_irrefl 0)⟩
  | succ fuel ih =>
    by_cases hc : cursor ∈ days
    · obtain ⟨k, heq, hle, hin, hout⟩ := ih (current + 1) (utcDaySubtract cursor 1)
      refine ⟨k + 1, ?_, by omega, ?_, ?_⟩
      · rw [walkBack, if_pos hc, heq]
        omega
      · intro i hi
        cases i with
        | zero => simpa using hc
        | succ i =>
          have := hin i (by omega)
          rwa [utcDaySubtract, show cursor - (1 : Nat) - (i : Int) = cursor - ((i + 1 : Nat) : Int)
            by omega] at this
      · intro h
        have := hout (by omega)
        rwa [utcDaySubtract, show cursor - (1 : Nat) - (k : Int) = cursor - ((k + 1 : Nat) : Int)
          by omega] at this
    · refine ⟨0, by rw [walkBack, if_neg hc]; rfl, Nat.zero_le _,
        fun i hi => absurd hi (Nat.not_lt_zero i), ?_⟩
      intro _
      simpa using hc

variable {days finishedAt : List Int} {d today : Int}

theorem length_of_consecutive {n : Nat} (h : ∀ i : Nat, i < n → d - i ∈ days) :
    n ≤ days.length := by
  have hnodup : ((List.range n).map fun i : Nat => d - (i : Int)).Nodup := by
    refine (List.nodup_range (n := n)).map_on ?_
    intro i _ j _ hij
    omega
  have hsub : ((List.range n).map fun i : Nat => d - (i : Int)) ⊆ days := by
    intro x hx
    obtain ⟨i, hi, rfl⟩ := List.mem_map.mp hx
    exact h i (List.mem_range.mp hi)
  simpa using (List.subperm_of_subset hnodup hsub).length_le

/-- **The walk stops at the first missing day**, and the bound never cuts it short. -/
theorem computeCurrentStreak_eq_iff {k : Nat} :
    computeCurrentStreak days today = k ↔
      (∀ i : Nat, i < k → today - i ∈ days) ∧ today - k ∉ days := by
  obtain ⟨n, heq, hle, hin, hout⟩ := walkBack_spec days days.length 0 today
  have hstop : today - n ∉ days := by
    rcases Nat.lt_or_ge n days.length with hlt | hge
    · exact hout hlt
    · intro hmem
      -- one more consecutive day than the list has entries
      have : n + 1 ≤ days.length := length_of_consecutive fun i hi => by
        rcases Nat.lt_succ_iff_lt_or_eq.mp hi with h | rfl
        · exact hin i h
        · exact hmem
      omega
  have hn : computeCurrentStreak days today = n := by
    rw [computeCurrentStreak, heq, Nat.zero_add]
  rw [hn]
  constructor
  · rintro rfl
    exact ⟨hin, hstop⟩
  · rintro ⟨hk, hkout⟩
    rcases Nat.lt_trichotomy n k with hlt | rfl | hgt
    · exact absurd (hk n hlt) hstop
    · rfl
    · exact absurd (hin k hgt) hkout

theorem computeCurrentStreak_of_notMem (h : d ∉ days) : computeCurrentStreak days d = 0 := by
  refine computeCurrentStreak_eq_iff.mpr ⟨fun i hi => absurd hi (Nat.not_lt_zero i), ?_⟩
  simpa using h

theorem computeCurrentStreak_of_mem (h : d ∈ days) :
    computeCurrentStreak days d = computeCurrentStreak days (d - 1) + 1 := by
  obtain ⟨hin, hout⟩ := computeCurrentStreak_eq_iff.mp
    (rfl : computeCurrentStreak days (d - 1) = computeCurrentStreak days (d - 1))
  refine computeCurrentStreak_eq_iff.mpr ⟨?_, ?_⟩
  · intro i hi
    cases i with
    | zero => simpa using h
    | succ i =>
      have := hin i (by omega)
      rwa [show d - 1 - (i : Int) = d - ((i + 1 : Nat) : Int) by omega] at this
  · rwa [show d - 1 - (computeCurrentStreak days (d - 1) : Int)
      = d - ((computeCurrentStreak days (d - 1) + 1 : Nat) : Int) by omega] at hout

theorem computeCurrentStreak_pos : 0 < computeCurrentStreak days d ↔ d ∈ days := by
  by_cases h : d ∈ days
  · rw [computeCurrentStreak_of_mem h]
    exact ⟨fun _ => h, fun _ => Nat.succ_pos _⟩
  · rw [computeCurrentStreak_of_notMem h]
    exact ⟨fun hlt => absurd hlt (Nat.lt_irrefl 0), fun hd => absurd hd h⟩

theorem computeCurrentStreak_congr {A B : List Int} (h : ∀ x ≤ d, x ∈ A ↔ x ∈ B) :
    computeCurrentStreak A d = computeCurrentStreak B d := by
  obtain ⟨hin, hout⟩ := computeCurrentStreak_eq_iff.mp
    (rfl : computeCurrentStreak B d = computeCurrentStreak B d)
  refine computeCurrentStreak_eq_iff.mpr ⟨fun i hi => (h _ (by omega)).mpr (hin i hi), ?_⟩
  exact fun hmem => hout ((h _ (by omega)).mp hmem)

theorem computeCurrentStreak_cons_self :
    computeCurrentStreak (d :: days) d = computeCurrentStreak days (d - 1) + 1 := by
  rw [computeCurrentStreak_of_mem (List.mem_cons_self ..)]
  congr 1
  refine computeCurrentStreak_congr fun x hx => ⟨?_, List.mem_cons_of_mem d⟩
  intro hm
  rcases List.mem_cons.mp hm with rfl | hm
  · omega
  · exact hm

/-! ## The run-length scan -/

/-- The scan of a descending tail, from any loop state: the run in progress goes on as long as
the tail continues `prev`, and the rest is a scan of its own. -/
private theorem longestLoop_spec {xs : List Int} {L r : Nat} {p : Int} (hr : r ≤ L)
    (hx : (p :: xs).Pairwise (· > ·)) :
    (xs.foldl next ⟨L, some p, r⟩).longest
      = max L (max (r + computeCurrentStreak xs (p - 1)) (computeLongestStreak xs)) := by
  induction xs generalizing L r p with
  | nil =>
    have hzero : computeCurrentStreak [] (p - 1) = 0 := rfl
    have hnil : computeLongestStreak [] = 0 := rfl
    rw [List.foldl_nil, hzero, hnil]
    show L = max L (max (r + 0) 0)
    omega
  | cons y ys ih =>
    obtain ⟨hp, hys⟩ := List.pairwise_cons.mp hx
    have hlt : y < p := hp y (List.mem_cons_self ..)
    have hbelow : ∀ z ∈ ys, z < y := fun z hz => (List.pairwise_cons.mp hys).1 z hz
    -- the scan that starts at `y`
    have hscan : computeLongestStreak (y :: ys)
        = max 1 (max (1 + computeCurrentStreak ys (y - 1)) (computeLongestStreak ys)) := by
      rw [computeLongestStreak, List.foldl_cons]
      exact ih (Nat.le_refl 1) hys
    rw [List.foldl_cons, hscan]
    by_cases hnext : y = p - 1
    · have hstep : next ⟨L, some p, r⟩ y = ⟨max L (r + 1), some y, r + 1⟩ := by
        simp only [next, utcDaySubtract, Int.ofNat_one, hnext, if_true]
        congr 1
        split <;> omega
      rw [hstep, ih (by omega) hys, ← hnext,
        computeCurrentStreak_cons_self]
      omega
    · have hstep : next ⟨L, some p, r⟩ y = ⟨max L 1, some y, 1⟩ := by
        simp only [next, utcDaySubtract, Int.ofNat_one, hnext, if_false]
        congr 1
        split <;> omega
      have hmiss : p - 1 ∉ y :: ys := by
        intro hm
        rcases List.mem_cons.mp hm with h | hm
        · exact hnext h.symm
        · have := hbelow _ hm
          omega
      rw [hstep, ih (by omega) hys, computeCurrentStreak_of_notMem hmiss]
      omega

/-- **The scan peels off its first day.** -/
theorem computeLongestStreak_cons (h : (d :: days).Pairwise (· > ·)) :
    computeLongestStreak (d :: days)
      = max (computeCurrentStreak days (d - 1) + 1) (computeLongestStreak days) := by
  have hscan : computeLongestStreak (d :: days)
      = max 1 (max (1 + computeCurrentStreak days (d - 1)) (computeLongestStreak days)) := by
    rw [computeLongestStreak, List.foldl_cons]
    exact longestLoop_spec (Nat.le_refl 1) h
  rw [hscan]
  omega

/-! ## The distinct days of a history -/

theorem mem_fetchDistinctCompletionDays :
    d ∈ fetchDistinctCompletionDays finishedAt ↔ d ∈ finishedAt.map utcDay := by
  rw [fetchDistinctCompletionDays, List.mem_insertionSort, List.mem_dedup]

theorem fetchDistinctCompletionDays_pairwise (finishedAt : List Int) :
    (fetchDistinctCompletionDays finishedAt).Pairwise (· > ·) := by
  have hge : (fetchDistinctCompletionDays finishedAt).Pairwise (· ≥ ·) :=
    List.pairwise_insertionSort _ _
  have hne : (fetchDistinctCompletionDays finishedAt).Pairwise (· ≠ ·) :=
    (List.perm_insertionSort _ _).nodup_iff.mpr (List.nodup_dedup _)
  exact (hge.and hne).imp fun ⟨h₁, h₂⟩ => by omega

theorem fetchDistinctCompletionDays_snoc {t : Int} (h : ∀ d ∈ finishedAt.map utcDay, d ≤ utcDay t) :
    fetchDistinctCompletionDays (finishedAt ++ [t])
      = if utcDay t ∈ finishedAt.map utcDay then fetchDistinctCompletionDays finishedAt
        else utcDay t :: fetchDistinctCompletionDays finishedAt := by
  refine (fetchDistinctCompletionDays_pairwise _).eq_of_mem_iff ?_ ?_
  · split
    · exact fetchDistinctCompletionDays_pairwise _
    · rename_i hnew
      refine List.pairwise_cons.mpr ⟨?_, fetchDistinctCompletionDays_pairwise _⟩
      intro d hd
      have hmem := mem_fetchDistinctCompletionDays.mp hd
      have hne : d ≠ utcDay t := fun he => hnew (he ▸ hmem)
      have := h d hmem
      omega
  · intro d
    rw [mem_fetchDistinctCompletionDays, List.map_append, List.mem_append]
    split
    · rename_i hold
      rw [mem_fetchDistinctCompletionDays]
      constructor
      · rintro (hd | hd)
        · exact hd
        · rw [List.mem_singleton.mp hd]; exact hold
      · exact Or.inl
    · rw [List.mem_cons, mem_fetchDistinctCompletionDays, List.map_singleton,
        List.mem_singleton, or_comm]

theorem head?_fetchDistinctCompletionDays (hd : d ∈ finishedAt.map utcDay)
    (hmax : ∀ x ∈ finishedAt.map utcDay, x ≤ d) :
    (fetchDistinctCompletionDays finishedAt).head? = some d := by
  have hdesc := fetchDistinctCompletionDays_pairwise finishedAt
  have hmem := mem_fetchDistinctCompletionDays.mpr hd
  cases hdays : fetchDistinctCompletionDays finishedAt with
  | nil => rw [hdays] at hmem; cases hmem
  | cons x xs =>
    have hx : x ≤ d := hmax x (mem_fetchDistinctCompletionDays.mp (by simp [hdays]))
    rw [hdays] at hdesc hmem
    rcases List.mem_cons.mp hmem with rfl | hm
    · rfl
    · have : d < x := (List.pairwise_cons.mp hdesc).1 d hm
      omega

/-! ## What the cache is for -/

def StreakTrio.ofHistory (days : List Int) : StreakTrio :=
  { currentStreak := (days.head?.map (computeCurrentStreak days)).getD 0
    longestStreak := computeLongestStreak days
    lastStreakDay := days.head? }

section

variable (h : (d :: days).Pairwise (· > ·))
include h

theorem streakUpdate_ofHistory_same :
    streakUpdate (.ofHistory (d :: days)) d = .ofHistory (d :: days) := by
  have hle : computeCurrentStreak (d :: days) d ≤ computeLongestStreak (d :: days) := by
    rw [computeLongestStreak_cons h, computeCurrentStreak_cons_self]
    omega
  simp [streakUpdate, newCurrent, greatestDay, ofHistory, hle]

theorem newCurrent_ofHistory :
    newCurrent (.ofHistory days) d = computeCurrentStreak (d :: days) d := by
  rw [computeCurrentStreak_cons_self]
  cases days with
  | nil => rfl
  | cons last rest =>
    have hlt : last < d := (List.pairwise_cons.mp h).1 last (List.mem_cons_self ..)
    have hrest : ∀ x ∈ rest, x < last :=
      (List.pairwise_cons.mp (List.pairwise_cons.mp h).2).1
    have h₁ : ¬ d < last := by omega
    have h₂ : ¬ d = last := by omega
    by_cases hnext : d = last + 1
    · rw [show d - 1 = last by omega]
      simp only [newCurrent, ofHistory, List.head?_cons]
      rw [if_neg h₁, if_neg h₂, if_pos hnext]
      rfl
    · have hmiss : d - 1 ∉ last :: rest := by
        intro hm
        rcases List.mem_cons.mp hm with he | hm
        · omega
        · have := hrest _ hm
          omega
      rw [computeCurrentStreak_of_notMem hmiss]
      simp only [newCurrent, ofHistory, List.head?_cons]
      rw [if_neg h₁, if_neg h₂, if_neg hnext]

theorem streakUpdate_ofHistory_new :
    streakUpdate (.ofHistory days) d = .ofHistory (d :: days) := by
  have hlast : greatestDay (ofHistory days).lastStreakDay d = d := by
    cases days with
    | nil => rfl
    | cons last rest =>
      have hlt : last < d := (List.pairwise_cons.mp h).1 last (List.mem_cons_self ..)
      show max last d = d
      omega
  have hlong : max (ofHistory days).longestStreak (computeCurrentStreak (d :: days) d)
      = computeLongestStreak (d :: days) := by
    rw [computeLongestStreak_cons h, computeCurrentStreak_cons_self]
    exact Nat.max_comm _ _
  rw [streakUpdate, newCurrent_ofHistory h, hlast, hlong]
  rfl

end

/-- **The hot path computes the history**, when the completions commit in the order of their
days. -/
theorem foldl_streakUpdate_ofHistory (h : (finishedAt.map utcDay).Pairwise (· ≤ ·)) :
    (finishedAt.map utcDay).foldl streakUpdate .initial
      = .ofHistory (fetchDistinctCompletionDays finishedAt) := by
  induction finishedAt using List.reverseRecOn with
  | nil => rfl
  | append_singleton ts t ih =>
    rw [List.map_append, List.pairwise_append] at h
    obtain ⟨hts, -, hlast⟩ := h
    have hle : ∀ d ∈ ts.map utcDay, d ≤ utcDay t := fun d hd => hlast d hd _ (by simp)
    rw [List.map_append, List.foldl_append, ih hts, fetchDistinctCompletionDays_snoc hle]
    have hdesc := fetchDistinctCompletionDays_pairwise ts
    by_cases hold : utcDay t ∈ ts.map utcDay
    · rw [if_pos hold]
      -- the day is there and nothing is later: it is the first of the list
      have hhead := head?_fetchDistinctCompletionDays hold hle
      obtain ⟨days, hdays⟩ := List.head?_eq_some_iff.mp hhead
      rw [hdays] at hdesc ⊢
      rw [List.map_singleton, List.foldl_cons, List.foldl_nil]
      exact streakUpdate_ofHistory_same hdesc
    · rw [if_neg hold, List.map_singleton, List.foldl_cons, List.foldl_nil]
      refine streakUpdate_ofHistory_new (List.pairwise_cons.mpr ⟨?_, hdesc⟩)
      intro d hd
      have hmem := mem_fetchDistinctCompletionDays.mp hd
      have hne : d ≠ utcDay t := fun he => hold (he ▸ hmem)
      have := hle d hmem
      omega

/-- **The streak cache refines the day history.** After completions whose days never go back,
the row of a live user holds the latest day, the walk that ends there and the longest run. -/
theorem hotPath_refines_history (row : UserRow) (finishedAt : List Int)
    (hrow : row.streak = .initial) (halive : row.deletedAt = none) (hne : finishedAt ≠ [])
    (hmono : (finishedAt.map utcDay).Pairwise (· ≤ ·)) :
    (finishedAt.foldl updateStreak row).streak =
      { currentStreak := computeCurrentStreak (fetchDistinctCompletionDays finishedAt)
          (utcDay (finishedAt.getLast hne))
        longestStreak := computeLongestStreak (fetchDistinctCompletionDays finishedAt)
        lastStreakDay := some (utcDay (finishedAt.getLast hne)) } := by
  have hlast : utcDay (finishedAt.getLast hne) ∈ finishedAt.map utcDay :=
    List.mem_map_of_mem (List.getLast_mem hne)
  have hmax : ∀ x ∈ finishedAt.map utcDay, x ≤ utcDay (finishedAt.getLast hne) := by
    rw [← List.dropLast_append_getLast hne, List.map_append, List.pairwise_append] at hmono
    intro x hx
    rw [← List.dropLast_append_getLast hne, List.map_append, List.mem_append] at hx
    rcases hx with hx | hx
    · exact hmono.2.2 x hx _ (by simp)
    · rw [List.map_singleton, List.mem_singleton] at hx
      exact Int.le_of_eq hx
  rw [(foldl_updateStreak halive finishedAt).1, hrow, foldl_streakUpdate_ofHistory hmono,
    StreakTrio.ofHistory, head?_fetchDistinctCompletionDays hlast hmax]
  rfl

/-- Three days in a row, then one after a gap. -/
theorem hotPath_refines_history_gap :
    ([0, 1, 86400000, 172800000, 432000000].foldl updateStreak
      ⟨0x01900000000070008000000000000001, .initial, none⟩).streak = ⟨1, 3, some 5⟩ :=
  hotPath_refines_history ⟨0x01900000000070008000000000000001, .initial, none⟩
    [0, 1, 86400000, 172800000, 432000000] rfl rfl (by decide) (by decide)

/-! ## The backfill -/

theorem backfillOneUser_row {row : UserRow} (h : row.deletedAt = none) (finishedAt : List Int)
    (today : Int) :
    (backfillOneUser row finishedAt today false).1.streak
        = computeBackfillTrio (fetchDistinctCompletionDays finishedAt) today ∧
      (backfillOneUser row finishedAt today false).1.deletedAt = none :=
  writeStreakCache_row h _

theorem computeBackfillTrio_of_mem (h : days.head? = some today) :
    computeBackfillTrio days today = .ofHistory days := by
  have hpos : 0 < computeCurrentStreak days today :=
    computeCurrentStreak_pos.mpr (List.mem_of_mem_head? h)
  simp [computeBackfillTrio, ofHistory, h, hpos]

theorem computeBackfillTrio_of_notMem (h : today ∉ days) :
    computeBackfillTrio days today = ⟨0, computeLongestStreak days, none⟩ := by
  simp [computeBackfillTrio, computeCurrentStreak_of_notMem h]

theorem streakUpdate_of_reset (L : Nat) (e : Int) :
    streakUpdate ⟨0, L, none⟩ e = ⟨1, max L 1, some e⟩ := rfl

/-- **Backfill and hot path agree** on the next completion exactly when the user has played
today, or had no streak to continue, or completes the next attempt later than today. -/
theorem backfill_agrees_iff (row prior : UserRow) (history : List Int) (today e : Int)
    (hrow : row.streak = .initial) (halive : row.deletedAt = none)
    (hprior : prior.deletedAt = none) (hmono : (history.map utcDay).Pairwise (· ≤ ·))
    (htoday : ∀ d ∈ history.map utcDay, d ≤ today) (he : today ≤ utcDay e) :
    (updateStreak (backfillOneUser prior history today false).1 e).streak
        = (updateStreak (history.foldl updateStreak row) e).streak ↔
      today ∈ history.map utcDay ∨ today - 1 ∉ history.map utcDay ∨ utcDay e ≠ today := by
  obtain ⟨hback, hbackAlive⟩ := backfillOneUser_row hprior history today
  obtain ⟨hhot, hhotAlive⟩ := foldl_updateStreak halive history
  rw [updateStreak_streak hbackAlive, updateStreak_streak hhotAlive, hback, hhot, hrow,
    foldl_streakUpdate_ofHistory hmono]
  generalize hdays : fetchDistinctCompletionDays history = days
  have hdesc : days.Pairwise (· > ·) := hdays ▸ fetchDistinctCompletionDays_pairwise history
  have hmem : ∀ d, d ∈ history.map utcDay ↔ d ∈ days := fun d => by
    rw [← hdays, mem_fetchDistinctCompletionDays]
  simp only [hmem] at htoday ⊢
  by_cases hplayed : today ∈ days
  · -- the backfill leaves the very row of the hot path
    have hhead : days.head? = some today := by
      rw [← hdays]
      exact head?_fetchDistinctCompletionDays ((hmem today).mpr hplayed)
        fun x hx => htoday x ((hmem x).mp hx)
    rw [computeBackfillTrio_of_mem hhead]
    exact ⟨fun _ => .inl hplayed, fun _ => rfl⟩
  · rw [computeBackfillTrio_of_notMem hplayed, streakUpdate_of_reset]
    have hlater : ∀ d ∈ days, d < today := fun d hd => by
      have hne : d ≠ today := fun he => hplayed (he ▸ hd)
      have := htoday d hd
      omega
    have hnew : (utcDay e :: days).Pairwise (· > ·) :=
      List.pairwise_cons.mpr ⟨fun d hd => by have := hlater d hd; omega, hdesc⟩
    rw [streakUpdate_ofHistory_new hnew, StreakTrio.ofHistory, computeLongestStreak_cons hnew]
    simp only [List.head?_cons, Option.map_some, Option.getD_some, computeCurrentStreak_cons_self,
      hplayed, false_or, StreakTrio.mk.injEq, and_true]
    by_cases hyesterday : utcDay e - 1 ∈ days
    · -- the hot path continues the run, the backfilled row starts a new one
      have hpos := computeCurrentStreak_pos.mpr hyesterday
      have heq : utcDay e = today := by have := hlater _ hyesterday; omega
      rw [heq] at hyesterday hpos ⊢
      constructor
      · rintro ⟨h, -⟩
        omega
      · rintro (h | h)
        · exact absurd hyesterday h
        · exact absurd rfl h
    · rw [computeCurrentStreak_of_notMem hyesterday]
      refine ⟨?_, fun _ => ⟨rfl, Nat.max_comm _ _⟩⟩
      intro _
      by_cases heq : utcDay e = today
      · exact .inl (heq ▸ hyesterday)
      · exact .inr heq

theorem backfill_agrees_when_played_today :
    (updateStreak (backfillOneUser
        ⟨0x01900000000070008000000000000001, .initial, none⟩ [0, 86400000] 1 false).1
        172800000).streak
      = (updateStreak ([0, 86400000].foldl updateStreak
        ⟨0x01900000000070008000000000000001, .initial, none⟩) 172800000).streak :=
  (backfill_agrees_iff ⟨0x01900000000070008000000000000001, .initial, none⟩
    ⟨0x01900000000070008000000000000001, .initial, none⟩ [0, 86400000] 1 172800000
    rfl rfl rfl (by decide) (by decide) (by decide)).mpr (by decide)

/-- Played yesterday, backfilled today, plays again today: the streak of two becomes one. -/
theorem backfill_drops_yesterday :
    (∀ d ∈ [0].map utcDay, d ≤ 1) ∧ 1 ≤ utcDay 86400000 ∧
    (updateStreak (backfillOneUser
        ⟨0x01900000000070008000000000000001, ⟨1, 1, some 0⟩, none⟩ [0] 1 false).1
        86400000).streak = ⟨1, 1, some 1⟩ ∧
    (updateStreak ([0].foldl updateStreak
        ⟨0x01900000000070008000000000000001, .initial, none⟩) 86400000).streak
      = ⟨2, 2, some 1⟩ := by
  decide

end QuizBackend.Streak
