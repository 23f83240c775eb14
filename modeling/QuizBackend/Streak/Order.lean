import QuizBackend.Streak.History

/-!
# Commit order and the streak cache

`finishedAt` is taken before the transaction, so completions around midnight may commit out of
the order of their days. `GREATEST(u.last_streak_day, …)` keeps `last_streak_day` right whatever
the order; the two counters are another matter. A day that commits after a later one is dropped,
and with it the run it belongs to.

The file says exactly which sets of days are safe. In any order the streak that stands at a day
is at most the run that ends there (`Between`), ascending order attains the run
(`foldl_ascending`), and putting the latest day first throws every other day away
(`foldl_latest_first`). The order is irrelevant just when these two extremes agree.
-/

namespace QuizBackend.Streak

open Lib
open List (foldl_cons mem_cons_of_mem mem_cons_self)

section

variable (u : StreakTrio)

def isNew (d : Int) : Bool :=
  match u.lastStreakDay with
  | none => true
  | some last => last < d

def newDays (days : List Int) : List Int := days.filter (isNew u)

/-- The streak that ends at `d` once all the days of `S` are in: the run of consecutive days of
`S`, with the streak of the row added when the run follows on `last_streak_day`. -/
def runAt (S : List Int) (d : Int) : Nat :=
  let k := computeCurrentStreak S d
  if u.lastStreakDay = some (d - k) then u.currentStreak + k else k

/-- At most one new day; or the latest new day follows no other, and no run among the new days
beats the longest streak there is already. -/
def OrderSafe (days : List Int) : Prop :=
  (∀ a ∈ newDays u days, ∀ b ∈ newDays u days, a = b) ∨
  ((∀ m ∈ newDays u days, (∀ x ∈ newDays u days, x ≤ m) → m - 1 ∉ newDays u days) ∧
    ∀ d ∈ newDays u days, runAt u (newDays u days) d ≤ max u.longestStreak 1)

end

instance (u : StreakTrio) (days : List Int) : Decidable (OrderSafe u days) :=
  inferInstanceAs (Decidable (_ ∨ _))

variable {days : List Int} {m x : Int} {v : StreakTrio}

theorem mem_newDays {u : StreakTrio} {d : Int} :
    d ∈ newDays u days ↔ d ∈ days ∧ ∀ l, u.lastStreakDay = some l → l < d := by
  unfold newDays isNew
  rw [List.mem_filter]
  cases u.lastStreakDay with
  | none => simp
  | some l => simp

theorem exists_last_of_not_new {u : StreakTrio} {d : Int}
    (h : ¬ ∀ l, u.lastStreakDay = some l → l < d) :
    ∃ l, u.lastStreakDay = some l ∧ ¬ l < d := by
  by_contra hno
  exact h fun l hl => by_contra fun hlt => hno ⟨l, hl, hlt⟩

/-! ## Runs -/

section Runs

variable {u : StreakTrio} {S : List Int} {d : Int}

theorem runAt_of_mem (hd : d ∈ S) : runAt u S d = runAt u S (d - 1) + 1 := by
  have hk := computeCurrentStreak_of_mem hd
  have hstart : d - ((computeCurrentStreak S (d - 1) + 1 : Nat) : Int)
      = d - 1 - (computeCurrentStreak S (d - 1) : Int) := by omega
  simp only [runAt, hk, hstart]
  split <;> omega

theorem runAt_of_notMem (hd : d ∉ S) :
    runAt u S d = if u.lastStreakDay = some d then u.currentStreak else 0 := by
  simp [runAt, computeCurrentStreak_of_notMem hd]

theorem runAt_pos (hd : d ∈ S) : 1 ≤ runAt u S d := by
  rw [runAt_of_mem hd]
  omega

end Runs

/-! ## One update -/

theorem newCurrent_old {u : StreakTrio} {d : Int} (hm : u.lastStreakDay = some m) (h : d ≤ m) :
    newCurrent u d = u.currentStreak := by
  simp only [newCurrent, hm]
  by_cases hlt : d < m
  · rw [if_pos hlt]
  · rw [if_neg hlt, if_pos (by omega)]

theorem newCurrent_new {u : StreakTrio} {d : Int} (h : ∀ l, u.lastStreakDay = some l → l < d) :
    newCurrent u d = if u.lastStreakDay = some (d - 1) then u.currentStreak + 1 else 1 := by
  cases hl : u.lastStreakDay with
  | none => simp [newCurrent, hl]
  | some l =>
    have hlt := h l hl
    simp only [newCurrent, hl, Option.some.injEq]
    rw [if_neg (by omega), if_neg (by omega)]
    by_cases hn : d = l + 1
    · rw [if_pos hn, if_pos (by omega)]
    · rw [if_neg hn, if_neg (by omega)]

theorem streakUpdate_old {u : StreakTrio} {d : Int} (hu : u.currentStreak ≤ u.longestStreak)
    (hm : u.lastStreakDay = some m) (h : d ≤ m) : streakUpdate u d = u := by
  have hlast : some (greatestDay u.lastStreakDay d) = u.lastStreakDay := by
    rw [hm, greatestDay, Int.max_eq_left h]
  rw [streakUpdate, newCurrent_old hm h, hlast, Nat.max_eq_left hu]

theorem lastStreakDay_new {u : StreakTrio} {d : Int} (h : ∀ l, u.lastStreakDay = some l → l < d) :
    (streakUpdate u d).lastStreakDay = some d := by
  cases hl : u.lastStreakDay with
  | none => simp [streakUpdate, greatestDay, hl]
  | some l =>
    have hlt := h l hl
    simp only [streakUpdate, greatestDay, hl]
    congr 1
    omega

theorem foldl_streakUpdate_old {u : StreakTrio} (hu : u.currentStreak ≤ u.longestStreak)
    (hm : u.lastStreakDay = some m) (h : ∀ d ∈ days, d ≤ m) : days.foldl streakUpdate u = u := by
  induction days with
  | nil => rfl
  | cons d ds ih =>
    rw [foldl_cons, streakUpdate_old hu hm (h d (mem_cons_self ..))]
    exact ih fun x hx => h x (mem_cons_of_mem d hx)

theorem currentStreak_le_longestStreak (days : List Int) :
    (days.foldl streakUpdate .initial).currentStreak
      ≤ (days.foldl streakUpdate .initial).longestStreak := by
  induction days using List.reverseRecOn with
  | nil => exact Nat.le_refl 0
  | append_singleton ds d _ =>
    rw [List.foldl_append, foldl_cons, List.foldl_nil]
    exact Nat.le_max_right _ _

/-! ## Any order -/

structure Between (u : StreakTrio) (S : List Int) (m : Int) (v : StreakTrio) : Prop where
  last : v.lastStreakDay = some m
  mem : m ∈ S
  pos : 1 ≤ v.currentStreak
  current_le : v.currentStreak ≤ runAt u S m
  within : v.currentStreak ≤ v.longestStreak
  grows : u.longestStreak ≤ v.longestStreak
  longest_le : v.longestStreak ≤ u.longestStreak ∨ ∃ d ∈ S, v.longestStreak ≤ runAt u S d

private theorem Between.of_new {u : StreakTrio} {S : List Int} {d : Int} (hd : d ∈ S)
    (hnew : ∀ l, v.lastStreakDay = some l → l < d) (hrun : newCurrent v d ≤ runAt u S d)
    (hgrow : u.longestStreak ≤ v.longestStreak)
    (hlong : v.longestStreak ≤ u.longestStreak ∨ ∃ d ∈ S, v.longestStreak ≤ runAt u S d) :
    Between u S d (streakUpdate v d) where
  last := lastStreakDay_new hnew
  mem := hd
  pos := by
    show 1 ≤ newCurrent v d
    rw [newCurrent_new hnew]
    split <;> omega
  current_le := hrun
  within := Nat.le_max_right _ _
  grows := Nat.le_trans hgrow (Nat.le_max_left _ _)
  longest_le := by
    show max v.longestStreak (newCurrent v d) ≤ _ ∨
      ∃ x ∈ S, max v.longestStreak (newCurrent v d) ≤ _
    rcases Nat.le_total v.longestStreak (newCurrent v d) with h | h
    · rw [Nat.max_eq_right h]
      exact .inr ⟨d, hd, hrun⟩
    · rw [Nat.max_eq_left h]
      exact hlong

theorem Between.first {u : StreakTrio} {S : List Int} {d : Int} (hd : d ∈ S)
    (hS : ∀ x ∈ S, ∀ l, u.lastStreakDay = some l → l < x) :
    Between u S d (streakUpdate u d) := by
  refine .of_new hd (hS d hd) ?_ (Nat.le_refl _) (.inl (Nat.le_refl _))
  rw [newCurrent_new (hS d hd), runAt_of_mem hd]
  by_cases hl : u.lastStreakDay = some (d - 1)
  · -- `last_streak_day` itself is no new day
    have hmiss : d - 1 ∉ S := fun hm => absurd (hS _ hm _ hl) (Int.lt_irrefl _)
    rw [if_pos hl, runAt_of_notMem hmiss, if_pos hl]
  · rw [if_neg hl]
    omega

theorem Between.next {u : StreakTrio} {S : List Int} {d : Int} (h : Between u S m v)
    (hd : m < d → d ∈ S) : Between u S (max m d) (streakUpdate v d) := by
  by_cases hle : d ≤ m
  · rw [streakUpdate_old h.within h.last hle, Int.max_eq_left hle]
    exact h
  · have hlt : m < d := by omega
    have hnew : ∀ l, v.lastStreakDay = some l → l < d := fun l hl => by
      rw [h.last, Option.some.injEq] at hl
      omega
    rw [Int.max_eq_right (by omega)]
    refine .of_new (hd hlt) hnew ?_ h.grows h.longest_le
    have hcur := h.current_le
    rw [newCurrent_new hnew, h.last, runAt_of_mem (hd hlt)]
    by_cases hm : m = d - 1
    · rw [if_pos (congrArg some hm), ← hm]
      omega
    · rw [if_neg fun he => hm (Option.some.inj he)]
      omega

/-- **Any order of any of the days**: the row is untouched when none of them is new, and else
stands at the latest of them with counters bounded by the runs. -/
theorem foldl_any_order {u : StreakTrio} (hu : u.currentStreak ≤ u.longestStreak) {S : List Int}
    (hS : ∀ x ∈ S, ∀ l, u.lastStreakDay = some l → l < x)
    (hge : ∀ d ∈ days, ∀ l, u.lastStreakDay = some l → l ≤ d) (hsub : newDays u days ⊆ S) :
    (newDays u days = [] ∧ days.foldl streakUpdate u = u) ∨
      ∃ m ∈ newDays u days, (∀ x ∈ newDays u days, x ≤ m) ∧
        Between u S m (days.foldl streakUpdate u) := by
  induction days using List.reverseRecOn with
  | nil => exact .inl ⟨rfl, rfl⟩
  | append_singleton ds d ih =>
    have happ : newDays u (ds ++ [d]) = newDays u ds ++ newDays u [d] := List.filter_append ..
    rw [happ] at hsub ⊢
    rw [List.foldl_append, foldl_cons, List.foldl_nil]
    have hprev := ih (fun x hx => hge x (List.mem_append_left _ hx))
      fun x hx => hsub (List.mem_append_left _ hx)
    by_cases hnew : ∀ l, u.lastStreakDay = some l → l < d
    · have hd : newDays u [d] = [d] := List.filter_eq_self.mpr fun x hx => by
        rw [List.mem_singleton.mp hx]
        exact (List.mem_filter.mp (mem_newDays.mpr ⟨List.mem_singleton_self d, hnew⟩)).2
      rw [hd] at hsub ⊢
      have hdS : d ∈ S := hsub (by simp)
      rcases hprev with ⟨hnil, hsame⟩ | ⟨m, hm, hmax, hb⟩
      · refine .inr ⟨d, by simp, ?_, ?_⟩
        · intro x hx
          rw [hnil, List.nil_append, List.mem_singleton] at hx
          omega
        · rw [hsame]
          exact .first hdS hS
      · refine .inr ⟨max m d, ?_, ?_, hb.next fun _ => hdS⟩
        · rcases Int.le_total m d with h | h
          · rw [Int.max_eq_right h]; simp
          · rw [Int.max_eq_left h]; simp [hm]
        · intro x hx
          rcases List.mem_append.mp hx with hx | hx
          · have := hmax x hx
            omega
          · have := List.mem_singleton.mp hx
            omega
    · -- the day is `last_streak_day` again
      have hd : newDays u [d] = [] := List.filter_eq_nil_iff.mpr fun x hx hx' => by
        rw [List.mem_singleton.mp hx] at hx'
        exact hnew (mem_newDays.mp (List.mem_filter.mpr ⟨List.mem_singleton_self d, hx'⟩)).2
      rw [hd, List.append_nil]
      obtain ⟨l, hl, hnlt⟩ := exists_last_of_not_new hnew
      rcases hprev with ⟨hnil, hsame⟩ | ⟨m, hm, hmax, hb⟩
      · exact .inl ⟨hnil, by rw [hsame, streakUpdate_old hu hl (by omega)]⟩
      · refine .inr ⟨m, hm, hmax, ?_⟩
        have hlt := (mem_newDays.mp hm).2 l hl
        rw [streakUpdate_old hb.within hb.last (by omega)]
        exact hb

/-! ## The two extremes -/

/-- What stands after all the days of `S` up to `m`, in ascending order: the run itself, and
every earlier run within the longest. -/
structure Exact (u : StreakTrio) (S : List Int) (m : Int) (v : StreakTrio) : Prop where
  last : v.lastStreakDay = some m
  mem : m ∈ S
  current : v.currentStreak = runAt u S m
  within : v.currentStreak ≤ v.longestStreak
  longest : ∀ x ∈ S, x ≤ m → runAt u S x ≤ v.longestStreak

theorem Exact.first {u : StreakTrio} {S : List Int} {d : Int} (hd : d ∈ S)
    (hS : ∀ x ∈ S, ∀ l, u.lastStreakDay = some l → l < x) (hmin : ∀ x ∈ S, d ≤ x) :
    Exact u S d (streakUpdate u d) := by
  have hmiss : d - 1 ∉ S := fun hm => by have := hmin _ hm; omega
  have hrun : newCurrent u d = runAt u S d := by
    rw [newCurrent_new (hS d hd), runAt_of_mem hd, runAt_of_notMem hmiss]
    split <;> omega
  refine ⟨lastStreakDay_new (hS d hd), hd, hrun, Nat.le_max_right _ _, ?_⟩
  intro x hx hle
  have heq : x = d := by have := hmin x hx; omega
  rw [heq, ← hrun]
  exact Nat.le_max_right _ _

theorem Exact.next {u : StreakTrio} {S : List Int} {d : Int} (h : Exact u S m v) (hlt : m < d)
    (hd : d ∈ S) (hm : ∀ l, u.lastStreakDay = some l → l < m) (hgap : ∀ x ∈ S, x < d → x ≤ m) :
    Exact u S d (streakUpdate v d) := by
  have hnew : ∀ l, v.lastStreakDay = some l → l < d := fun l hl => by
    rw [h.last, Option.some.injEq] at hl
    omega
  have hrun : newCurrent v d = runAt u S d := by
    rw [newCurrent_new hnew, h.last, runAt_of_mem hd]
    by_cases hnext : m = d - 1
    · rw [if_pos (congrArg some hnext), h.current, hnext]
    · have hmiss : d - 1 ∉ S := fun hm => by have := hgap _ hm; omega
      have hlast : u.lastStreakDay ≠ some (d - 1) := fun hl => by have := hm _ hl; omega
      rw [if_neg fun he => hnext (Option.some.inj he), runAt_of_notMem hmiss, if_neg hlast]
  refine ⟨lastStreakDay_new hnew, hd, hrun, Nat.le_max_right _ _, ?_⟩
  intro x hx hle
  rcases Int.lt_or_eq_of_le hle with hlt | rfl
  · exact Nat.le_trans (h.longest x hx (hgap x hx hlt)) (Nat.le_max_left _ _)
  · rw [← hrun]
    exact Nat.le_max_right _ _

theorem Exact.foldl {u : StreakTrio} {S : List Int}
    (hS : ∀ x ∈ S, ∀ l, u.lastStreakDay = some l → l < x) (h : Exact u S m v)
    (hasc : (m :: days).Pairwise (· ≤ ·)) (hin : ∀ d ∈ days, m < d → d ∈ S)
    (hall : ∀ x ∈ S, m < x → x ∈ days) :
    ∃ M, Exact u S M (days.foldl streakUpdate v) ∧ ∀ x ∈ S, x ≤ M := by
  induction days generalizing m v with
  | nil => exact ⟨m, h, fun x hx => by_contra fun hlt => nomatch hall x hx (by omega)⟩
  | cons d ds ih =>
    obtain ⟨hmle, hds⟩ := List.pairwise_cons.mp hasc
    have hmd := hmle d (mem_cons_self ..)
    have hdle := (List.pairwise_cons.mp hds).1
    rw [foldl_cons]
    by_cases hlt : m < d
    · refine ih (h.next hlt (hin d (mem_cons_self ..) hlt) (hS m h.mem) ?_) hds
        (fun x hx hdx => hin x (mem_cons_of_mem d hx) (by omega)) ?_
      · intro x hx hxd
        by_contra hmx
        rcases List.mem_cons.mp (hall x hx (by omega)) with rfl | hmem
        · omega
        · have := hdle x hmem
          omega
      · intro x hx hdx
        rcases List.mem_cons.mp (hall x hx (by omega)) with rfl | hmem
        · omega
        · exact hmem
    · have heq : d = m := by omega
      subst heq
      rw [streakUpdate_old h.within h.last (Int.le_refl d)]
      refine ih h hds (fun x hx => hin x (mem_cons_of_mem d hx)) ?_
      intro x hx hdx
      rcases List.mem_cons.mp (hall x hx hdx) with rfl | hmem
      · omega
      · exact hmem

/-- **Ascending order attains the runs.** -/
theorem foldl_ascending {u : StreakTrio} (hu : u.currentStreak ≤ u.longestStreak) {S : List Int}
    (hS : ∀ x ∈ S, ∀ l, u.lastStreakDay = some l → l < x) (hne : S ≠ [])
    (hge : ∀ d ∈ days, ∀ l, u.lastStreakDay = some l → l ≤ d) (hasc : days.Pairwise (· ≤ ·))
    (hsub : newDays u days ⊆ S) (hall : S ⊆ days) :
    ∃ M, Exact u S M (days.foldl streakUpdate u) ∧ ∀ x ∈ S, x ≤ M := by
  induction days with
  | nil => exact absurd (List.subset_nil.mp hall) hne
  | cons d ds ih =>
    have hdle := (List.pairwise_cons.mp hasc).1
    rw [foldl_cons]
    by_cases hnew : ∀ l, u.lastStreakDay = some l → l < d
    · have hdS : d ∈ S := hsub (mem_newDays.mpr ⟨mem_cons_self .., hnew⟩)
      have hmin : ∀ x ∈ S, d ≤ x := fun x hx => by
        rcases List.mem_cons.mp (hall hx) with rfl | hmem
        · exact Int.le_refl x
        · exact hdle x hmem
      refine (Exact.first hdS hS hmin).foldl hS hasc ?_ ?_
      · intro x hx hdx
        refine hsub (mem_newDays.mpr ⟨mem_cons_of_mem d hx, ?_⟩)
        intro l hl
        have := hnew l hl
        omega
      · intro x hx hdx
        rcases List.mem_cons.mp (hall hx) with rfl | hmem
        · omega
        · exact hmem
    · -- leading repetitions of `last_streak_day`
      obtain ⟨l, hl, hnlt⟩ := exists_last_of_not_new hnew
      rw [streakUpdate_old hu hl (by omega)]
      refine ih (fun x hx => hge x (mem_cons_of_mem d hx)) (List.pairwise_cons.mp hasc).2
        ?_ ?_
      · intro x hx
        obtain ⟨hmem, hnx⟩ := mem_newDays.mp hx
        exact hsub (mem_newDays.mpr ⟨mem_cons_of_mem d hmem, hnx⟩)
      · intro x hx
        rcases List.mem_cons.mp (hall hx) with rfl | hmem
        · exact absurd (hS x hx l hl) hnlt
        · exact hmem

theorem foldl_latest_first {u : StreakTrio} {M : Int} (hx : x < M)
    (hlast : ∀ l, u.lastStreakDay = some l → l < x) (h : ∀ d ∈ days, d ≤ M) :
    (M :: days).foldl streakUpdate u = ⟨1, max u.longestStreak 1, some M⟩ := by
  have hnew : ∀ l, u.lastStreakDay = some l → l < M := fun l hl => by
    have := hlast l hl
    omega
  have hcur : newCurrent u M = 1 := by
    rw [newCurrent_new hnew, if_neg]
    intro hl
    have := hlast _ hl
    omega
  have hstate : streakUpdate u M = ⟨1, max u.longestStreak 1, some M⟩ := by
    rw [← lastStreakDay_new hnew, ← hcur]
    rfl
  rw [foldl_cons, hstate]
  exact foldl_streakUpdate_old (Nat.le_max_right _ _) rfl h

/-! ## When the order is irrelevant -/

theorem foldl_single_day {u : StreakTrio} (hu : u.currentStreak ≤ u.longestStreak)
    (hx : ∀ d ∈ newDays u days, d = x) :
    days.foldl streakUpdate u = if newDays u days = [] then u else streakUpdate u x := by
  induction days with
  | nil => rfl
  | cons d ds ih =>
    rw [foldl_cons]
    by_cases hnew : ∀ l, u.lastStreakDay = some l → l < d
    · have hmem : d ∈ newDays u (d :: ds) := mem_newDays.mpr ⟨mem_cons_self .., hnew⟩
      rw [if_neg (List.ne_nil_of_mem hmem), ← hx d hmem]
      refine foldl_streakUpdate_old (Nat.le_max_right _ _) (lastStreakDay_new hnew) ?_
      intro y hy
      by_contra hlt
      have hynew : y ∈ newDays u (d :: ds) :=
        mem_newDays.mpr ⟨mem_cons_of_mem d hy, fun l hl => by have := hnew l hl; omega⟩
      have := hx y hynew
      have := hx d hmem
      omega
    · obtain ⟨l, hl, hnlt⟩ := exists_last_of_not_new hnew
      have hdrop : newDays u (d :: ds) = newDays u ds := List.filter_cons_of_neg fun hb =>
        hnew (mem_newDays.mp (List.mem_filter.mpr ⟨List.mem_singleton_self d, hb⟩)).2
      rw [streakUpdate_old hu hl (by omega), hdrop]
      exact ih fun y hy => hx y (hdrop ▸ hy)

/-- Two new days, the latest of them isolated and no run above the longest: every order ends in
the same state. -/
theorem foldl_isolated {u : StreakTrio} (hu : u.currentStreak ≤ u.longestStreak) {p : List Int}
    (hge : ∀ d ∈ days, ∀ l, u.lastStreakDay = some l → l ≤ d) (hp : p.Perm days) {M : Int}
    (hM : M ∈ newDays u days) (hmax : ∀ y ∈ newDays u days, y ≤ M) (hx : x ∈ newDays u days)
    (hlt : x < M) (hiso : M - 1 ∉ newDays u days)
    (hrun : ∀ d ∈ newDays u days, runAt u (newDays u days) d ≤ max u.longestStreak 1) :
    p.foldl streakUpdate u = ⟨1, max u.longestStreak 1, some M⟩ := by
  have hperm : (newDays u p).Perm (newDays u days) := hp.filter _
  rcases foldl_any_order hu (S := newDays u days) (fun y hy => (mem_newDays.mp hy).2)
    (fun d hd => hge d (hp.subset hd)) hperm.subset with ⟨hnil, -⟩ | ⟨m, hm, hmmax, hb⟩
  · have hmem := hperm.symm.subset hM
    rw [hnil] at hmem
    cases hmem
  · have hmM : m = M := by
      have h₁ := hmax m (hperm.subset hm)
      have h₂ := hmmax M (hperm.symm.subset hM)
      omega
    subst hmM
    -- the run at the isolated latest day is one day long
    have hone : runAt u (newDays u days) m = 1 := by
      rw [runAt_of_mem hM, runAt_of_notMem hiso, if_neg]
      intro hl
      have := (mem_newDays.mp hx).2 _ hl
      omega
    have hcur : (p.foldl streakUpdate u).currentStreak = 1 := by
      have h₁ := hb.pos
      have h₂ := hb.current_le
      omega
    have hlong : (p.foldl streakUpdate u).longestStreak = max u.longestStreak 1 := by
      have h₁ := hb.grows
      have h₂ := hb.within
      rcases hb.longest_le with h₃ | ⟨d, hd, h₃⟩
      · omega
      · have := hrun d hd
        omega
    rw [← hb.last, ← hlong, ← hcur]

/-- **Day lists whose order is irrelevant**, from any row whose current streak is within its
longest. -/
theorem foldl_perm_iff {u : StreakTrio} (hu : u.currentStreak ≤ u.longestStreak)
    (hge : ∀ d ∈ days, ∀ l, u.lastStreakDay = some l → l ≤ d) :
    (∀ p : List Int, p.Perm days → p.foldl streakUpdate u
        = (days.insertionSort (· ≤ ·)).foldl streakUpdate u) ↔ OrderSafe u days := by
  have hsort : (days.insertionSort (· ≤ ·)).Perm days := List.perm_insertionSort _ _
  by_cases hone : ∀ a ∈ newDays u days, ∀ b ∈ newDays u days, a = b
  · refine ⟨fun _ => .inl hone, ?_⟩
    intro _ p hp
    cases hS : newDays u days with
    | nil =>
      have hall : ∀ q : List Int, q.Perm days → q.foldl streakUpdate u = u := fun q hq => by
        have hperm : (newDays u q).Perm (newDays u days) := hq.filter _
        have hq : newDays u q = [] := by rw [hS] at hperm; exact hperm.eq_nil
        rw [foldl_single_day (x := 0) hu (by rw [hq]; simp), if_pos hq]
      rw [hall p hp, hall _ hsort]
    | cons x xs =>
      have hx : x ∈ newDays u days := hS ▸ mem_cons_self ..
      have hall : ∀ q : List Int, q.Perm days → q.foldl streakUpdate u = streakUpdate u x :=
        fun q hq => by
          have hperm : (newDays u q).Perm (newDays u days) := hq.filter _
          rw [foldl_single_day hu fun d hd => hone d (hperm.subset hd) x hx,
            if_neg (List.ne_nil_of_mem (hperm.symm.subset hx))]
      rw [hall p hp, hall _ hsort]
  · -- two different new days: the ascending fold ends at the latest, `M`
    obtain ⟨M, hex, hmax⟩ := foldl_ascending hu (S := newDays u days)
      (fun y hy => (mem_newDays.mp hy).2) (fun hnil => hone (by rw [hnil]; simp))
      (fun d hd => hge d (hsort.subset hd)) (List.pairwise_insertionSort _ _)
      (hsort.filter _ : (newDays u _).Perm _).subset
      fun y hy => hsort.symm.subset (mem_newDays.mp hy).1
    obtain ⟨x, hx, hlt⟩ : ∃ x ∈ newDays u days, x < M := by
      by_contra hno
      refine hone ?_
      intro a ha b hb
      have h₁ := hmax a ha
      have h₂ := hmax b hb
      have h₃ : ¬ a < M := fun h => hno ⟨a, ha, h⟩
      have h₄ : ¬ b < M := fun h => hno ⟨b, hb, h⟩
      omega
    have hMdays : M ∈ days := (mem_newDays.mp hex.mem).1
    constructor
    · intro h
      have hdays : ∀ d ∈ days.erase M, d ≤ M := fun d hd => by
        by_contra hgt
        have hd' := List.mem_of_mem_erase hd
        have := hmax d (mem_newDays.mpr ⟨hd', fun l hl => by
          have := (mem_newDays.mp hx).2 l hl
          omega⟩)
        omega
      have hfirst := h (M :: days.erase M) (List.perm_cons_erase hMdays).symm
      rw [foldl_latest_first hlt (mem_newDays.mp hx).2 hdays] at hfirst
      have hcur := hex.current
      rw [← hfirst] at hcur
      refine .inr ⟨?_, ?_⟩
      · intro m hm hmmax hpred
        have hmM : m = M := by
          have h₁ := hmax m hm
          have h₂ := hmmax M hex.mem
          omega
        subst hmM
        have hpos := runAt_pos (u := u) hpred
        rw [runAt_of_mem hm] at hcur
        have : 1 = runAt u (newDays u days) (m - 1) + 1 := hcur
        omega
      · intro d hd
        have := hex.longest d hd (hmax d hd)
        rwa [← hfirst] at this
    · rintro (h | ⟨hiso, hrun⟩) p hp
      · exact absurd h hone
      · have hisoM := hiso M hex.mem hmax
        rw [foldl_isolated hu hge hp hex.mem hmax hx hlt hisoM hrun,
          foldl_isolated hu hge hsort hex.mem hmax hx hlt hisoM hrun]

private theorem exists_perm_of_perm_map {f : Int → Int} {q ts : List Int}
    (h : q.Perm (ts.map f)) : ∃ p : List Int, p.Perm ts ∧ p.map f = q := by
  induction q generalizing ts with
  | nil => exact ⟨[], by rw [List.map_eq_nil_iff.mp h.nil_eq.symm], rfl⟩
  | cons d q ih =>
    obtain ⟨t, ht, rfl⟩ := List.mem_map.mp (h.subset (mem_cons_self ..))
    have herase := List.perm_cons_erase ht
    have hrest : q.Perm ((ts.erase t).map f) := (h.trans (herase.map f)).cons_inv
    obtain ⟨p, hp, hmap⟩ := ih hrest
    exact ⟨t :: p, (hp.cons t).trans herase.symm, by rw [List.map_cons, hmap]⟩

/-- **Commit order.** On a row the hot path has built, with completions on days not before its
`last_streak_day`, every commit order gives the columns of the ascending order exactly when the
new days are `OrderSafe`. -/
theorem commit_order_irrelevant_iff (row : UserRow) (built finishedAt : List Int)
    (hrow : row.streak = .initial) (halive : row.deletedAt = none)
    (hge : ∀ t ∈ finishedAt, ∀ last,
      (built.foldl updateStreak row).streak.lastStreakDay = some last → last ≤ utcDay t) :
    (∀ p : List Int, p.Perm finishedAt →
        (p.foldl updateStreak (built.foldl updateStreak row)).streak
          = ((finishedAt.insertionSort fun s t => utcDay s ≤ utcDay t).foldl updateStreak
              (built.foldl updateStreak row)).streak) ↔
      OrderSafe (built.foldl updateStreak row).streak (finishedAt.map utcDay) := by
  obtain ⟨hbuilt, hbuiltAlive⟩ := foldl_updateStreak halive built
  have hu : (built.foldl updateStreak row).streak.currentStreak
      ≤ (built.foldl updateStreak row).streak.longestStreak := by
    rw [hbuilt, hrow]
    exact currentStreak_le_longestStreak _
  have hge' : ∀ d ∈ finishedAt.map utcDay, ∀ last,
      (built.foldl updateStreak row).streak.lastStreakDay = some last → last ≤ d := fun d hd => by
    obtain ⟨t, ht, rfl⟩ := List.mem_map.mp hd
    exact hge t ht
  rw [← foldl_perm_iff hu hge', (foldl_updateStreak hbuiltAlive _).1,
    List.map_insertionSort (fun s t => utcDay s ≤ utcDay t) (· ≤ ·) utcDay finishedAt
      fun _ _ _ _ => Iff.rfl]
  constructor
  · intro h q hq
    obtain ⟨p, hp, rfl⟩ := exists_perm_of_perm_map hq
    rw [← h p hp, (foldl_updateStreak hbuiltAlive p).1]
  · intro h p hp
    rw [(foldl_updateStreak hbuiltAlive p).1]
    exact h _ (hp.map utcDay)

/-- Two completions with a day between them, on a user with a streak of two: any order does. -/
theorem commit_order_irrelevant_across_gap :
    ([518400000, 345600000].foldl updateStreak ([0, 86400000].foldl updateStreak
      ⟨0x01900000000070008000000000000001, .initial, none⟩)).streak = ⟨1, 2, some 6⟩ :=
  (commit_order_irrelevant_iff ⟨0x01900000000070008000000000000001, .initial, none⟩
    [0, 86400000] [345600000, 518400000] rfl rfl (by decide)).mpr (by decide)
    [518400000, 345600000] (List.Perm.swap _ _ _)

/-- Two consecutive days on a user with a streak of one: in order the streak is three, the other
way round it is one. -/
theorem commit_order_loses_a_day :
    [172800000, 86400000].Perm [86400000, 172800000] ∧
    ([172800000, 86400000].foldl updateStreak ([0].foldl updateStreak
        ⟨0x01900000000070008000000000000001, .initial, none⟩)).streak = ⟨1, 1, some 2⟩ ∧
    (([86400000, 172800000].insertionSort fun s t => utcDay s ≤ utcDay t).foldl updateStreak
      ([0].foldl updateStreak
        ⟨0x01900000000070008000000000000001, .initial, none⟩)).streak = ⟨3, 3, some 2⟩ := by
  decide

end QuizBackend.Streak
