import QuizBackend.Social.Friendships

/-!
# Follower growth (`social.repository.impl.ts`)

Follows are deleted softly, so the table tells who followed whom at any time since: a row stands for a
follow from its `created_at` until its `deleted_at` (`followers_asOf`). `getSocialAnalytics` counts the
followers of thirty days ago the other way round: of the follows that had begun by then it counts those
that have not ended and those that had ended *by then*, where it should count those that have ended
since. The growth it tells is right where both are equally many (`growth_exact_iff`).

A history is a list of `followUser` and `unfollowUser` in the order of their times, which are also what
they write into the columns.
-/

namespace QuizBackend.Social

open Lib UserFollow UniqueTable

/-! ## Histories -/

inductive FollowOp
  | followUser (followId followerId followingId : String)
  | unfollowUser (followerId followingId : String)

structure FollowEvent where
  op : FollowOp
  time : Int

/-- `INSERT … ON CONFLICT DO NOTHING`, and the `UPDATE` of the row that is not deleted. -/
def Follows.apply (t : Follows) (e : FollowEvent) : Follows :=
  match e.op with
  | .followUser followId followerId followingId =>
    (t.insert? ⟨followId, followerId, followingId, e.time, none⟩).getD t
  | .unfollowUser followerId followingId =>
    t.updateWhere (isActive followerId followingId) (delete e.time)
      (fun _ => rfl) fun _ _ h => by cases h

structure FollowHistory where
  events : List FollowEvent
  sorted : events.Pairwise fun e e' => e.time ≤ e'.time

def FollowHistory.follows (h : FollowHistory) (now : Int) : Follows :=
  (h.events.filter fun e => e.time ≤ now).foldl Follows.apply (.empty _ _)

/-! ## The analytics -/

def getFollowerCount (t : Follows) (userId : String) : Nat :=
  t.rows.countP fun f => f.followingId == userId && f.deletedAt.isNone

def getFollowingCount (t : Follows) (userId : String) : Nat :=
  t.rows.countP fun f => f.followerId == userId && f.deletedAt.isNone

structure MySocialAnalytics where
  friends : Nat
  followers : Nat
  following : Nat
  growth30Days : Int

def thirtyDays : Int := 30 * 24 * 60 * 60 * 1000

def System.getSocialAnalytics (s : System) (userId : String) (now : Int) : MySocialAnalytics :=
  let thirtyDaysAgo := now - thirtyDays
  let followers := getFollowerCount s.follows userId
  let previousFollowers := s.follows.rows.countP fun f =>
    f.followingId == userId && decide (f.createdAt ≤ thirtyDaysAgo) &&
      (f.deletedAt.isNone || f.deletedAt.any (decide <| · ≤ thirtyDaysAgo))
  { friends := s.getFriendCount userId
    followers
    following := getFollowingCount s.follows userId
    growth30Days := followers - previousFollowers }

/-! ## Who followed at a time -/

/-- The row stands for a follow of the user at the time. -/
def UserFollow.standsAt (userId : String) (time : Int) (f : UserFollow) : Bool :=
  f.followingId == userId && decide (f.createdAt ≤ time) &&
    (f.deletedAt.isNone || f.deletedAt.any (decide <| time < ·))

def UserFollow.endedBy (userId : String) (time : Int) (f : UserFollow) : Bool :=
  f.followingId == userId && decide (f.createdAt ≤ time) && f.deletedAt.any (decide <| · ≤ time)

def UserFollow.endedSince (userId : String) (time : Int) (f : UserFollow) : Bool :=
  f.followingId == userId && decide (f.createdAt ≤ time) && f.deletedAt.any (decide <| time < ·)

section Histories

variable {t : Follows} {e : FollowEvent} {userId : String} {time : Int}

theorem countP_standsAt_apply (h : time < e.time) :
    (t.apply e).rows.countP (standsAt userId time) =
      t.rows.countP (standsAt userId time) := by
  unfold Follows.apply
  split
  · next followId followerId followingId hop =>
    cases hinsert : t.insert? ⟨followId, followerId, followingId, e.time, none⟩ with
    | none => rfl
    | some t' =>
      have hlate : standsAt userId time ⟨followId, followerId, followingId, e.time, none⟩ =
          false := by
        simp [standsAt, not_le.mpr h]
      rw [Option.getD_some, rows_of_insert? hinsert, List.countP_append,
        List.countP_singleton, hlate]
      rfl
  · next followerId followingId hop =>
    simp only [updateWhere, update, List.countP_map]
    refine List.countP_congr fun f _ => ?_
    rw [Function.comp_apply]
    split
    · next hactive =>
      have hnone : f.deletedAt = none := by
        simpa [isActive] using (Bool.and_eq_true_iff.mp hactive).2
      have hlater : standsAt userId time (f.delete e.time) =
          standsAt userId time f := by
        rw [standsAt, standsAt, hnone]
        simp only [delete, Option.isNone_some, Option.any_some, decide_eq_true h,
          Option.isNone_none, Bool.or_true, Bool.true_or]
        rfl
      rw [hlater]
    · rfl

theorem countP_standsAt_foldl {events : List FollowEvent} (h : ∀ e ∈ events, time < e.time) :
    (events.foldl Follows.apply t).rows.countP (standsAt userId time) =
      t.rows.countP (standsAt userId time) := by
  induction events generalizing t with
  | nil => rfl
  | cons e events ih =>
    rw [List.foldl_cons, ih fun e' he' => h e' (List.mem_cons_of_mem e he'),
      countP_standsAt_apply (h e List.mem_cons_self)]

def HappenedBy (time : Int) (t : Follows) : Prop :=
  ∀ f ∈ t.rows, f.createdAt ≤ time ∧ ∀ d, f.deletedAt = some d → d ≤ time

theorem happenedBy_apply (ht : HappenedBy time t) (h : e.time ≤ time) :
    HappenedBy time (t.apply e) := by
  unfold Follows.apply
  split
  · next followId followerId followingId hop =>
    cases hinsert : t.insert? ⟨followId, followerId, followingId, e.time, none⟩ with
    | none => exact ht
    | some t' =>
      intro f hf
      rw [Option.getD_some, rows_of_insert? hinsert, List.mem_append,
        List.mem_singleton] at hf
      rcases hf with hf | rfl
      · exact ht f hf
      · exact ⟨h, nofun⟩
  · intro f hf
    rcases mem_updateWhere.mp hf with ⟨x, hx, -, rfl⟩ | ⟨hf, -⟩
    · refine ⟨(ht x hx).1, fun d hd => ?_⟩
      cases hd
      exact h
    · exact ht f hf

theorem happenedBy_foldl {events : List FollowEvent} (ht : HappenedBy time t)
    (h : ∀ e ∈ events, e.time ≤ time) : HappenedBy time (events.foldl Follows.apply t) := by
  induction events generalizing t with
  | nil => exact ht
  | cons e events ih =>
    exact ih (happenedBy_apply ht (h e List.mem_cons_self))
      fun e' he' => h e' (List.mem_cons_of_mem e he')

theorem countP_standsAt_of_happenedBy (ht : HappenedBy time t) :
    t.rows.countP (standsAt userId time) = getFollowerCount t userId := by
  refine List.countP_congr fun f hf => ?_
  obtain ⟨hcreated, hdeleted⟩ := ht f hf
  cases hd : f.deletedAt with
  | none => simp [standsAt, hcreated, hd]
  | some d => simp [standsAt, hd, hdeleted d hd]

theorem filter_time_eq_append {events : List FollowEvent}
    (hsorted : events.Pairwise fun e e' => e.time ≤ e'.time) {now : Int} (h : time ≤ now) :
    events.filter (fun e => e.time ≤ now) = events.filter (fun e => e.time ≤ time) ++
      events.filter fun e => time < e.time ∧ e.time ≤ now := by
  induction events with
  | nil => rfl
  | cons e events ih =>
    obtain ⟨hfirst, hrest⟩ := List.pairwise_cons.mp hsorted
    by_cases hearly : e.time ≤ time
    · have hnow : e.time ≤ now := le_trans hearly h
      simp [hearly, hnow, ih hrest]
    · rw [not_le] at hearly
      -- nothing from here on is early
      have hlater : ∀ e' ∈ e :: events, time < e'.time := by
        intro e' he'
        rcases List.mem_cons.mp he' with rfl | he'
        · exact hearly
        · exact lt_of_lt_of_le hearly (hfirst e' he')
      have hnone : (e :: events).filter (fun e => e.time ≤ time) = [] :=
        List.filter_eq_nil_iff.mpr fun e' he' htime =>
          absurd (of_decide_eq_true htime) (not_le.mpr (hlater e' he'))
      rw [hnone, List.nil_append]
      refine List.filter_congr fun e' he' => ?_
      simp [hlater e' he']

/-- **The table tells who followed at any time before.** -/
theorem followers_asOf (h : FollowHistory) (userId : String) {now : Int} (htime : time ≤ now) :
    (h.follows now).rows.countP (standsAt userId time) =
      getFollowerCount (h.follows time) userId := by
  have hthen : HappenedBy time (h.follows time) :=
    happenedBy_foldl (fun _ hf => absurd hf List.not_mem_nil)
      fun e he => of_decide_eq_true (List.mem_filter.mp he).2
  rw [FollowHistory.follows, filter_time_eq_append h.sorted htime, List.foldl_append,
    countP_standsAt_foldl fun e he => (of_decide_eq_true (List.mem_filter.mp he).2).1]
  exact countP_standsAt_of_happenedBy hthen

end Histories

theorem countP_by_end (rows : List UserFollow) (p : UserFollow → Bool) :
    rows.countP p = rows.countP (fun f => p f && f.deletedAt.isNone) +
      rows.countP fun f => p f && f.deletedAt.isSome := by
  rw [List.countP_eq_countP_filter_add rows p (·.deletedAt.isNone), List.countP_filter,
    List.countP_filter]
  simp

/-- **Where the growth is exact**: where of the follows that had begun thirty days ago as many had ended
by then as have ended since. -/
theorem growth_exact_iff (s : System) (h : FollowHistory) (userId : String) (now : Int) :
    ({ s with follows := h.follows now }.getSocialAnalytics userId now).growth30Days =
        (getFollowerCount (h.follows now) userId : Int) -
          getFollowerCount (h.follows (now - thirtyDays)) userId ↔
      (h.follows now).rows.countP (UserFollow.endedBy userId (now - thirtyDays)) =
        (h.follows now).rows.countP (UserFollow.endedSince userId (now - thirtyDays)) := by
  have hago : now - thirtyDays ≤ now := by
    unfold thirtyDays
    omega
  have hprevious := countP_by_end (h.follows now).rows fun f : UserFollow =>
    f.followingId == userId && decide (f.createdAt ≤ now - thirtyDays) &&
      (f.deletedAt.isNone || f.deletedAt.any (decide <| · ≤ now - thirtyDays))
  have hstood := countP_by_end (h.follows now).rows (UserFollow.standsAt userId (now - thirtyDays))
  have hactive : (fun f : UserFollow => f.followingId == userId &&
      decide (f.createdAt ≤ now - thirtyDays) && (f.deletedAt.isNone ||
        f.deletedAt.any (decide <| · ≤ now - thirtyDays)) && f.deletedAt.isNone) =
      fun f => UserFollow.standsAt userId (now - thirtyDays) f && f.deletedAt.isNone := by
    funext f
    unfold UserFollow.standsAt
    cases f.deletedAt with
    | none => rfl
    | some d => simp
  have hended : (fun f : UserFollow => f.followingId == userId &&
      decide (f.createdAt ≤ now - thirtyDays) && (f.deletedAt.isNone ||
        f.deletedAt.any (decide <| · ≤ now - thirtyDays)) && f.deletedAt.isSome) =
      UserFollow.endedBy userId (now - thirtyDays) := by
    funext f
    unfold UserFollow.endedBy
    cases f.deletedAt with
    | none => simp
    | some d => simp
  have hsince : (fun f : UserFollow =>
      UserFollow.standsAt userId (now - thirtyDays) f && f.deletedAt.isSome) =
        UserFollow.endedSince userId (now - thirtyDays) := by
    funext f
    unfold UserFollow.standsAt UserFollow.endedSince
    cases f.deletedAt with
    | none => simp
    | some d => simp
  rw [hactive, hended] at hprevious
  rw [hsince] at hstood
  rw [← followers_asOf h userId hago, System.getSocialAnalytics]
  dsimp only
  rw [hprevious, hstood]
  omega

def brief : FollowHistory where
  events := [⟨.followUser "f" "bob" "ada", 0⟩, ⟨.unfollowUser "bob" "ada", 1⟩]
  sorted := by decide

/-- A month later Ada is told that she has lost a follower. -/
theorem growth_is_not_exact :
    ¬ ∀ (s : System) (h : FollowHistory) (userId : String) (now : Int),
      ({ s with follows := h.follows now }.getSocialAnalytics userId now).growth30Days =
        (getFollowerCount (h.follows now) userId : Int) -
          getFollowerCount (h.follows (now - thirtyDays)) userId := by
  intro h
  have hgrowth := h .strangers brief "ada" (thirtyDays + 2)
  revert hgrowth
  decide +kernel

end QuizBackend.Social
