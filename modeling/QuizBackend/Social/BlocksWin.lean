import QuizBackend.Social.Friendships

/-!
# Whether blocks win

`getFriendsOfUser` says in its comment that blocks always win. `blockUser` deletes the accepted
friendships it sees and nothing else, and an open request stays.

* A request that was sent before the block can still be accepted: `respondToFriendRequest` does not
  ask whether there is a block.
* What is accepted while the transaction of `blockUser` is open, after its `UPDATE`, stays.

These are the only ways (`blocks_win_iff`): requests and follows are not inserted at all (`Requests`).
-/

namespace QuizBackend.Social

open Lib UniqueTable Friendship
open Bool (not_eq_false not_eq_true)

/-! ## What should hold -/

/-- Nobody is the friend of somebody of whom one has blocked the other. -/
def BlocksWin (s : System) : Prop :=
  ∀ userId targetId, s.blockedBetween userId targetId = true →
    ∀ f ∈ s.friendships.rows, f.between userId targetId = true → f.isAccepted = false

/-- Where one of two users has blocked the other, a step makes no request, friendship or follow between
them. -/
structure NothingNew (s s' : System) : Prop where
  requested : ∀ f' ∈ s'.friendships.rows,
    (∀ f ∈ s.friendships.rows, f.friendshipId ≠ f'.friendshipId) →
      s.blockedBetween f'.requesterId f'.addresseeId = false
  accepted : ∀ f' ∈ s'.friendships.rows, f'.status = .accepted →
    (∀ f ∈ s.friendships.rows, f.friendshipId = f'.friendshipId → f.status ≠ .accepted) →
      s.blockedBetween f'.requesterId f'.addresseeId = false
  followed : ∀ g' ∈ s'.follows.rows, (∀ g ∈ s.follows.rows, g.followId ≠ g'.followId) →
    s.blockedBetween g'.followerId g'.followingId = false

/-- A request that is accepted is not one between users of whom one has blocked the other. -/
def Call.AcceptsInTime (s : System) (c : Call) : Prop :=
  match c.phase, c.request with
  | .found, .respondToFriendRequest userId friendshipId true =>
    ∀ f ∈ s.friendships.rows, f.answerable userId friendshipId = true →
      s.blockedBetween f.requesterId f.addresseeId = false
  | _, _ => True

/-- Where a block is committed, its transaction has deleted every friendship of the two. -/
def Call.BlocksInTime (s : System) (c : Call) : Prop :=
  match c.phase, c.request with
  | .removed locked _, .blockUser blockerId blockedId _ =>
    ∀ f ∈ s.friendships.rows, f.between blockerId blockedId = true → f.isAccepted = true →
      f.friendshipId ∈ locked
  | _, _ => True

/-- What a step must keep to for blocks to win. -/
def InTime (s : System) : Action → Prop
  | .update callId _ => ∀ c, s.calls.find? callId = some c → c.AcceptsInTime s
  | .commit callId _ => ∀ c, s.calls.find? callId = some c → c.BlocksInTime s
  | .begin .. | .read .. | .resolve _ | .find _ | .upsert _ | .removeStart _ | .removeEnd ..
  | .abort _ => True

instance (s : System) (c : Call) : Decidable (c.AcceptsInTime s) :=
  match c with
  | ⟨_, .respondToFriendRequest _ _ true, .found⟩ => inferInstanceAs (Decidable (∀ f ∈ _, _ → _))
  | ⟨_, .respondToFriendRequest _ _ false, .found⟩ | ⟨_, .sendFriendRequest .., .found⟩
  | ⟨_, .cancelFriendRequest .., .found⟩ | ⟨_, .removeFriend .., .found⟩
  | ⟨_, .blockUser .., .found⟩ | ⟨_, .unblockUser .., .found⟩ | ⟨_, .followUser .., .found⟩
  | ⟨_, .unfollowUser .., .found⟩
  | ⟨_, _, .begun⟩ | ⟨_, _, .reading _⟩ | ⟨_, _, .blocked⟩ | ⟨_, _, .removing _⟩
  | ⟨_, _, .removed ..⟩ => .isTrue trivial

instance (s : System) (c : Call) : Decidable (c.BlocksInTime s) :=
  match c with
  | ⟨_, .blockUser .., .removed ..⟩ => inferInstanceAs (Decidable (∀ f ∈ _, _ → _ → _))
  | ⟨_, .sendFriendRequest .., .removed ..⟩ | ⟨_, .respondToFriendRequest .., .removed ..⟩
  | ⟨_, .cancelFriendRequest .., .removed ..⟩ | ⟨_, .removeFriend .., .removed ..⟩
  | ⟨_, .unblockUser .., .removed ..⟩ | ⟨_, .followUser .., .removed ..⟩
  | ⟨_, .unfollowUser .., .removed ..⟩
  | ⟨_, _, .begun⟩ | ⟨_, _, .reading _⟩ | ⟨_, _, .found⟩ | ⟨_, _, .blocked⟩
  | ⟨_, _, .removing _⟩ => .isTrue trivial

instance (s : System) (a : Action) : Decidable (InTime s a) :=
  match a with
  | .update callId _ => decidableOfFind (s.calls.find? callId) fun c => c.AcceptsInTime s
  | .commit callId _ => decidableOfFind (s.calls.find? callId) fun c => c.BlocksInTime s
  | .begin .. | .read .. | .resolve _ | .find _ | .upsert _ | .removeStart _ | .removeEnd ..
  | .abort _ => .isTrue trivial

/-! ## Blocks -/

variable {blockerId blockedId targetId newId : String} {now : Int} {c : Call}

section Blocks

variable {s s' : System}

theorem blockedBetween_comm (userId targetId : String) :
    s.blockedBetween userId targetId = s.blockedBetween targetId userId :=
  Bool.or_comm _ _

theorem between_iff {userId friendId : String} {f : Friendship} :
    f.between userId friendId = true ↔ (f.requesterId = userId ∧ f.addresseeId = friendId) ∨
      (f.requesterId = friendId ∧ f.addresseeId = userId) := by
  simp [between]

theorem blocksWin_iff : BlocksWin s ↔ ∀ f ∈ s.friendships.rows, f.isAccepted = true →
    s.blockedBetween f.requesterId f.addresseeId = false := by
  constructor
  · intro h f hf haccepted
    by_contra hblocked
    rw [not_eq_false] at hblocked
    rw [h _ _ hblocked f hf (between_iff.mpr (.inl ⟨rfl, rfl⟩))] at haccepted
    cases haccepted
  · intro h userId targetId hblocked f hf hbetween
    by_contra haccepted
    rw [not_eq_false] at haccepted
    have hnone := h f hf haccepted
    rcases between_iff.mp hbetween with ⟨rfl, rfl⟩ | ⟨rfl, rfl⟩
    · rw [hnone] at hblocked
      cases hblocked
    · rw [blockedBetween_comm, hnone] at hblocked
      cases hblocked

theorem blockedBetween_congr (h : s'.blocks = s.blocks) (userId targetId : String) :
    s'.blockedBetween userId targetId = s.blockedBetween userId targetId := by
  unfold System.blockedBetween System.isBlocked
  rw [h]

theorem isActive_iff {b : Block} :
    b.isActive blockerId blockedId = true ↔ b.pair = some (blockerId, blockedId) := by
  unfold Block.isActive Block.pair
  split
  · next hundeleted => simp [hundeleted]
  · next hdeleted => simp [hdeleted]

theorem isBlocked_iff :
    s.isBlocked blockerId blockedId = true ↔
      ∃ b ∈ s.blocks.rows, b.pair = some (blockerId, blockedId) := by
  unfold System.isBlocked
  rw [List.any_eq_true]
  simp only [isActive_iff]

theorem blockedBetween_unblock
    (hb : s'.blocks = s.blocks.updateWhere (Block.isActive blockerId blockedId)
      (Block.delete now) (fun _ => rfl) fun _ _ h => by cases h)
    {userId : String} (h : s.blockedBetween userId targetId = false) :
    s'.blockedBetween userId targetId = false := by
  have hfewer : ∀ u t, s'.isBlocked u t = true → s.isBlocked u t = true := by
    intro u t hblocked
    obtain ⟨b, hmem, hpair⟩ := isBlocked_iff.mp hblocked
    rw [hb] at hmem
    rcases mem_updateWhere.mp hmem with ⟨x, -, -, rfl⟩ | ⟨hmem, -⟩
    · cases hpair
    · exact isBlocked_iff.mpr ⟨b, hmem, hpair⟩
  unfold System.blockedBetween at h ⊢
  rw [Bool.or_eq_false_iff] at h ⊢
  refine ⟨?_, ?_⟩
  · by_contra hblocked
    rw [not_eq_false] at hblocked
    rw [hfewer _ _ hblocked] at h
    cases h.1
  · by_contra hblocked
    rw [not_eq_false] at hblocked
    rw [hfewer _ _ hblocked] at h
    cases h.2

theorem isBlocked_upserted {reason : Option String} (hnew : s.blocks.find? newId = none)
    (hb : s'.blocks = s.upserted blockerId blockedId newId reason now) {userId : String} :
    s'.isBlocked userId targetId = true ↔
      s.isBlocked userId targetId = true ∨ (userId = blockerId ∧ targetId = blockedId) := by
  rw [isBlocked_iff, isBlocked_iff, hb]
  unfold System.upserted
  split
  · next hblocked =>
    have hrow := isBlocked_iff.mp hblocked
    constructor
    · rintro ⟨b, hmem, hpair⟩
      rcases mem_updateWhere.mp hmem with ⟨x, hx, -, rfl⟩ | ⟨hmem, -⟩
      · exact .inl ⟨x, hx, hpair⟩
      · exact .inl ⟨b, hmem, hpair⟩
    · intro h
      obtain ⟨b, hmem, hpair⟩ : ∃ b ∈ s.blocks.rows, b.pair = some (userId, targetId) := by
        rcases h with h | ⟨rfl, rfl⟩
        · exact h
        · exact hrow
      by_cases hactive : b.isActive blockerId blockedId = true
      · exact ⟨b.setReason reason, mem_updateWhere.mpr (.inl ⟨b, hmem, hactive, rfl⟩),
          hpair⟩
      · rw [not_eq_true] at hactive
        exact ⟨b, mem_updateWhere.mpr (.inr ⟨hmem, hactive⟩), hpair⟩
  · next hfree =>
    obtain ⟨blocks, hinsert⟩ : ∃ blocks,
        s.blocks.insert? ⟨newId, blockerId, blockedId, reason, now, none⟩ = some blocks := by
      refine (insert?_isSome_iff (find?_eq_none_iff.mp hnew)).mpr ?_
      intro b hmem i hi hpair
      cases hi
      exact hfree (isBlocked_iff.mpr ⟨b, hmem, hpair⟩)
    rw [hinsert, Option.getD_some, rows_of_insert? hinsert]
    constructor
    · rintro ⟨b, hmem, hpair⟩
      rcases List.mem_append.mp hmem with hmem | hmem
      · exact .inl ⟨b, hmem, hpair⟩
      · rw [List.mem_singleton.mp hmem] at hpair
        cases hpair
        exact .inr ⟨rfl, rfl⟩
    · rintro (⟨b, hmem, hpair⟩ | ⟨rfl, rfl⟩)
      · exact ⟨b, List.mem_append_left _ hmem, hpair⟩
      · exact ⟨_, List.mem_append_right _ (List.mem_singleton.mpr rfl), rfl⟩

end Blocks

/-! ## In time is right -/

section Steps

variable {s s' : System} {a : Action}

theorem nothingNew_of
    (hf : ∀ f' ∈ s'.friendships.rows, s.blockedBetween f'.requesterId f'.addresseeId = false ∨
      ∃ f ∈ s.friendships.rows, f.friendshipId = f'.friendshipId ∧
        (f'.status = .accepted → f.status = .accepted))
    (hw : ∀ g' ∈ s'.follows.rows, s.blockedBetween g'.followerId g'.followingId = false ∨
      ∃ g ∈ s.follows.rows, g.followId = g'.followId) : NothingNew s s' where
  requested f' hf' hnew := by
    rcases hf f' hf' with hfree | ⟨f, hmem, hid, -⟩
    · exact hfree
    · exact absurd hid (hnew f hmem)
  accepted f' hf' haccepted hnew := by
    rcases hf f' hf' with hfree | ⟨f, hmem, hid, hstatus⟩
    · exact hfree
    · exact absurd (hstatus haccepted) (hnew f hmem hid)
  followed g' hg' hnew := by
    rcases hw g' hg' with hfree | ⟨g, hmem, hid⟩
    · exact hfree
    · exact absurd hid (hnew g hmem)

theorem not_isAccepted_delete (now : Int) (f : Friendship) : (f.delete now).isAccepted = false :=
  Bool.and_false _

theorem deleted_right {p : Friendship → Bool}
    (hf : s'.friendships = s.friendships.updateWhere p (delete now) (fun _ => rfl) fun f => f.not_pair_delete now) :
    (∀ f' ∈ s'.friendships.rows, f'.isAccepted = true → f' ∈ s.friendships.rows ∧ p f' = false) ∧
      ∀ f' ∈ s'.friendships.rows, ∃ f ∈ s.friendships.rows, f.friendshipId = f'.friendshipId ∧
        (f'.status = .accepted → f.status = .accepted) := by
  refine ⟨?_, ?_⟩
  · intro f' hf' haccepted
    rw [hf] at hf'
    rcases mem_updateWhere.mp hf' with ⟨f, -, -, rfl⟩ | hkept
    · rw [not_isAccepted_delete] at haccepted
      cases haccepted
    · exact hkept
  · intro f' hf'
    rw [hf] at hf'
    rcases mem_updateWhere.mp hf' with ⟨f, hmem, -, rfl⟩ | ⟨hf', -⟩
    · exact ⟨f, hmem, rfl, fun hstatus => hstatus⟩
    · exact ⟨f', hf', rfl, fun hstatus => hstatus⟩

/-- Where blocks win before a step that writes no block, they win after it if every friendship that is
accepted then was accepted before it, or is between users who may have one. -/
theorem blocksWin_of (hwin : BlocksWin s) (hb : s'.blocks = s.blocks)
    (hf : ∀ f' ∈ s'.friendships.rows, f'.isAccepted = true →
      f' ∈ s.friendships.rows ∨ s.blockedBetween f'.requesterId f'.addresseeId = false) :
    BlocksWin s' := by
  refine blocksWin_iff.mpr fun f' hf' haccepted => ?_
  rw [blockedBetween_congr hb]
  rcases hf f' hf' haccepted with hmem | hfree
  · exact blocksWin_iff.mp hwin f' hmem haccepted
  · exact hfree

/-- A step that leaves friendships and blocks as they are, and makes no follow. -/
theorem right_of_same (hwin : BlocksWin s) (hf : s'.friendships = s.friendships)
    (hb : s'.blocks = s.blocks)
    (hw : ∀ g' ∈ s'.follows.rows, ∃ g ∈ s.follows.rows, g.followId = g'.followId) :
    BlocksWin s' ∧ NothingNew s s' := by
  refine ⟨blocksWin_of hwin hb fun f' hf' _ => .inl (hf ▸ hf'), nothingNew_of ?_ fun g' hg' =>
    .inr (hw g' hg')⟩
  exact fun f' hf' => .inr ⟨f', hf ▸ hf', rfl, fun hstatus => hstatus⟩

theorem follows_of_eq (hw : s'.follows = s.follows) :
    ∀ g' ∈ s'.follows.rows, ∃ g ∈ s.follows.rows, g.followId = g'.followId :=
  fun g' hg' => ⟨g', hw ▸ hg', rfl⟩

theorem follows_unfollowed {followerId followingId : String}
    (hw : s'.follows = s.follows.updateWhere (UserFollow.isActive followerId followingId)
      (UserFollow.delete now) (fun _ => rfl) fun _ _ h => by cases h) :
    ∀ g' ∈ s'.follows.rows, ∃ g ∈ s.follows.rows, g.followId = g'.followId := by
  intro g' hg'
  rw [hw] at hg'
  rcases mem_updateWhere.mp hg' with ⟨g, hmem, -, rfl⟩ | ⟨hg', -⟩
  · exact ⟨g, hmem, rfl⟩
  · exact ⟨g', hg', rfl⟩

theorem right_responded {userId friendshipId : String} {accept : Bool} (hwin : BlocksWin s)
    (hf : s'.friendships = s.friendships.updateWhere (answerable userId friendshipId)
      (respond accept now) (fun _ => rfl) fun _ _ h => h)
    (hb : s'.blocks = s.blocks) (hw : s'.follows = s.follows)
    (hfree : accept = true → ∀ f ∈ s.friendships.rows, f.answerable userId friendshipId = true →
      s.blockedBetween f.requesterId f.addresseeId = false) : BlocksWin s' ∧ NothingNew s s' := by
  have haccept : ∀ f : Friendship, (f.respond accept now).status = .accepted → accept = true := by
    intro f haccepted
    cases accept with
    | false => cases haccepted
    | true => rfl
  refine ⟨blocksWin_of hwin hb ?_, nothingNew_of ?_ fun g' hg' => .inr (follows_of_eq hw g' hg')⟩
  · intro f' hf' haccepted
    rw [hf] at hf'
    rcases mem_updateWhere.mp hf' with ⟨f, hmem, hmatch, rfl⟩ | ⟨hf', -⟩
    · exact .inr (hfree (haccept f (live_of_isAccepted haccepted).2) f hmem hmatch)
    · exact .inl hf'
  · intro f' hf'
    rw [hf] at hf'
    rcases mem_updateWhere.mp hf' with ⟨f, hmem, hmatch, rfl⟩ | ⟨hf', -⟩
    · by_cases htrue : accept = true
      · exact .inl (hfree htrue f hmem hmatch)
      · exact .inr ⟨f, hmem, rfl, fun hnow => absurd (haccept f hnow) htrue⟩
    · exact .inr ⟨f', hf', rfl, fun hnow => hnow⟩

/-- A block that is committed in time: a friendship of the two would have been deleted with it. -/
theorem right_blocked {reason : Option String} {locked : List String} (hwin : BlocksWin s)
    (hnew : s.blocks.find? newId = none)
    (hf : s'.friendships = s.friendships.updateWhere (fun f => locked.contains f.friendshipId)
      (delete now) (fun _ => rfl) fun f => f.not_pair_delete now)
    (hb : s'.blocks = s.upserted blockerId blockedId newId reason now)
    (hw : s'.follows = s.follows)
    (hall : ∀ f ∈ s.friendships.rows, f.between blockerId blockedId = true → f.isAccepted = true →
      f.friendshipId ∈ locked) : BlocksWin s' ∧ NothingNew s s' := by
  obtain ⟨hkept, hrows⟩ := deleted_right hf
  refine ⟨blocksWin_iff.mpr ?_, nothingNew_of (fun f' hf' => .inr (hrows f' hf'))
    fun g' hg' => .inr (follows_of_eq hw g' hg')⟩
  intro f' hf' haccepted
  obtain ⟨hmem, hlocked⟩ := hkept f' hf' haccepted
  have hbefore := blocksWin_iff.mp hwin f' hmem haccepted
  have hother : ¬ f'.between blockerId blockedId = true := by
    intro hbetween
    rw [List.contains_iff_mem.mpr (hall f' hmem hbetween haccepted)] at hlocked
    cases hlocked
  rw [between_iff, not_or] at hother
  by_contra hnow
  rw [not_eq_false] at hnow
  rcases Bool.or_eq_true_iff.mp hnow with hnow | hnow
  · rcases (isBlocked_upserted hnew hb).mp hnow with hold | hthis
    · rw [System.blockedBetween, hold] at hbefore
      cases hbefore
    · exact hother.1 hthis
  · rcases (isBlocked_upserted hnew hb).mp hnow with hold | hthis
    · rw [System.blockedBetween, hold, Bool.or_true] at hbefore
      cases hbefore
    · exact hother.2 ⟨hthis.2, hthis.1⟩

/-- **A step that is in time is right.** -/
theorem right_of_inTime (h : Effect s a s') (hwin : BlocksWin s) (htime : InTime s a) :
    BlocksWin s' ∧ NothingNew s s' := by
  cases h with
  | silent hf hb hw => exact right_of_same hwin hf hb (follows_of_eq hw)
  | responded c userId friendshipId accept now ha hc hphase hrequest hf hb hw =>
    refine right_responded hwin hf hb hw ?_
    rintro rfl
    rw [ha] at htime
    have haccepts := htime c hc
    simp only [Call.AcceptsInTime, hphase, hrequest] at haccepts
    exact haccepts
  | deleted p now hf hb hw =>
    obtain ⟨hkept, hrows⟩ := deleted_right hf
    refine ⟨blocksWin_of hwin hb fun f' hf' haccepted => .inl (hkept f' hf' haccepted).1, ?_⟩
    exact nothingNew_of (fun f' hf' => .inr (hrows f' hf')) fun g' hg' =>
      .inr (follows_of_eq hw g' hg')
  | unblocked blockerId blockedId now hf hb hw =>
    refine ⟨blocksWin_iff.mpr fun f' hf' haccepted => ?_,
      nothingNew_of (fun f' hf' => .inr ⟨f', hf ▸ hf', rfl, fun hstatus => hstatus⟩)
        fun g' hg' => .inr (follows_of_eq hw g' hg')⟩
    exact blockedBetween_unblock hb (blocksWin_iff.mp hwin f' (hf ▸ hf') haccepted)
  | unfollowed followerId followingId now hf hb hw =>
    exact right_of_same hwin hf hb (follows_unfollowed hw)
  | blocked c blockerId blockedId newId reason locked now ha hc hphase hrequest hnew hf hb hw =>
    refine right_blocked hwin hnew hf hb hw ?_
    rw [ha] at htime
    have hblocks := htime c hc
    simp only [Call.BlocksInTime, hphase, hrequest] at hblocks
    exact hblocks

/-! ## What is right was in time -/

theorem update_respond {userId friendshipId : String} {accept : Bool} (h : s.update c now = some s')
    (hphase : c.phase = .found)
    (hrequest : c.request = .respondToFriendRequest userId friendshipId accept) {f : Friendship}
    (hf : f ∈ s.friendships.rows) (hmatch : f.answerable userId friendshipId = true) :
    f.respond accept now ∈ s'.friendships.rows := by
  have hany : s.friendships.rows.any (answerable userId friendshipId) = true :=
    List.any_eq_true.mpr ⟨f, hf, hmatch⟩
  simp only [System.update, hphase, hrequest, hany, if_true] at h
  cases h
  have hmem : f.respond accept now ∈
      (s.friendships.updateWhere (answerable userId friendshipId)
        (respond accept now) (fun _ => rfl) fun _ _ h => h).rows :=
    mem_updateWhere.mpr (.inl ⟨f, hf, hmatch, rfl⟩)
  exact hmem

theorem commit_block {reason : Option String} {locked : List String}
    (h : s.commit c newId = some s') (hphase : c.phase = .removed locked now)
    (hrequest : c.request = .blockUser blockerId blockedId reason) :
    s'.isBlocked blockerId blockedId = true ∧
      ∀ f ∈ s.friendships.rows, f.friendshipId ∉ locked → f ∈ s'.friendships.rows := by
  simp only [System.commit, hphase, hrequest] at h
  split at h
  · cases h
  · next hnew =>
    rw [not_eq_true, Option.isSome_eq_false_iff, Option.isNone_iff_eq_none] at hnew
    cases h
    refine ⟨(isBlocked_upserted hnew rfl).mpr (.inr ⟨rfl, rfl⟩), ?_⟩
    intro f hf hout
    have hmem : f ∈ (s.friendships.updateWhere (fun f => locked.contains f.friendshipId)
        (delete now) (fun _ => rfl) fun f => f.not_pair_delete now).rows := by
      refine mem_updateWhere.mpr (.inr ⟨hf, ?_⟩)
      rw [← not_eq_true, List.contains_iff_mem]
      exact hout
    exact hmem

theorem acceptsInTime_of_right (h : s.update c now = some s') (hright : NothingNew s s') :
    c.AcceptsInTime s := by
  unfold Call.AcceptsInTime
  split
  · next userId friendshipId hphase hrequest =>
    intro f hf hmatch
    have hmem := update_respond h hphase hrequest hf hmatch
    have hopen : ∀ g ∈ s.friendships.rows, g.friendshipId = (f.respond true now).friendshipId →
        g.status ≠ .accepted := by
      intro g hg hid haccepted
      have hsame : g = f := eq_of_key_eq hg hf hid
      rw [hsame, (answerable_iff.mp hmatch).2.2.1] at haccepted
      cases haccepted
    exact hright.accepted (f.respond true now) hmem rfl hopen
  · trivial

theorem blocksInTime_of_right (h : s.commit c newId = some s') (hwin : BlocksWin s') :
    c.BlocksInTime s := by
  unfold Call.BlocksInTime
  split
  · next locked now blockerId blockedId reason hphase hrequest =>
    intro f hf hbetween haccepted
    obtain ⟨hblocked, hkept⟩ := commit_block h hphase hrequest
    by_contra hout
    have hfree := hwin blockerId blockedId (by rw [System.blockedBetween, hblocked, Bool.true_or]) f
      (hkept f hf hout) hbetween
    rw [haccepted] at hfree
    cases hfree
  · trivial

theorem inTime_of_right (h : s.step a = some s') (hwin : BlocksWin s') (hright : NothingNew s s') :
    InTime s a := by
  cases a with
  | update callId now =>
    intro c hc
    obtain ⟨c', hc', hupdate⟩ := Option.bind_eq_some_iff.mp h
    rw [hc] at hc'
    cases hc'
    exact acceptsInTime_of_right hupdate hright
  | commit callId newId =>
    intro c hc
    obtain ⟨c', hc', hcommit⟩ := Option.bind_eq_some_iff.mp h
    rw [hc] at hc'
    cases hc'
    exact blocksInTime_of_right hcommit hwin
  | begin callId request => trivial
  | read callId q => trivial
  | resolve callId => trivial
  | find callId => trivial
  | upsert callId => trivial
  | removeStart callId => trivial
  | removeEnd callId now => trivial
  | abort callId => trivial

/-- **When blocks win.** From any tables in which they do, and however requests interleave, nobody is
the friend of somebody who has blocked them or whom they have blocked, and nothing new comes to be
between the two, just when no request is accepted over a block, and a block is committed when its
transaction has deleted the friendship. -/
theorem blocks_win_iff {friendships : Friendships} {blocks : Blocks} (follows : Follows)
    (hwin : BlocksWin (.start friendships blocks follows)) {actions : List Action} {t : System}
    (ht : exec System.step (.start friendships blocks follows) actions = some t) :
    (Always System.step BlocksWin (.start friendships blocks follows) actions ∧
        EachStep System.step (fun s _ s' => NothingNew s s') (.start friendships blocks follows)
          actions) ↔
      Along System.step InTime (.start friendships blocks follows) actions := by
  refine along_iff_good (I := fun _ => True) (fun _ _ _ _ _ => trivial) ?_ ht trivial hwin
  intro s a s' _ hs hstep
  constructor
  · exact right_of_inTime (step_effect hstep) hs
  · intro h
    exact inTime_of_right hstep h.1 h.2

end Steps

/-- Bob accepts what Ada has asked him, and then she blocks him. -/
theorem blocks_win_after_friendship :
    ∃ t, exec System.step (.start adaAskedBob (.empty _ _) (.empty _ _))
        (accepts "1" "bob" "f" ++ blocks "2" "ada" "bob" "b") = some t ∧
      (t.getFriendCount "ada", t.isBlocked "ada" "bob") = (0, true) ∧
      (Always System.step BlocksWin (.start adaAskedBob (.empty _ _) (.empty _ _))
          (accepts "1" "bob" "f" ++ blocks "2" "ada" "bob" "b") ∧
        EachStep System.step (fun s _ s' => NothingNew s s')
          (.start adaAskedBob (.empty _ _) (.empty _ _))
          (accepts "1" "bob" "f" ++ blocks "2" "ada" "bob" "b")) := by
  have hwin : BlocksWin (.start adaAskedBob (.empty _ _) (.empty _ _)) :=
    blocksWin_iff.mpr (by decide)
  refine exists_of_read (fun t => (t.getFriendCount "ada", t.isBlocked "ada" "bob")) (0, true)
    (by decide +kernel) fun t ht hread => ?_
  exact ⟨hread, (blocks_win_iff (.empty _ _) hwin ht).mpr (by decide +kernel)⟩

/-- Ada has asked Bob, and blocks him before he answers: he accepts, and they are friends over the
block. -/
theorem blocks_outlived :
    ¬ Always System.step BlocksWin (.start adaAskedBob (.empty _ _) (.empty _ _))
      (blocks "1" "ada" "bob" "b" ++ accepts "2" "bob" "f") := by
  intro h
  obtain ⟨t, hwins, hread⟩ := h.read (fun t => (t.blockedBetween "ada" "bob",
    t.friendships.rows.any fun f => f.between "ada" "bob" && f.isAccepted)) (true, true)
    (by decide +kernel)
  rw [Prod.mk.injEq, List.any_eq_true] at hread
  obtain ⟨hblocked, f, hf, hboth⟩ := hread
  rw [Bool.and_eq_true] at hboth
  have hfree := hwins "ada" "bob" hblocked f hf hboth.1
  rw [hboth.2] at hfree
  cases hfree

end QuizBackend.Social
