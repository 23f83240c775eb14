import QuizBackend.Social.Requests
import Mathlib.Logic.Function.Basic

/-!
# The relationship of two users, asked in two ways

`getRelationshipStatus` is written to send six queries about a pair of users.
`getRelationshipStatusesBatch` asks for everything a user has to do with anybody, a union of seven
queries, sorts the rows into seven sets and looks the targets up in them. Five of its six answers are
what the six queries say. The sixth is not: a pending request counts for the batch in both directions
(`getRelationshipStatusesBatch_eq`).

The single status is never answered at all. It takes the results of its first four queries apart as
lists of rows, which the driver's result is not, so it throws (`getRelationshipStatus_eq`); the batch
reads `rows` of its one result.
-/

namespace QuizBackend.Social

open Lib

/-- The record both answer with, one for each target. -/
structure RelationshipStatus where
  isFriend : Bool
  hasPendingRequest : Bool
  isFollower : Bool
  isFollowing : Bool
  isBlocked : Bool
  isBlockedBy : Bool

/-- The column `relationship_type` of the union. -/
inductive RelationshipType
  | friend
  | pendingSent
  | pendingReceived
  | follower
  | following
  | blocked
  | blockedBy
  deriving DecidableEq

open RelationshipType

/-- What `db.execute` resolves to: node-postgres' `Result`, an object with the rows in a field. -/
structure QueryResult where
  rows : List Bool

/-- `const [row] = result`. The pattern asks the result for an iterator, and a `Result` has none. -/
def QueryResult.destructure (_ : QueryResult) : Except SocialError (Option Bool) :=
  .error .notIterable

namespace System

/-- `db.execute` of one of the queries, a `SELECT EXISTS`: a single row of a single column. -/
def execute (s : System) (userId targetId : String) (q : Query) : QueryResult :=
  ⟨[s.query userId targetId q]⟩

/-- `getRelationshipStatus`. The two queries about blocks are sent when the four before have been taken
apart; they are read by their `rows`. -/
def getRelationshipStatus (s : System) (userId targetId : String) :
    Except SocialError RelationshipStatus := do
  let friendResult ← (s.execute userId targetId .isFriend).destructure
  let pendingResult ← (s.execute userId targetId .hasPendingRequest).destructure
  let followerResult ← (s.execute userId targetId .isFollower).destructure
  let followingResult ← (s.execute userId targetId .isFollowing).destructure
  pure
    { isFriend := friendResult.getD false
      hasPendingRequest := pendingResult.getD false
      isFollower := followerResult.getD false
      isFollowing := followingResult.getD false
      isBlocked := s.isBlocked userId targetId
      isBlockedBy := s.isBlocked targetId userId }

/-- **No relationship status is ever answered.** -/
theorem getRelationshipStatus_eq (s : System) (userId targetId : String) :
    s.getRelationshipStatus userId targetId = .error .notIterable := rfl

/-! ## The batch -/

/-- The rows of the union: whom a user has to do with, and how. -/
def allRelationships (s : System) (userId : String) : List (String × RelationshipType) :=
  ((s.friendRows userId).map fun f => (friendOf userId f, friend)) ++
  ((s.friendships.rows.filter fun f => f.requesterId == userId && f.isPending).map fun f =>
    (f.addresseeId, pendingSent)) ++
  ((s.friendships.rows.filter fun f => f.addresseeId == userId && f.isPending).map fun f =>
    (f.requesterId, pendingReceived)) ++
  ((s.follows.rows.filter fun f => f.followingId == userId && f.deletedAt.isNone).map fun f =>
    (f.followerId, follower)) ++
  ((s.follows.rows.filter fun f => f.followerId == userId && f.deletedAt.isNone).map fun f =>
    (f.followingId, following)) ++
  ((s.blocks.rows.filter fun b => b.blockerId == userId && b.deletedAt.isNone).map fun b =>
    (b.blockedId, blocked)) ++
  ((s.blocks.rows.filter fun b => b.blockedId == userId && b.deletedAt.isNone).map fun b =>
    (b.blockerId, blockedBy))

end System

/-- The seven sets. -/
abbrev RelationshipSets := RelationshipType → List String

/-- The `switch`: a row goes into the set of its type, if it is about a target. -/
def RelationshipSets.add (targetIds : List String) (sets : RelationshipSets)
    (row : String × RelationshipType) : RelationshipSets :=
  if row.1 ∈ targetIds then Function.update sets row.2 (row.1 :: sets row.2) else sets

open RelationshipSets

/-- What the sets say of a target. -/
def RelationshipSets.status (sets : RelationshipSets) (targetId : String) : RelationshipStatus :=
  { isFriend := targetId ∈ sets .friend
    hasPendingRequest := targetId ∈ sets .pendingSent ∨ targetId ∈ sets .pendingReceived
    isFollower := targetId ∈ sets .follower
    isFollowing := targetId ∈ sets .following
    isBlocked := targetId ∈ sets .blocked
    isBlockedBy := targetId ∈ sets .blockedBy }

/-- `getRelationshipStatusesBatch`; the map it returns, by its `get`. -/
def System.getRelationshipStatusesBatch (s : System) (userId : String) (targetIds : List String) :
    String → Option RelationshipStatus :=
  if targetIds.isEmpty then fun _ => none
  else
    let sets := (s.allRelationships userId).foldl (add targetIds) fun _ => []
    targetIds.foldl (fun result targetId =>
      Function.update result targetId (some (status sets targetId))) fun _ => none

/-! ## What is in the sets -/

section Sets

variable {s : System} {userId targetId : String} {targetIds : List String}

theorem mem_foldl_add {rows : List (String × RelationshipType)} {sets : RelationshipSets}
    (h : targetId ∈ targetIds) (type : RelationshipType) :
    targetId ∈ rows.foldl (add targetIds) sets type ↔
      targetId ∈ sets type ∨ (targetId, type) ∈ rows := by
  induction rows generalizing sets with
  | nil => simp
  | cons row rows ih =>
    rw [List.foldl_cons, ih, List.mem_cons]
    have hrow : targetId ∈ add targetIds sets row type ↔
        targetId ∈ sets type ∨ (targetId, type) = row := by
      unfold add
      by_cases htype : type = row.2
      · subst htype
        split
        · rw [Function.update_self, List.mem_cons, Prod.ext_iff, or_comm]
          simp
        · next hnot =>
          have hne : (targetId, row.2) ≠ row := by
            intro heq
            exact hnot (congrArg Prod.fst heq ▸ h)
          simp [hne]
      · have hne : (targetId, type) ≠ row := fun heq => htype (congrArg Prod.snd heq)
        split
        · rw [Function.update_of_ne htype]
          simp [hne]
        · simp [hne]
    rw [hrow, or_assoc]

theorem friendOf_eq_iff {f : Friendship} :
    (f.requesterId = userId ∨ f.addresseeId = userId) ∧ System.friendOf userId f = targetId ↔
      f.between userId targetId = true := by
  unfold Friendship.between System.friendOf
  rw [Bool.or_eq_true, Bool.and_eq_true, Bool.and_eq_true, beq_iff_eq, beq_iff_eq, beq_iff_eq,
    beq_iff_eq]
  split
  · next h =>
    subst h
    constructor
    · rintro ⟨-, rfl⟩
      exact .inl ⟨rfl, rfl⟩
    · rintro (⟨-, rfl⟩ | ⟨rfl, h⟩)
      · exact ⟨.inl rfl, rfl⟩
      · exact ⟨.inl rfl, h⟩
  · next h =>
    constructor
    · rintro ⟨huser, rfl⟩
      exact .inr ⟨rfl, huser.resolve_left h⟩
    · rintro (⟨huser, -⟩ | ⟨rfl, huser⟩)
      · exact absurd huser h
      · exact ⟨.inr huser, rfl⟩

/-- **The union, type by type.** -/
theorem mem_allRelationships (type : RelationshipType) :
    (targetId, type) ∈ s.allRelationships userId ↔
      match type with
      | .friend => s.query userId targetId .isFriend = true
      | .pendingSent => s.query userId targetId .hasPendingRequest = true
      | .pendingReceived => s.query targetId userId .hasPendingRequest = true
      | .follower => s.query userId targetId .isFollower = true
      | .following => s.query userId targetId .isFollowing = true
      | .blocked => s.query userId targetId .isBlocked = true
      | .blockedBy => s.query userId targetId .isBlockedBy = true := by
  cases type with
  | friend =>
    simp only [System.allRelationships, System.query, System.friendRows, List.mem_append,
      List.mem_map, List.mem_filter, List.any_eq_true, Prod.mk.injEq, Bool.and_eq_true,
      Bool.or_eq_true, beq_iff_eq, reduceCtorEq, and_false, exists_false, or_false, and_true]
    constructor
    · rintro ⟨f, ⟨hf, huser, haccepted⟩, hfriend⟩
      exact ⟨f, hf, friendOf_eq_iff.mp ⟨huser, hfriend⟩, haccepted⟩
    · rintro ⟨f, hf, hbetween, haccepted⟩
      obtain ⟨huser, hfriend⟩ := friendOf_eq_iff.mpr hbetween
      exact ⟨f, ⟨hf, huser, haccepted⟩, hfriend⟩
  | _ =>
    simp [System.allRelationships, System.query, System.isBlocked, UserFollow.isActive,
      Block.isActive, and_assoc, and_comm, and_left_comm]

theorem foldl_update_eq {result : String → Option RelationshipStatus}
    (status : String → RelationshipStatus) :
    targetIds.foldl (fun result targetId => Function.update result targetId (some (status targetId)))
      result targetId = if targetId ∈ targetIds then some (status targetId) else result targetId := by
  induction targetIds generalizing result with
  | nil => rfl
  | cons id ids ih =>
    rw [List.foldl_cons, ih]
    by_cases hid : targetId = id
    · subst hid
      rw [Function.update_self, ite_self, if_pos List.mem_cons_self]
    · rw [Function.update_of_ne hid]
      simp [hid]

/-- **What the batch answers**: what the queries say, but for the pending requests. -/
theorem getRelationshipStatusesBatch_eq (h : targetId ∈ targetIds) :
    s.getRelationshipStatusesBatch userId targetIds targetId = some
      { isFriend := s.query userId targetId .isFriend
        hasPendingRequest := s.query userId targetId .hasPendingRequest ||
          s.query targetId userId .hasPendingRequest
        isFollower := s.query userId targetId .isFollower
        isFollowing := s.query userId targetId .isFollowing
        isBlocked := s.query userId targetId .isBlocked
        isBlockedBy := s.query userId targetId .isBlockedBy } := by
  have hne : targetIds.isEmpty = false := by
    cases targetIds with
    | nil => cases h
    | cons => rfl
  unfold System.getRelationshipStatusesBatch
  rw [if_neg (by rw [hne]; exact Bool.false_ne_true)]
  refine (foldl_update_eq _).trans ?_
  rw [if_pos h]
  simp [status, mem_foldl_add h, mem_allRelationships]

end Sets

/-! ## The two agree -/

/-- Every target has the status in the batch that it has alone. -/
def System.StatusesAgree (s : System) (userId : String) (targetIds : List String) : Prop :=
  ∀ targetId ∈ targetIds, ∃ status, s.getRelationshipStatus userId targetId = .ok status ∧
    s.getRelationshipStatusesBatch userId targetIds targetId = some status

/-- **Where single and batch relationship status agree**: where nobody is asked for. -/
theorem statusesAgree_iff (s : System) (userId : String) (targetIds : List String) :
    s.StatusesAgree userId targetIds ↔ targetIds = [] := by
  constructor
  · intro h
    refine List.eq_nil_iff_forall_not_mem.mpr fun targetId htarget => ?_
    obtain ⟨status, hsingle, -⟩ := h targetId htarget
    rw [System.getRelationshipStatus_eq] at hsingle
    cases hsingle
  · rintro rfl targetId htarget
    cases htarget

/-- Ada has asked Bob, which a batch would say; where his status is asked for alone, there is an error. -/
theorem status_of_one_throws :
    ¬ ∀ (s : System) (userId : String) (targetIds : List String), s.StatusesAgree userId targetIds := by
  intro h
  obtain ⟨status, hsingle, -⟩ :=
    h (.start adaAskedBob (.empty _ _) (.empty _ _)) "ada" ["bob"] "bob" (by decide)
  cases hsingle

end QuizBackend.Social
