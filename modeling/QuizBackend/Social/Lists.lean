import QuizBackend.Lib.Inclusive
import QuizBackend.Social.Friendships

/-!
# Lists of friends and follows

`getFriends`, `getFollowers` and `getFollowing` of `social-application.service.ts` ask their repository
for one entry more than the limit, and the repository asks the database for one more than that. The
cursor is the time of the last entry of a page, and the next page is of the entries that are not after
it. So it begins with an entry that has been listed, and a list of more than one page is not listed once
(`lists_page_completely_iff`). The lists of other users, of `getFollowersOfUser` and its siblings, have
the id in their cursor and are strict.

The tables do not change from page to page, and in which order the database has entries of the same time
is left open. Names and pictures are left out.
-/

namespace QuizBackend.Social

open Lib

structure Friend where
  friendshipId : String
  userId : String
  friendSince : Int

structure FollowEntry where
  followId : String
  userId : String
  followedAt : Int

open FollowEntry

namespace System

def friendsOf (s : System) (userId : String) : List Friend :=
  (s.friendRows userId).map fun f => ⟨f.friendshipId, friendOf userId f, f.updatedAt⟩

def followersOf (s : System) (userId : String) : List FollowEntry :=
  (s.follows.rows.filter fun f => f.followingId == userId && f.deletedAt.isNone).map fun f =>
    ⟨f.followId, f.followerId, f.createdAt⟩

def followingOf (s : System) (userId : String) : List FollowEntry :=
  (s.follows.rows.filter fun f => f.followerId == userId && f.deletedAt.isNone).map fun f =>
    ⟨f.followId, f.followingId, f.createdAt⟩

end System

/-! ## The repositories -/

namespace Repository

variable (s : System) (userId : String) (limit : Nat) (cursor : Option Int)

def getFriends (o : OrderBy Friend.friendSince) : List Friend :=
  o.select (s.friendsOf userId) cursor (limit + 1)

def getFollowers (o : OrderBy followedAt) : List FollowEntry :=
  o.select (s.followersOf userId) cursor (limit + 1)

def getFollowing (o : OrderBy followedAt) : List FollowEntry :=
  o.select (s.followingOf userId) cursor (limit + 1)

end Repository

/-! ## The application service -/

namespace Application

variable (s : System) (userId : String) (limit : Nat) (cursor : Option Int)

def getFriends (o : OrderBy Friend.friendSince) : List Friend × Option Int :=
  inclusivePage Friend.friendSince limit (Repository.getFriends s userId (limit + 1) cursor o)

def getFollowers (o : OrderBy followedAt) : List FollowEntry × Option Int :=
  inclusivePage followedAt limit (Repository.getFollowers s userId (limit + 1) cursor o)

def getFollowing (o : OrderBy followedAt) : List FollowEntry × Option Int :=
  inclusivePage followedAt limit (Repository.getFollowing s userId (limit + 1) cursor o)

end Application

/-- Following the cursors from the first page on, one comes to a page without next page, and has got the
entries, each once. -/
def PagesCompletely {ρ : Type} {key : ρ → Int} (page : OrderBy key → Option Int → List ρ × Option Int)
    (orders : Nat → OrderBy key) (entries : List ρ) : Prop :=
  ∃ n items, follow (fun o (_ : Unit) cursor => ((.ok (page o cursor) : Except Empty _), ()))
    ((List.range n).map orders) () none = some items ∧ items.Perm entries

/-! ## One page -/

section Lists

variable (s : System) (userId : String)

theorem nodup_friendsOf : (s.friendsOf userId).Nodup := by
  refine List.Nodup.map_on ?_ (s.friendships.rows_nodup.filter _)
  intro f hf g hg hsame
  exact UniqueTable.eq_of_key_eq (List.mem_of_mem_filter hf) (List.mem_of_mem_filter hg)
    (congrArg Friend.friendshipId hsame)

theorem nodup_followersOf : (s.followersOf userId).Nodup := by
  refine List.Nodup.map_on ?_ (s.follows.rows_nodup.filter _)
  intro f hf g hg hsame
  exact UniqueTable.eq_of_key_eq (List.mem_of_mem_filter hf) (List.mem_of_mem_filter hg)
    (congrArg followId hsame)

theorem nodup_followingOf : (s.followingOf userId).Nodup := by
  refine List.Nodup.map_on ?_ (s.follows.rows_nodup.filter _)
  intro f hf g hg hsame
  exact UniqueTable.eq_of_key_eq (List.mem_of_mem_filter hf) (List.mem_of_mem_filter hg)
    (congrArg followId hsame)

/-- **The lists page completely just where they fit on one page**, whatever order the database has
entries of the same time in. -/
theorem lists_page_completely_iff {limit : Nat} (hlimit : 1 ≤ limit)
    (friends : Nat → OrderBy Friend.friendSince) (follows : Nat → OrderBy FollowEntry.followedAt) :
    (PagesCompletely (fun o cursor => Application.getFriends s userId limit cursor o) friends
        (s.friendsOf userId) ↔ (s.friendsOf userId).length ≤ limit) ∧
      (PagesCompletely (fun o cursor => Application.getFollowers s userId limit cursor o) follows
        (s.followersOf userId) ↔ (s.followersOf userId).length ≤ limit) ∧
      (PagesCompletely (fun o cursor => Application.getFollowing s userId limit cursor o) follows
        (s.followingOf userId) ↔ (s.followingOf userId).length ≤ limit) :=
  ⟨pages_iff hlimit Nat.two_pos (nodup_friendsOf s userId) friends,
    pages_iff hlimit Nat.two_pos (nodup_followersOf s userId) follows,
    pages_iff hlimit Nat.two_pos (nodup_followingOf s userId) follows⟩

end Lists

def befriended : System :=
  { System.strangers with
    friendships := ⟨[⟨"f", "ada", "bob", .accepted, 0, 1, none⟩,
      ⟨"g", "carol", "ada", .accepted, 0, 2, none⟩], by decide, by decide⟩ }

theorem befriended_page_completely :
    PagesCompletely (fun o cursor => Application.getFriends befriended "ada" 2 cursor o)
      (fun _ => .stable _) (befriended.friendsOf "ada") :=
  (lists_page_completely_iff befriended "ada" (by decide) (fun _ => .stable _)
    fun _ => .stable _).1.mpr (by decide)

/-- One at a time they cannot: every page is the first one. -/
theorem befriended_do_not_page_singly :
    ¬ ∀ (s : System) (userId : String) (limit : Nat), 1 ≤ limit →
      ∀ orders : Nat → OrderBy Friend.friendSince,
        PagesCompletely (fun o cursor => Application.getFriends s userId limit cursor o) orders
          (s.friendsOf userId) := by
  intro h
  have hcomplete := h befriended "ada" 1 (Nat.le_refl 1) fun _ => .stable _
  have hshort := (pages_iff Nat.one_pos Nat.two_pos (nodup_friendsOf befriended "ada")
    fun _ => .stable _).mp hcomplete
  revert hshort
  decide

end QuizBackend.Social
