import QuizBackend.Lib.Run
import QuizBackend.Lib.Table
import QuizBackend.Lib.UniqueTable
import Mathlib.Data.List.Sort

/-!
# Requests between users (`social.service.ts`)

Users ask each other for friendship, answer, follow and block each other. The requests are those of
`SocialService` that write one of the three tables. A service reads first, every query on its own, and
between any two statements anything may happen.

`respondToFriendRequest`, `cancelFriendRequest`, `unblockUser` and `unfollowUser` write with one
statement, which is a step here together with its commit. Two things take longer.

* `removeFriend` deletes what its `UPDATE` sees: the rows that were there when the statement began, of
  which it deletes those that still match when it reaches them.
* `blockUser` is a READ COMMITTED transaction: an upsert of the block, the same `UPDATE`, the audit
  record and the commit. Until then nobody sees the block, and the rows it has written are locked.

`sendFriendRequest` and `followUser` never come to their `INSERT`. They ask for the relationship of the
two users first, and `getRelationshipStatus` takes the four results of its first `Promise.all` apart as
lists of rows. `db.execute` resolves to the driver's result, an object with a field `rows`, which every
other caller reads; it is no list, so the pattern throws a `TypeError` when the four queries are done.
What the two would do afterwards is in `FriendRequest`, statement by statement; as a step it does not
occur.

Deletions of users, what is sent to other modules, the caches and the names and pictures that are
read along are left out.
-/

namespace QuizBackend.Social

open Lib

/-! ## Tables -/

/-- The enum of the column `status`; no request writes `blocked`. -/
inductive FriendshipStatus where
  | pending
  | accepted
  | rejected
  | blocked
  deriving DecidableEq

/-- A row of `friendships`; requests, friendships and rejected requests are rows of one kind. -/
structure Friendship where
  friendshipId : String
  requesterId : String
  addresseeId : String
  status : FriendshipStatus
  createdAt : Int
  updatedAt : Int
  deletedAt : Option Int
  deriving DecidableEq

/-- The entry in `uq_friendships_pair`: requester and addressee, in this order. -/
def Friendship.pair (f : Friendship) : Option (String × String) :=
  if f.deletedAt = none then some (f.requesterId, f.addresseeId) else none

open Friendship

/-- A row of `blocked_users`. -/
structure Block where
  blockId : String
  blockerId : String
  blockedId : String
  reason : Option String
  createdAt : Int
  deletedAt : Option Int

/-- The entry in `uq_blocked_users_pair`. -/
def Block.pair (b : Block) : Option (String × String) :=
  if b.deletedAt = none then some (b.blockerId, b.blockedId) else none

/-- A row of `user_follows`. -/
structure UserFollow where
  followId : String
  followerId : String
  followingId : String
  createdAt : Int
  deletedAt : Option Int

open UserFollow

/-- The entry in `uq_user_follows_pair`. -/
def UserFollow.pair (f : UserFollow) : Option (String × String) :=
  if f.deletedAt = none then some (f.followerId, f.followingId) else none

abbrev Friendships := UniqueTable String (String × String) Friendship (·.friendshipId) pair
abbrev Blocks := UniqueTable String (String × String) Block (·.blockId) Block.pair
abbrev Follows := UniqueTable String (String × String) UserFollow (·.followId) pair

/-- `(requester_id = a AND addressee_id = b) OR (requester_id = b AND addressee_id = a)`. -/
def Friendship.between (userId friendId : String) (f : Friendship) : Bool :=
  (f.requesterId == userId && f.addresseeId == friendId) ||
    (f.requesterId == friendId && f.addresseeId == userId)

/-- `status = 'accepted' AND deleted_at IS NULL`. -/
def Friendship.isAccepted (f : Friendship) : Bool :=
  decide (f.status = .accepted) && f.deletedAt.isNone

/-- `status = 'pending' AND deleted_at IS NULL`. -/
def Friendship.isPending (f : Friendship) : Bool :=
  decide (f.status = .pending) && f.deletedAt.isNone

/-- The request `UPDATE` of `respondToFriendRequest` changes. -/
def Friendship.answerable (userId friendshipId : String) (f : Friendship) : Bool :=
  f.friendshipId == friendshipId && f.addresseeId == userId && f.isPending

/-- The request `cancelFriendRequestById` deletes. -/
def Friendship.cancellable (friendshipId : String) (f : Friendship) : Bool :=
  f.friendshipId == friendshipId && f.isPending

/-- What an `UPDATE` that has seen these rows still deletes of them when it gets there. -/
def Friendship.doomed (seen : List String) (f : Friendship) : Bool :=
  seen.contains f.friendshipId && f.isAccepted

def Block.isActive (blockerId blockedId : String) (b : Block) : Bool :=
  b.blockerId == blockerId && b.blockedId == blockedId && b.deletedAt.isNone

def UserFollow.isActive (followerId followingId : String) (f : UserFollow) : Bool :=
  f.followerId == followerId && f.followingId == followingId && f.deletedAt.isNone

/-! ## Errors -/

/-- The errors the requests end with. `notIterable` is the `TypeError` of a pattern, `database`
whatever the database refuses a statement with. -/
inductive SocialError where
  | selfFriendRequest
  | blockedUser
  | userBlocked
  | alreadyFriends
  | pendingRequestExists
  | friendRequestNotFound (friendshipId : String)
  | friendRequestForbidden
  | friendshipNotFound (friendId : String)
  | userNotBlocked (blockedId : String)
  | followNotFound (followingId : String)
  | consistency (operation userId : String)
  | notIterable
  | database
  deriving DecidableEq

/-! ## Requests -/

/-- The methods of `SocialService` that write, each with its arguments. -/
inductive Request where
  | sendFriendRequest (requesterId addresseeId : String)
  | respondToFriendRequest (userId friendshipId : String) (accept : Bool)
  | cancelFriendRequest (requesterId friendshipId : String)
  | removeFriend (userId friendId : String)
  | blockUser (blockerId blockedId : String) (reason : Option String)
  | unblockUser (blockerId blockedId : String)
  | followUser (followerId followingId : String)
  | unfollowUser (followerId followingId : String)

/-- The queries `getRelationshipStatus` is made of. -/
inductive Query where
  | isFriend
  | hasPendingRequest
  | isFollower
  | isFollowing
  | isBlocked
  | isBlockedBy
  deriving DecidableEq

/-- The four of the first `Promise.all`; the other two are for a second one. -/
def Query.first : List Query := [.isFriend, .hasPendingRequest, .isFollower, .isFollowing]

abbrev Reads := List (Query × Bool)

/-- How far a request has come: it has asked for nothing, has some of the relationship, has found what
it is about, has upserted its block, has begun to delete friendships, or has deleted them. -/
inductive Phase where
  | begun
  | reading (reads : Reads)
  | found
  | blocked
  | removing (seen : List String)
  | removed (locked : List String) (now : Int)

/-- A request under way. -/
structure Call where
  callId : String
  request : Request
  phase : Phase

/-- What is thrown before anything is asked. -/
def Request.validate : Request → Except SocialError Unit
  | .sendFriendRequest a b | .removeFriend a b | .blockUser a b _ | .unblockUser a b
  | .followUser a b | .unfollowUser a b => if a = b then .error .selfFriendRequest else .ok ()
  | .respondToFriendRequest .. | .cancelFriendRequest .. => .ok ()

/-- The pair of which `getRelationshipStatus` is asked first, if it is. -/
def Request.relationship : Request → Option (String × String)
  | .sendFriendRequest userId targetId | .followUser userId targetId => some (userId, targetId)
  | _ => none

/-- Where a request starts. -/
def Request.start (request : Request) : Phase :=
  if request.relationship.isSome then .reading [] else .begun

/-! ## The system -/

/-- What is committed, who is under way, and what has been answered. -/
structure System where
  friendships : Friendships
  blocks : Blocks
  follows : Follows
  calls : Table String Call (·.callId)
  answers : List (String × Except SocialError Unit)

/-- The steps. All but the first are steps of a request under way. -/
inductive Action where
  | begin (callId : String) (request : Request)
  | read (callId : String) (query : Query)
  | resolve (callId : String)
  | find (callId : String)
  | update (callId : String) (now : Int)
  | upsert (callId : String)
  | removeStart (callId : String)
  | removeEnd (callId : String) (now : Int)
  | commit (callId newId : String)
  | abort (callId : String)

def Friendship.respond (accept : Bool) (now : Int) (f : Friendship) : Friendship :=
  { f with status := if accept then .accepted else .rejected, updatedAt := now }

def Friendship.delete (now : Int) (f : Friendship) : Friendship :=
  { f with deletedAt := some now, updatedAt := now }

def Block.delete (now : Int) (b : Block) : Block := { b with deletedAt := some now }

def UserFollow.delete (now : Int) (f : UserFollow) : UserFollow := { f with deletedAt := some now }

/-- `DO UPDATE SET reason = COALESCE(EXCLUDED.reason, blocked_users.reason)`. -/
def Block.setReason (reason : Option String) (b : Block) : Block :=
  { b with reason := reason.or b.reason }

theorem Friendship.not_pair_delete (now : Int) (f : Friendship) (i : String × String)
    (h : (f.delete now).pair = some i) : f.pair = some i := by cases h

namespace System

/-- Tables, and no request. -/
def start (friendships : Friendships) (blocks : Blocks) (follows : Follows) : System :=
  ⟨friendships, blocks, follows, .empty _, []⟩

section

variable (s : System)

/-- The request is over. -/
def answer (callId : String) (result : Except SocialError Unit) : System :=
  { s with calls := s.calls.erase callId, answers := s.answers ++ [(callId, result)] }

/-- The request goes on. -/
def advance (callId : String) (phase : Phase) : System :=
  { s with calls := s.calls.modify callId (fun c => { c with phase }) fun _ => rfl }

/-! ### Reads -/

/-- `isBlocked` of the repository of blocks, in one direction. -/
def isBlocked (blockerId blockedId : String) : Bool :=
  s.blocks.rows.any (Block.isActive blockerId blockedId)

/-- One of the two has blocked the other. -/
def blockedBetween (userId targetId : String) : Bool :=
  s.isBlocked userId targetId || s.isBlocked targetId userId

/-- What a query of `getRelationshipStatus(userId, targetId)` returns. A pending request is looked
for in one direction. -/
def query (userId targetId : String) : Query → Bool
  | .isFriend => s.friendships.rows.any fun f => f.between userId targetId && f.isAccepted
  | .hasPendingRequest => s.friendships.rows.any fun f =>
    f.requesterId == userId && f.addresseeId == targetId && f.isPending
  | .isFollower => s.follows.rows.any (isActive targetId userId)
  | .isFollowing => s.follows.rows.any (isActive userId targetId)
  | .isBlocked => s.isBlocked userId targetId
  | .isBlockedBy => s.isBlocked targetId userId

/-- `or(requester_id = userId, addressee_id = userId) AND status = 'accepted' AND …`. -/
def friendRows (userId : String) : List Friendship :=
  s.friendships.rows.filter fun f =>
    (f.requesterId == userId || f.addresseeId == userId) && f.isAccepted

end

/-- `CASE WHEN requester_id = userId THEN addressee_id ELSE requester_id END`. -/
def friendOf (userId : String) (f : Friendship) : String :=
  if f.requesterId = userId then f.addresseeId else f.requesterId

section

variable (s : System)

/-- `count(*)` of the rows, whoever they are with. -/
def getFriendCount (userId : String) : Nat := (s.friendRows userId).length

/-- The ids `getFriends` returns: the rows before a cursor, latest first, one more than the limit. -/
def getFriends (userId : String) (limit : Nat) (cursor : Option Int) : List String :=
  let rows := (s.friendRows userId).filter fun f => cursor.all fun last => f.updatedAt ≤ last
  ((rows.insertionSort fun f g => g.updatedAt ≤ f.updatedAt).take (limit + 1)).map (friendOf userId)

/-! ### Locks -/

/-- The transaction of another `blockUser` has deleted the row. -/
def lockedByOther (callId : String) (f : Friendship) : Bool :=
  s.calls.rows.any fun c => decide (c.callId ≠ callId) &&
    match c.phase with
    | .removed locked _ => locked.contains f.friendshipId
    | _ => false

/-- The transaction of another `blockUser` has upserted this block. -/
def upsertedByOther (callId blockerId blockedId : String) : Bool :=
  s.calls.rows.any fun c => decide (c.callId ≠ callId) &&
    match c.request, c.phase with
    | .blockUser b d _, .blocked | .blockUser b d _, .removing _ | .blockUser b d _, .removed .. =>
      b == blockerId && d == blockedId
    | _, _ => false

/-! ### Steps -/

/-- A request comes in, under an id that no request under way has. -/
def begin (callId : String) (request : Request) : Option System :=
  (s.calls.insert? ⟨callId, request, request.start⟩).map fun calls =>
    match request.validate with
    | .error e => { s with answers := s.answers ++ [(callId, .error e)] }
    | .ok _ => { s with calls }

/-- One of the first four queries is answered; each is sent once. -/
def read (c : Call) (q : Query) : Option System :=
  match c.phase, c.request.relationship with
  | .reading reads, some (userId, targetId) =>
    if q ∈ Query.first ∧ q ∉ reads.map Prod.fst then
      some (s.advance c.callId (.reading (reads ++ [(q, s.query userId targetId q)])))
    else none
  | _, _ => none

/-- The `Promise.all` is done, and its results are taken apart: whatever they say, this throws. -/
def resolve (c : Call) : Option System :=
  match c.phase with
  | .reading reads =>
    if ∀ p ∈ Query.first, p ∈ reads.map Prod.fst then
      some (s.answer c.callId (.error .notIterable))
    else none
  | _ => none

/-- On to the `UPDATE`, or the error. -/
def foundOr (callId : String) (found : Bool) (e : SocialError) : System :=
  if found then s.advance callId .found else s.answer callId (.error e)

/-- The query that looks for what the request is about. -/
def find (c : Call) : Option System :=
  match c.phase, c.request with
  | .begun, .respondToFriendRequest userId friendshipId _ =>
    match s.friendships.find? friendshipId with
    | none => some (s.answer c.callId (.error (.friendRequestNotFound friendshipId)))
    | some f => some (s.foundOr c.callId (f.addresseeId == userId) .friendRequestForbidden)
  | .begun, .cancelFriendRequest requesterId friendshipId =>
    match s.friendships.find? friendshipId with
    | none => some (s.answer c.callId (.error (.friendRequestNotFound friendshipId)))
    | some f =>
      if f.requesterId ≠ requesterId then some (s.answer c.callId (.error .friendRequestForbidden))
      else
        some (s.foundOr c.callId (decide (f.status = .pending)) (.friendRequestNotFound friendshipId))
  | .begun, .removeFriend userId friendId =>
    some (s.foundOr c.callId (s.query userId friendId .isFriend) (.friendshipNotFound friendId))
  | .begun, .unblockUser blockerId blockedId =>
    some (s.foundOr c.callId (s.isBlocked blockerId blockedId) (.userNotBlocked blockedId))
  | .begun, .unfollowUser followerId followingId =>
    some (s.foundOr c.callId (s.follows.rows.any (isActive followerId followingId))
      (.followNotFound followingId))
  | _, _ => none

/-- The `UPDATE` of a request that has found what it is about; the one of `unblockUser` waits for the
transaction of a `blockUser` that has upserted the row. -/
def update (c : Call) (now : Int) : Option System :=
  match c.phase, c.request with
  | .found, .respondToFriendRequest userId friendshipId accept =>
    if s.friendships.rows.any (answerable userId friendshipId) then
      some { s.answer c.callId (.ok ()) with
        friendships := s.friendships.updateWhere (answerable userId friendshipId)
          (respond accept now) (fun _ => rfl) fun _ _ h => h }
    else some (s.answer c.callId (.error (.friendRequestNotFound friendshipId)))
  | .found, .cancelFriendRequest _ friendshipId =>
    if s.friendships.rows.any (cancellable friendshipId) then
      some { s.answer c.callId (.ok ()) with
        friendships := s.friendships.updateWhere (cancellable friendshipId)
          (delete now) (fun _ => rfl) fun f => f.not_pair_delete now }
    else some (s.answer c.callId (.error (.friendRequestNotFound friendshipId)))
  | .found, .unblockUser blockerId blockedId =>
    if s.upsertedByOther c.callId blockerId blockedId then none
    else
      some { s.answer c.callId (.ok ()) with
        blocks := s.blocks.updateWhere (Block.isActive blockerId blockedId) (Block.delete now)
          (fun _ => rfl) fun _ _ h => by cases h }
  | .found, .unfollowUser followerId followingId =>
    if s.follows.rows.any (isActive followerId followingId) then
      some { s.answer c.callId (.ok ()) with
        follows := s.follows.updateWhere (isActive followerId followingId)
          (delete now) (fun _ => rfl) fun _ _ h => by cases h }
    else some (s.answer c.callId (.error (.consistency "unfollowing user" followingId)))
  | _, _ => none

/-- `blockUserInTx`; it waits for another transaction that has upserted the row. -/
def upsert (c : Call) : Option System :=
  match c.phase, c.request with
  | .begun, .blockUser blockerId blockedId _ =>
    if s.upsertedByOther c.callId blockerId blockedId then none
    else some (s.advance c.callId .blocked)
  | _, _ => none

/-- The accepted friendships of the two when an `UPDATE` begins. -/
def seenBetween (userId friendId : String) : List String :=
  (s.friendships.rows.filter fun f => f.between userId friendId && f.isAccepted).map
    (·.friendshipId)

/-- The beginning of an `UPDATE` that deletes the friendships of two users. -/
def removeStart (c : Call) : Option System :=
  match c.phase, c.request with
  | .found, .removeFriend userId friendId | .blocked, .blockUser userId friendId _ =>
    some (s.advance c.callId (.removing (s.seenBetween userId friendId)))
  | _, _ => none

/-- The end of such an `UPDATE`, whose rows are free. The one of `blockUser` stays uncommitted, and
how many rows it has deleted is not looked at. -/
def removeEnd (c : Call) (now : Int) : Option System :=
  match c.phase, c.request with
  | .removing seen, .removeFriend _ friendId =>
    if s.friendships.rows.any fun f => f.doomed seen && s.lockedByOther c.callId f then none
    else if s.friendships.rows.any (·.doomed seen) then
      some { s.answer c.callId (.ok ()) with
        friendships := s.friendships.updateWhere (·.doomed seen) (delete now)
          (fun _ => rfl) fun f => f.not_pair_delete now }
    else some (s.answer c.callId (.error (.consistency "removing friend" friendId)))
  | .removing seen, .blockUser .. =>
    if s.friendships.rows.any fun f => f.doomed seen && s.lockedByOther c.callId f then none
    else
      let locked := (s.friendships.rows.filter (·.doomed seen)).map (·.friendshipId)
      some (s.advance c.callId (.removed locked now))
  | _, _ => none

/-- The blocks after the upsert of one; a deleted block is in nobody's way. -/
def upserted (blockerId blockedId newId : String) (reason : Option String)
    (now : Int) : Blocks :=
  if s.isBlocked blockerId blockedId then
    s.blocks.updateWhere (Block.isActive blockerId blockedId) (Block.setReason reason)
      (fun _ => rfl) fun _ _ h => h
  else (s.blocks.insert? ⟨newId, blockerId, blockedId, reason, now, none⟩).getD s.blocks

/-- The commit of `blockUser`; the key of the block is new. -/
def commit (c : Call) (newId : String) : Option System :=
  match c.phase, c.request with
  | .removed locked now, .blockUser blockerId blockedId reason =>
    if (s.blocks.find? newId).isSome then none
    else
      some { s.answer c.callId (.ok ()) with
        friendships := s.friendships.updateWhere (fun f => locked.contains f.friendshipId)
          (delete now) (fun _ => rfl) fun f => f.not_pair_delete now
        blocks := s.upserted blockerId blockedId newId reason now }
  | _, _ => none

/-- A step of the system, if it can be made. -/
def step : Action → Option System
  | .begin callId request => s.begin callId request
  | .read callId q => (s.calls.find? callId).bind fun c => s.read c q
  | .resolve callId => (s.calls.find? callId).bind s.resolve
  | .find callId => (s.calls.find? callId).bind s.find
  | .update callId now => (s.calls.find? callId).bind fun c => s.update c now
  | .upsert callId => (s.calls.find? callId).bind s.upsert
  | .removeStart callId => (s.calls.find? callId).bind s.removeStart
  | .removeEnd callId now => (s.calls.find? callId).bind fun c => s.removeEnd c now
  | .commit callId newId => (s.calls.find? callId).bind fun c => s.commit c newId
  | .abort callId => (s.calls.find? callId).map fun _ => s.answer callId (.error .database)

end

/-- Nobody has to do with anybody. -/
def strangers : System := .start (.empty _ _) (.empty _ _) (.empty _ _)

end System

/-! ## Requests from their beginning to their answer -/

/-- A request that asks for a relationship, and the four queries that are answered. -/
def reads (callId : String) (request : Request) : List Action :=
  .begin callId request :: (Query.first.map (Action.read callId) ++ [.resolve callId])

/-- `userId` accepts a request. -/
def accepts (callId userId friendshipId : String) : List Action :=
  [.begin callId (.respondToFriendRequest userId friendshipId true), .find callId, .update callId 0]

/-- `blockerId` blocks somebody, with nothing in between. -/
def blocks (callId blockerId blockedId newId : String) : List Action :=
  [.begin callId (.blockUser blockerId blockedId none), .upsert callId, .removeStart callId,
    .removeEnd callId 0, .commit callId newId]

/-- Ada has asked Bob. -/
def adaAskedBob : Friendships :=
  ⟨[⟨"f", "ada", "bob", .pending, 0, 0, none⟩], by decide, by decide⟩

end QuizBackend.Social
