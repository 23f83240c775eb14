import QuizBackend.Social.Relationships

/-!
# A friend request

`PendingRequestExistsError` has two sources in `sendFriendRequest`, the answer of
`getRelationshipStatus` and the unique index of the table. Neither is reached: the relationship is asked
for first, and asking throws (`getRelationshipStatus_eq`). So users who are strangers cannot become
friends, and whoever has asked already is not told so (`reportsPending_never`).

`System.sendFriendRequest` and `System.followUser` are the two methods in one piece, with what stands
after the question. As requests among others they come to the same (`exec_reads`).
-/

namespace QuizBackend.Social

open Lib

/-! ## The two methods -/

namespace System

/-- What `sendFriendRequest` makes of the relationship. -/
def checkFriendRequest (relationship : RelationshipStatus) : Except SocialError Unit :=
  if relationship.isBlocked then .error .blockedUser
  else if relationship.isBlockedBy then .error .userBlocked
  else if relationship.isFriend then .error .alreadyFriends
  else if relationship.hasPendingRequest then .error .pendingRequestExists
  else .ok ()

/-- `sendFriendRequest` on the tables as they are: its answer, and the friendships it leaves. A request
whose pair is in the index is refused by it. -/
def sendFriendRequest (s : System) (requesterId addresseeId newId : String) (now : Int) :
    Except SocialError Friendships := do
  (Request.sendFriendRequest requesterId addresseeId).validate
  let relationship ← s.getRelationshipStatus requesterId addresseeId
  checkFriendRequest relationship
  match s.friendships.insert? ⟨newId, requesterId, addresseeId, .pending, now, now, none⟩ with
  | none => throw .pendingRequestExists
  | some friendships => pure friendships

/-- `followUser` on the tables as they are. Its `INSERT` inserts nothing for a pair that is in the index,
whose row it looks for then. -/
def followUser (s : System) (followerId followingId newId : String) (now : Int) :
    Except SocialError Follows := do
  (Request.followUser followerId followingId).validate
  let relationship ← s.getRelationshipStatus followerId followingId
  if relationship.isBlocked || relationship.isBlockedBy then throw .blockedUser
  match s.follows.insert? ⟨newId, followerId, followingId, now, none⟩ with
  | none =>
    if s.follows.rows.any (UserFollow.isActive followerId followingId) then pure s.follows
    else throw .database
  | some follows => pure follows

/-- The error is thrown exactly for a pending request, and else there is one afterwards, under the
key that is new. -/
structure ReportsPending (s : System) (requesterId addresseeId newId : String) (now : Int) :
    Prop where
  reported : s.sendFriendRequest requesterId addresseeId newId now = .error .pendingRequestExists ↔
    s.query requesterId addresseeId .hasPendingRequest = true
  created : s.query requesterId addresseeId .hasPendingRequest = false →
    ∃ friendships, s.sendFriendRequest requesterId addresseeId newId now = .ok friendships ∧
      friendships.rows =
        s.friendships.rows ++ [⟨newId, requesterId, addresseeId, .pending, now, now, none⟩]

end System

/-! ## What they come to -/

section

variable {s : System} {userId targetId newId : String} {now : Int}

/-- A friend request is refused, whatever the tables hold. -/
theorem sendFriendRequest_eq : s.sendFriendRequest userId targetId newId now =
    .error (if userId = targetId then .selfFriendRequest else .notIterable) := by
  unfold System.sendFriendRequest
  rw [System.getRelationshipStatus_eq, Request.validate]
  split <;> rfl

/-- So is a follow. -/
theorem followUser_eq : s.followUser userId targetId newId now =
    .error (if userId = targetId then .selfFriendRequest else .notIterable) := by
  unfold System.followUser
  rw [System.getRelationshipStatus_eq, Request.validate]
  split <;> rfl

/-! ### Among other requests -/

/-- A state with one more request under way. -/
def System.under (s : System) (c : Call) (h : c.callId ∉ s.calls.rows.map (·.callId)) : System :=
  { s with calls := s.calls.insertNew c h }

/-- Queries that are sent one after the other. -/
theorem exec_reading {callId : String} {request : Request}
    (hrequest : request.relationship = some (userId, targetId))
    (hnew : callId ∉ s.calls.rows.map (·.callId)) {queries : List Query} {reads : Reads}
    (hfirst : ∀ q ∈ queries, q ∈ Query.first)
    (hnodup : (reads.map Prod.fst ++ queries).Nodup) :
    exec System.step (s.under ⟨callId, request, .reading reads⟩ hnew)
        (queries.map (Action.read callId)) =
      some (s.under ⟨callId, request,
        .reading (reads ++ queries.map fun q => (q, s.query userId targetId q))⟩ hnew) := by
  induction queries generalizing reads with
  | nil => rw [List.map_nil, List.map_nil, List.append_nil, exec_nil]
  | cons q queries ih =>
    have hunread : q ∉ reads.map Prod.fst := fun hread =>
      (List.nodup_append.mp hnodup).2.2 q hread q List.mem_cons_self rfl
    have hstep : (s.under ⟨callId, request, .reading reads⟩ hnew).step (.read callId q) =
        some (s.under ⟨callId, request,
          .reading (reads ++ [(q, s.query userId targetId q)])⟩ hnew) := by
      have hfind := Table.find?_insertNew (t := s.calls) (r := ⟨callId, request, .reading reads⟩) hnew
      simp only [System.step, System.under, hfind, Option.bind_some, System.read, hrequest]
      rw [if_pos ⟨hfirst q List.mem_cons_self, hunread⟩]
      exact congrArg some (congrArg (fun calls => { s with calls }) (Table.modify_insertNew hnew))
    rw [List.map_cons, exec_cons, hstep, Option.bind_some,
      ih (fun p hp => hfirst p (List.mem_cons_of_mem q hp)) (by simpa using hnodup)]
    simp

/-- **A request or a follow among other requests**: with nothing in between, the steps of one leave the
tables as they are, and answer it as the method does. -/
theorem exec_reads {callId : String} {request : Request}
    (hvalid : request.validate = .ok ())
    (hrequest : request.relationship = some (userId, targetId))
    (hnew : callId ∉ s.calls.rows.map (·.callId)) :
    exec System.step s (reads callId request) =
      some { s with answers := s.answers ++ [(callId, .error .notIterable)] } := by
  have hbegin : s.step (.begin callId request) =
      some (s.under ⟨callId, request, .reading []⟩ hnew) := by
    simp only [System.step, System.begin, Request.start, hrequest, Option.isSome_some, if_true,
      Table.insert?, hnew, not_false_eq_true, dif_pos, Option.map_some, hvalid]
    rfl
  have hread : ∀ p ∈ Query.first, p ∈ (Query.first.map fun q =>
      (q, s.query userId targetId q)).map Prod.fst := by
    simp [Query.first]
  rw [reads, exec_cons, hbegin, Option.bind_some, exec_append,
    exec_reading hrequest hnew (fun q hq => hq) (by decide), Option.bind_some, List.nil_append,
    exec_cons]
  have hfind := Table.find?_insertNew (t := s.calls) (r := ⟨callId, request,
    .reading (Query.first.map fun q => (q, s.query userId targetId q))⟩) hnew
  have herase := Table.erase_insertNew (t := s.calls) (r := ⟨callId, request,
    .reading (Query.first.map fun q => (q, s.query userId targetId q))⟩) hnew
  simp only [System.step, System.under, hfind, Option.bind_some, System.resolve, if_pos hread,
    System.answer, exec_nil, herase]

/-- **The error never means what it says.** Where a request is pending it is not thrown, and where none
is there is none afterwards. -/
theorem reportsPending_never (s : System) (requesterId addresseeId newId : String) (now : Int) :
    ¬ s.ReportsPending requesterId addresseeId newId now := by
  intro h
  have hthrows : s.sendFriendRequest requesterId addresseeId newId now =
      .error (if requesterId = addresseeId then .selfFriendRequest else .notIterable) :=
    sendFriendRequest_eq
  cases hpending : s.query requesterId addresseeId .hasPendingRequest with
  | true =>
    have hreported := h.reported.mpr hpending
    rw [hthrows] at hreported
    split at hreported <;> cases hreported
  | false =>
    obtain ⟨friendships, hok, -⟩ := h.created hpending
    rw [hthrows] at hok
    cases hok

end

/-- Ada, who is neither Bob's friend nor blocked, asks him, and there is no request. -/
theorem strangers_cannot_ask :
    ¬ ∀ (actions : List Action) (t : System), exec System.step .strangers actions = some t →
      ∀ (requesterId addresseeId newId : String) (now : Int), requesterId ≠ addresseeId →
        t.query requesterId addresseeId .isFriend = false →
        t.blockedBetween requesterId addresseeId = false → t.friendships.find? newId = none →
        t.ReportsPending requesterId addresseeId newId now := by
  intro h
  have hreports := h [] .strangers rfl "ada" "bob" "f" 0 (by decide) rfl rfl rfl
  obtain ⟨friendships, hok, -⟩ := hreports.created rfl
  cases hok

end QuizBackend.Social
