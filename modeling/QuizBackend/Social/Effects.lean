import QuizBackend.Social.Requests

/-!
# What a step changes

A step of a request changes nothing that is committed, or it is one of five writes (`Effect`), of which
none inserts a friendship or a follow. That is read off the steps here, so that what follows about
friendships and blocks does not take them apart again.
-/

namespace QuizBackend.Social

open Lib Table Friendship

/-- The request a step is of. -/
def Action.callId : Action → String
  | .begin callId _ | .read callId _ | .resolve callId | .find callId | .update callId _
  | .upsert callId | .removeStart callId | .removeEnd callId _ | .commit callId _
  | .abort callId => callId

/-- What a step does to the tables: nothing, or the write it is, with the request it is a step of and
how far that had come. -/
inductive Effect (s : System) (a : Action) (s' : System) : Prop
  | silent (hf : s'.friendships = s.friendships) (hb : s'.blocks = s.blocks)
      (hw : s'.follows = s.follows)
  | responded (c : Call) (userId friendshipId : String) (accept : Bool) (now : Int)
      (ha : a = .update c.callId now) (hc : s.calls.find? c.callId = some c)
      (hphase : c.phase = .found)
      (hrequest : c.request = .respondToFriendRequest userId friendshipId accept)
      (hf : s'.friendships = s.friendships.updateWhere (answerable userId friendshipId)
        (respond accept now) (fun _ => rfl) fun _ _ h => h)
      (hb : s'.blocks = s.blocks) (hw : s'.follows = s.follows)
  | deleted (p : Friendship → Bool) (now : Int)
      (hf : s'.friendships = s.friendships.updateWhere p (delete now) (fun _ => rfl)
        fun f => f.not_pair_delete now)
      (hb : s'.blocks = s.blocks) (hw : s'.follows = s.follows)
  | unblocked (blockerId blockedId : String) (now : Int)
      (hf : s'.friendships = s.friendships)
      (hb : s'.blocks = s.blocks.updateWhere (Block.isActive blockerId blockedId) (Block.delete now)
        (fun _ => rfl) fun _ _ h => by cases h)
      (hw : s'.follows = s.follows)
  | unfollowed (followerId followingId : String) (now : Int)
      (hf : s'.friendships = s.friendships) (hb : s'.blocks = s.blocks)
      (hw : s'.follows = s.follows.updateWhere (UserFollow.isActive followerId followingId)
        (UserFollow.delete now) (fun _ => rfl) fun _ _ h => by cases h)
  | blocked (c : Call) (blockerId blockedId newId : String) (reason : Option String)
      (locked : List String) (now : Int)
      (ha : a = .commit c.callId newId) (hc : s.calls.find? c.callId = some c)
      (hphase : c.phase = .removed locked now)
      (hrequest : c.request = .blockUser blockerId blockedId reason)
      (hnew : s.blocks.find? newId = none)
      (hf : s'.friendships = s.friendships.updateWhere (fun f => locked.contains f.friendshipId)
        (delete now) (fun _ => rfl) fun f => f.not_pair_delete now)
      (hb : s'.blocks = s.upserted blockerId blockedId newId reason now)
      (hw : s'.follows = s.follows)

variable {c : Call} {now : Int}

section Steps

variable {s s' : System} {a : Action} {callId : String}

theorem effect_answer (callId : String) (result : Except SocialError Unit) :
    Effect s a (s.answer callId result) :=
  .silent rfl rfl rfl

theorem effect_advance (callId : String) (phase : Phase) : Effect s a (s.advance callId phase) :=
  .silent rfl rfl rfl

theorem begin_effect {callId : String} {request : Request} (h : s.begin callId request = some s') :
    Effect s a s' := by
  obtain ⟨calls, hinsert, rfl⟩ := Option.map_eq_some_iff.mp h
  split <;> exact .silent rfl rfl rfl

theorem read_effect {q : Query} (h : s.read c q = some s') : Effect s a s' := by
  unfold System.read at h
  split at h
  · split at h
    · cases h
      exact effect_advance c.callId _
    · cases h
  · cases h

theorem resolve_effect (h : s.resolve c = some s') : Effect s a s' := by
  unfold System.resolve at h
  split at h
  · split at h
    · cases h
      exact effect_answer c.callId _
    · cases h
  · cases h

theorem effect_foundOr (callId : String) (found : Bool) (e : SocialError) :
    Effect s a (s.foundOr callId found e) := by
  unfold System.foundOr
  split
  · exact effect_advance callId _
  · exact effect_answer callId _

theorem find_effect (h : s.find c = some s') : Effect s a s' := by
  unfold System.find at h
  split at h
  · split at h
    · cases h
      exact effect_answer c.callId _
    · cases h
      exact effect_foundOr c.callId _ _
  · split at h
    · cases h
      exact effect_answer c.callId _
    · split at h
      · cases h
        exact effect_answer c.callId _
      · cases h
        exact effect_foundOr c.callId _ _
  · cases h
    exact effect_foundOr c.callId _ _
  · cases h
    exact effect_foundOr c.callId _ _
  · cases h
    exact effect_foundOr c.callId _ _
  · cases h

theorem upsert_effect (h : s.upsert c = some s') : Effect s a s' := by
  unfold System.upsert at h
  split at h
  · split at h
    · cases h
    · cases h
      exact effect_advance c.callId _
  · cases h

theorem removeStart_effect (h : s.removeStart c = some s') : Effect s a s' := by
  unfold System.removeStart at h
  split at h
  · cases h
    exact effect_advance c.callId _
  · cases h
    exact effect_advance c.callId _
  · cases h

/-! ### The steps that write -/

section

variable (hc : s.calls.find? c.callId = some c)
include hc

theorem update_effect (h : s.update c now = some s') : Effect s (.update c.callId now) s' := by
  unfold System.update at h
  split at h
  · next userId friendshipId accept hphase hrequest =>
    split at h
    · cases h
      exact .responded c userId friendshipId accept now rfl hc hphase hrequest rfl rfl rfl
    · cases h
      exact effect_answer c.callId _
  · next requesterId friendshipId hphase hrequest =>
    split at h
    · cases h
      exact .deleted (cancellable friendshipId) now rfl rfl rfl
    · cases h
      exact effect_answer c.callId _
  · next blockerId blockedId hphase hrequest =>
    split at h
    · cases h
    · cases h
      exact .unblocked blockerId blockedId now rfl rfl rfl
  · next followerId followingId hphase hrequest =>
    split at h
    · cases h
      exact .unfollowed followerId followingId now rfl rfl rfl
    · cases h
      exact effect_answer c.callId _
  · cases h

theorem commit_effect {newId : String} (h : s.commit c newId = some s') :
    Effect s (.commit c.callId newId) s' := by
  unfold System.commit at h
  split at h
  · next locked now blockerId blockedId reason hphase hrequest =>
    split at h
    · cases h
    · next hnew =>
      cases h
      rw [Bool.not_eq_true, Option.isSome_eq_false_iff, Option.isNone_iff_eq_none] at hnew
      exact .blocked c blockerId blockedId newId reason locked now rfl hc hphase hrequest hnew rfl rfl
        rfl
  · cases h

end

theorem removeEnd_effect (h : s.removeEnd c now = some s') : Effect s a s' := by
  unfold System.removeEnd at h
  split at h
  · next seen userId friendId hphase hrequest =>
    split at h
    · cases h
    · split at h
      · cases h
        exact .deleted (·.doomed seen) now rfl rfl rfl
      · cases h
        exact effect_answer c.callId _
  · split at h
    · cases h
    · cases h
      exact effect_advance c.callId _
  · cases h

/-- **Every step has an effect of one of the six kinds.** -/
theorem step_effect (h : s.step a = some s') : Effect s a s' := by
  cases a with
  | begin callId request => exact begin_effect h
  | read callId q =>
    obtain ⟨c, hc, rfl, hread⟩ := of_find?_bind h
    exact read_effect hread
  | resolve callId =>
    obtain ⟨c, hc, rfl, hresolve⟩ := of_find?_bind h
    exact resolve_effect hresolve
  | find callId =>
    obtain ⟨c, hc, rfl, hfind⟩ := of_find?_bind h
    exact find_effect hfind
  | update callId now =>
    obtain ⟨c, hc, rfl, hupdate⟩ := of_find?_bind h
    exact update_effect hc hupdate
  | upsert callId =>
    obtain ⟨c, hc, rfl, hupsert⟩ := of_find?_bind h
    exact upsert_effect hupsert
  | removeStart callId =>
    obtain ⟨c, hc, rfl, hremove⟩ := of_find?_bind h
    exact removeStart_effect hremove
  | removeEnd callId now =>
    obtain ⟨c, hc, rfl, hremove⟩ := of_find?_bind h
    exact removeEnd_effect hremove
  | commit callId newId =>
    obtain ⟨c, hc, rfl, hcommit⟩ := of_find?_bind h
    exact commit_effect hc hcommit
  | abort callId =>
    obtain ⟨c, hc, rfl⟩ := Option.map_eq_some_iff.mp h
    exact effect_answer callId _

end Steps

end QuizBackend.Social
