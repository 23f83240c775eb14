import QuizBackend.Social.Effects
import Mathlib.Data.List.Dedup

/-!
# One friendship for two users

The index `uq_friendships_pair` is about requester and addressee in this order, and what
`sendFriendRequest` asks before it inserts does not find a request in the other direction. That would
let two users who have asked each other become friends twice, if either could ask: no request is
inserted by the code as it is (`Requests`). What the tables hold of friendships only becomes less, or
goes from pending to accepted or rejected (`Shrinks`), so two users who have one open row at most keep
at most one, however requests interleave (`friendships_unique`).
-/

namespace QuizBackend.Social

open Lib UniqueTable Friendship

/-! ## What should hold -/

/-- Undeleted, and pending or accepted. -/
def Friendship.Live (f : Friendship) : Prop :=
  f.deletedAt = none ∧ (f.status = .pending ∨ f.status = .accepted)

instance (f : Friendship) : Decidable f.Live := inferInstanceAs (Decidable (_ ∧ _))

/-- Between the same two users, whoever asked. -/
def Friendship.SamePair (f g : Friendship) : Prop :=
  (f.requesterId = g.requesterId ∧ f.addresseeId = g.addresseeId) ∨
    (f.requesterId = g.addresseeId ∧ f.addresseeId = g.requesterId)

instance (f g : Friendship) : Decidable (f.SamePair g) := inferInstanceAs (Decidable (_ ∨ _))

/-- Two users have one live row at most. -/
def Unique (t : Friendships) : Prop :=
  ∀ f ∈ t.rows, ∀ g ∈ t.rows, f.Live → g.Live → f.SamePair g → f = g

instance (t : Friendships) : Decidable (Unique t) :=
  inferInstanceAs (Decidable (∀ f ∈ t.rows, ∀ g ∈ t.rows, _ → _ → _ → _))

/-- What unique rows are wanted for: a friend is counted once and listed once. -/
structure FriendsOnce (s : System) : Prop where
  unique : Unique s.friendships
  counted : ∀ userId,
    s.getFriendCount userId = ((s.friendRows userId).map (System.friendOf userId)).dedup.length
  listed : ∀ userId limit cursor, (s.getFriends userId limit cursor).Nodup

/-- A row that is accepted after a step was accepted before it, or was pending, and the step is its
addressee's. -/
def AcceptedByAddressee (s : System) (a : Action) (s' : System) : Prop :=
  ∀ f' ∈ s'.friendships.rows, f'.status = .accepted →
    ∃ f ∈ s.friendships.rows, f.friendshipId = f'.friendshipId ∧ (f.status = .accepted ∨
      f.status = .pending ∧ ∃ c, s.calls.find? a.callId = some c ∧
        c.request = .respondToFriendRequest f.addresseeId f.friendshipId true)

/-! ## The lists of friends -/

variable {f : Friendship} {requesterId addresseeId : String}

section Lists

variable {s : System} {userId : String}

theorem live_of_isAccepted (h : f.isAccepted = true) : f.Live ∧ f.status = .accepted := by
  rw [isAccepted, Bool.and_eq_true, decide_eq_true_iff, Option.isNone_iff_eq_none] at h
  exact ⟨⟨h.2, .inr h.1⟩, h.1⟩

theorem mem_friendRows (h : f ∈ s.friendRows userId) :
    f ∈ s.friendships.rows ∧ (f.requesterId = userId ∨ f.addresseeId = userId) ∧ f.Live := by
  obtain ⟨hf, hmatch⟩ := List.mem_filter.mp h
  rw [Bool.and_eq_true, Bool.or_eq_true, beq_iff_eq, beq_iff_eq] at hmatch
  exact ⟨hf, hmatch.1, (live_of_isAccepted hmatch.2).1⟩

theorem samePair_of_friendOf {g : Friendship} (hf : f.requesterId = userId ∨ f.addresseeId = userId)
    (hg : g.requesterId = userId ∨ g.addresseeId = userId)
    (h : System.friendOf userId f = System.friendOf userId g) : f.SamePair g := by
  unfold System.friendOf at h
  unfold SamePair
  split at h
  · next hfu =>
    split at h
    · next hgu => exact .inl ⟨hfu.trans hgu.symm, h⟩
    · next hgu => exact .inr ⟨hfu.trans (hg.resolve_left hgu).symm, h⟩
  · next hfu =>
    have hfa := hf.resolve_left hfu
    split at h
    · next hgu => exact .inr ⟨h, hfa.trans hgu.symm⟩
    · next hgu => exact .inl ⟨h, hfa.trans (hg.resolve_left hgu).symm⟩

theorem Unique.nodup_friends (h : Unique s.friendships) (userId : String) :
    ((s.friendRows userId).map (System.friendOf userId)).Nodup := by
  refine List.Nodup.map_on ?_ (s.friendships.rows_nodup.filter _)
  intro f hf g hg hsame
  obtain ⟨hf, hfu, hflive⟩ := mem_friendRows hf
  obtain ⟨hg, hgu, hglive⟩ := mem_friendRows hg
  exact h f hf g hg hflive hglive (samePair_of_friendOf hfu hgu hsame)

/-- **What the unique rows are good for**: counts and lists are of friends. -/
theorem Unique.friendsOnce (h : Unique s.friendships) : FriendsOnce s where
  unique := h
  counted userId := by
    rw [List.dedup_eq_self.mpr (h.nodup_friends userId), List.length_map]
    rfl
  listed userId limit cursor := by
    unfold System.getFriends
    refine List.Nodup.sublist ((List.take_sublist _ _).map _) ?_
    refine (((List.perm_insertionSort _ _).map _).nodup_iff).mpr ?_
    exact (h.nodup_friends userId).sublist (List.filter_sublist.map _)

end Lists

/-! ## Steps -/

section Steps

variable {s s' : System} {a : Action}

/-- Every row was there before, between the same users, and was live if it is. -/
def Shrinks (t t' : Friendships) : Prop :=
  ∀ f' ∈ t'.rows, ∃ f ∈ t.rows, f.friendshipId = f'.friendshipId ∧
    f.requesterId = f'.requesterId ∧ f.addresseeId = f'.addresseeId ∧ (f'.Live → f.Live)

theorem Unique.shrinks {t t' : Friendships} (h : Unique t) (hs : Shrinks t t') : Unique t' := by
  intro f' hf' g' hg' hflive hglive hsame
  obtain ⟨f, hf, hfid, hfr, hfa, hfl⟩ := hs f' hf'
  obtain ⟨g, hg, hgid, hgr, hga, hgl⟩ := hs g' hg'
  have hfg : f = g := by
    refine h f hf g hg (hfl hflive) (hgl hglive) ?_
    unfold SamePair at hsame ⊢
    rw [hfr, hfa, hgr, hga]
    exact hsame
  refine eq_of_key_eq hf' hg' ?_
  show f'.friendshipId = g'.friendshipId
  rw [← hfid, ← hgid, hfg]

theorem shrinks_delete (t : Friendships) (p : Friendship → Bool) (now : Int) :
    Shrinks t (t.updateWhere p (delete now) (fun _ => rfl)
      fun f => f.not_pair_delete now) := by
  intro f' hf'
  rcases mem_updateWhere.mp hf' with ⟨f, hf, -, rfl⟩ | ⟨hf', -⟩
  · exact ⟨f, hf, rfl, rfl, rfl, fun hlive => by cases hlive.1⟩
  · exact ⟨f', hf', rfl, rfl, rfl, fun hlive => hlive⟩

theorem answerable_iff {userId friendshipId : String} :
    f.answerable userId friendshipId = true ↔ f.friendshipId = friendshipId ∧
      f.addresseeId = userId ∧ f.status = .pending ∧ f.deletedAt = none := by
  rw [answerable, isPending, Bool.and_eq_true, Bool.and_eq_true,
    Bool.and_eq_true, beq_iff_eq, beq_iff_eq, decide_eq_true_iff, Option.isNone_iff_eq_none,
    and_assoc]

theorem shrinks_respond (t : Friendships) (userId friendshipId : String) (accept : Bool)
    (now : Int) :
    Shrinks t (t.updateWhere (answerable userId friendshipId)
      (respond accept now) (fun _ => rfl) fun _ _ h => h) := by
  intro f' hf'
  rcases mem_updateWhere.mp hf' with ⟨f, hf, hmatch, rfl⟩ | ⟨hf', -⟩
  · obtain ⟨-, -, hpending, hundeleted⟩ := answerable_iff.mp hmatch
    exact ⟨f, hf, rfl, rfl, rfl, fun _ => ⟨hundeleted, .inl hpending⟩⟩
  · exact ⟨f', hf', rfl, rfl, rfl, fun hlive => hlive⟩

theorem shrinks_of_eq {t t' : Friendships} (h : t' = t) : Shrinks t t' := by
  intro f' hf'
  exact ⟨f', h ▸ hf', rfl, rfl, rfl, fun hlive => hlive⟩

/-- **No step adds a friendship.** -/
theorem shrinks_effect (h : Effect s a s') : Shrinks s.friendships s'.friendships := by
  cases h with
  | silent hf => exact shrinks_of_eq hf
  | responded c userId friendshipId accept now ha hc hphase hrequest hf =>
    rw [hf]
    exact shrinks_respond s.friendships userId friendshipId accept now
  | deleted p now hf =>
    rw [hf]
    exact shrinks_delete s.friendships p now
  | unblocked blockerId blockedId now hf => exact shrinks_of_eq hf
  | unfollowed followerId followingId now hf => exact shrinks_of_eq hf
  | blocked c blockerId blockedId newId reason locked now ha hc hphase hrequest hnew hf =>
    rw [hf]
    exact shrinks_delete s.friendships _ now

theorem acceptedByAddressee_effect (h : Effect s a s') : AcceptedByAddressee s a s' := by
  have hsame : s'.friendships = s.friendships → AcceptedByAddressee s a s' := by
    intro hf f' hf' haccepted
    exact ⟨f', hf ▸ hf', rfl, .inl haccepted⟩
  have hdeleted : ∀ (p : Friendship → Bool) (now : Int), s'.friendships = s.friendships.updateWhere p
      (delete now) (fun _ => rfl) (fun f => f.not_pair_delete now) →
      AcceptedByAddressee s a s' := by
    intro p now hf f' hf' haccepted
    rw [hf] at hf'
    rcases mem_updateWhere.mp hf' with ⟨f, hf, -, rfl⟩ | ⟨hf', -⟩
    · exact ⟨f, hf, rfl, .inl haccepted⟩
    · exact ⟨f', hf', rfl, .inl haccepted⟩
  cases h with
  | silent hf => exact hsame hf
  | responded c userId friendshipId accept now ha hc hphase hrequest hf =>
    intro f' hf' haccepted
    rw [hf] at hf'
    rcases mem_updateWhere.mp hf' with ⟨f, hmem, hmatch, rfl⟩ | ⟨hf', -⟩
    · obtain ⟨rfl, rfl, hpending, -⟩ := answerable_iff.mp hmatch
      cases accept with
      | false => cases haccepted
      | true =>
        refine ⟨f, hmem, rfl, .inr ⟨hpending, c, ?_, hrequest⟩⟩
        rw [ha]
        exact hc
    · exact ⟨f', hf', rfl, .inl haccepted⟩
  | deleted p now hf => exact hdeleted p now hf
  | unblocked blockerId blockedId now hf => exact hsame hf
  | unfollowed followerId followingId now hf => exact hsame hf
  | blocked c blockerId blockedId newId reason locked now ha hc hphase hrequest hnew hf =>
    exact hdeleted _ now hf

/-- **Friendships are unique.** From any tables in which they are, and however requests interleave,
they are unique in every state of a run, nobody is counted or listed twice, and what is accepted was
pending, and is accepted by its addressee. -/
theorem friendships_unique {friendships : Friendships} (blocks : Blocks) (follows : Follows)
    (hunique : Unique friendships) (actions : List Action) :
    Always System.step FriendsOnce (.start friendships blocks follows) actions ∧
      EachStep System.step AcceptedByAddressee (.start friendships blocks follows) actions := by
  refine good_of_step ?_ (Unique.friendsOnce hunique) actions
  intro s a s' hs hstep
  have heffect := step_effect hstep
  exact ⟨(hs.unique.shrinks (shrinks_effect heffect)).friendsOnce, acceptedByAddressee_effect heffect⟩

end Steps

/-- Bob accepts what Ada has asked him and ends it; that she asks again comes to nothing. -/
theorem friendships_unique_in_turn :
    ∃ t, exec System.step (.start adaAskedBob (.empty _ _) (.empty _ _))
        (accepts "1" "bob" "f" ++ reads "2" (.sendFriendRequest "ada" "bob") ++
          [.begin "3" (.removeFriend "bob" "ada"), .find "3", .removeStart "3", .removeEnd "3" 0])
          = some t ∧
      (t.getFriendCount "ada", t.answers.lookup "2") = (0, some (.error .notIterable)) ∧
      (Always System.step FriendsOnce (.start adaAskedBob (.empty _ _) (.empty _ _))
          (accepts "1" "bob" "f" ++ reads "2" (.sendFriendRequest "ada" "bob") ++
            [.begin "3" (.removeFriend "bob" "ada"), .find "3", .removeStart "3", .removeEnd "3" 0]) ∧
        EachStep System.step AcceptedByAddressee (.start adaAskedBob (.empty _ _) (.empty _ _))
          (accepts "1" "bob" "f" ++ reads "2" (.sendFriendRequest "ada" "bob") ++
            [.begin "3" (.removeFriend "bob" "ada"), .find "3", .removeStart "3",
              .removeEnd "3" 0])) := by
  refine exists_of_read (fun t => (t.getFriendCount "ada", t.answers.lookup "2"))
    (0, some (.error .notIterable)) (by decide +kernel) fun t ht hread => ?_
  exact ⟨hread, friendships_unique (.empty _ _) (.empty _ _) (by decide) _⟩

end QuizBackend.Social
