import QuizBackend.Bookmark.Requests

/-!
# Moving a bookmark

A move should take one bookmark out of the source and put one with the same notes into the target,
or change nothing. Two things break this.

* The transaction looks for the bookmark before it deletes it, takes no lock with that look and does
  not ask how many rows its `DELETE` has deleted. Where another move, or a removal, comes in between,
  it deletes nothing and inserts all the same: the quiz is in one collection more.
* The row it inserts has no notes.

A move is whole exactly where its transaction has deleted the bookmark itself and the bookmark has no
notes; and then only `addBookmark` makes the collections with a quiz more
(`bookmark_moves_iff`).
-/

namespace QuizBackend.Bookmark

open Lib Table UniqueTable

/-! ## What should hold -/

def System.owner (s : System) (collectionId : String) : Option String :=
  (s.collections.find? collectionId).map (·.userId)

def System.containing (s : System) (userId quizId : String) : Nat :=
  s.bookmarks.rows.countP fun b =>
    decide (b.quizId = quizId) && decide (s.owner b.collectionId = some userId)

/-- One bookmark of the quiz has left the source, and one with the same notes has come into the
target. -/
def Moved (s s' : System) (sourceCollectionId targetCollectionId quizId : String) : Prop :=
  ∃ b b', b ∈ s.bookmarks.rows ∧ b.collectionId = sourceCollectionId ∧ b.quizId = quizId ∧
    b' ∉ s.bookmarks.rows ∧ b'.collectionId = targetCollectionId ∧ b'.quizId = quizId ∧
    b'.notes = b.notes ∧
    ∀ x, x ∈ s'.bookmarks.rows ↔ (x ∈ s.bookmarks.rows ∧ x ≠ b) ∨ x = b'

section

variable (s : System)

def System.requestOf : Action → Option Request
  | .begin _ request => some request
  | .read callId | .select callId | .deleteStart callId | .deleteEnd callId _ | .insert callId _ _
  | .abort callId => (s.calls.find? callId).map (·.request)

def Returns (a : Action) (s' : System) (value : Value) : Prop :=
  s'.answers = s.answers ++ [(a.callId, .ok value)]

/-- A move that returns has moved the bookmark, and no other step of a move changes anything. -/
def MovesWhole (a : Action) (s' : System) : Prop :=
  ∀ userId source target quizId, s.requestOf a = some (.move userId source target quizId) →
    (Returns s a s' .moved → Moved s s' source target quizId) ∧
      (¬ Returns s a s' .moved → s'.bookmarks = s.bookmarks)

/-- Only adding puts a quiz into more collections of a user. -/
def GrowsByAdding (a : Action) (s' : System) : Prop :=
  ∀ userId quizId, s.containing userId quizId < s'.containing userId quizId →
    ∃ collectionId quizId notes user, s.requestOf a = some (.add collectionId quizId notes user)

/-- Moves are whole, and a quiz gets into more collections only by being added. -/
def MovesRight (a : Action) (s' : System) : Prop :=
  MovesWhole s a s' ∧ GrowsByAdding s a s'

def Call.HasTaken (c : Call) : Prop :=
  match c.phase, c.request with
  | .deleted locked, .move _ _ targetCollectionId quizId =>
    getBookmarkedQuiz s.bookmarks targetCollectionId quizId = none →
      ∃ b ∈ s.bookmarks.rows, locked = some b.bookmarkId ∧ b.notes = none
  | _, _ => True

def TakesFirst : Action → Prop
  | .insert callId _ _ => ∀ c, s.calls.find? callId = some c → c.HasTaken s
  | _ => True

end

instance (s : System) (c : Call) : Decidable (c.HasTaken s) := by
  unfold Call.HasTaken
  split <;> infer_instance

instance (s : System) (a : Action) : Decidable (TakesFirst s a) :=
  match a with
  | .insert callId _ _ => decidableOfFind (s.calls.find? callId) fun c => c.HasTaken s
  | .begin .. | .read _ | .select _ | .deleteStart _ | .deleteEnd .. | .abort _ => .isTrue trivial

/-! ## Locks -/

structure CallOk (s : System) (c : Call) : Prop where
  move : ∀ userId source target quizId, c.request = .move userId source target quizId →
    source ≠ target ∧ (c.phase ≠ .begun → s.owner source = some userId) ∧
      (c.phase ≠ .begun → c.phase ≠ .owned → s.owner target = some userId)
  locked : ∀ locked, c.phase = .deleted locked → ∃ userId source target quizId,
    c.request = .move userId source target quizId ∧ ∀ id, locked = some id →
      ∃ b ∈ s.bookmarks.rows, b.bookmarkId = id ∧ b.collectionId = source ∧ b.quizId = quizId

structure Inv (s : System) : Prop where
  calls : ∀ c ∈ s.calls.rows, CallOk s c
  exclusive : ∀ c ∈ s.calls.rows, ∀ c' ∈ s.calls.rows, ∀ id, c.phase = .deleted (some id) →
    c'.phase = .deleted (some id) → c = c'

theorem Inv.start (collections : Table String BookmarkCollection (·.collectionId))
    (quizzes : List String) (bookmarks : Bookmarks) :
    Inv (System.start collections quizzes bookmarks) :=
  ⟨fun _ hc => absurd hc List.not_mem_nil, fun _ hc => absurd hc List.not_mem_nil⟩

variable {callId bookmarkId : String} {phase : Phase} {nowIso : Int} {x : BookmarkedQuiz}

section Steps

variable {s s' : System}

theorem not_lockedByOther_iff {b : BookmarkedQuiz} :
    s.lockedByOther callId b = false ↔
      ∀ c ∈ s.calls.rows, c.callId ≠ callId → c.phase ≠ .deleted (some b.bookmarkId) := by
  simp [System.lockedByOther]

theorem CallOk.mono {c : Call} (h : CallOk s c) (hcollections : s'.collections = s.collections)
    (hrows : ∀ b ∈ s.bookmarks.rows, c.phase = .deleted (some b.bookmarkId) →
      b ∈ s'.bookmarks.rows) : CallOk s' c := by
  have howner : s'.owner = s.owner := by
    funext collectionId
    unfold System.owner
    rw [hcollections]
  refine ⟨?_, ?_⟩
  · rw [howner]
    exact h.move
  · intro locked hlocked
    obtain ⟨userId, source, target, quizId, hrequest, hrow⟩ := h.locked locked hlocked
    refine ⟨userId, source, target, quizId, hrequest, ?_⟩
    rintro id rfl
    obtain ⟨b, hb, rfl, hcollection, hquiz⟩ := hrow id rfl
    exact ⟨b, hrows b hb hlocked, rfl, hcollection, hquiz⟩

theorem Inv.answer (h : Inv s) (hcalls : s'.calls = s.calls.erase callId)
    (hcollections : s'.collections = s.collections)
    (hrows : ∀ b ∈ s.bookmarks.rows, s.lockedByOther callId b = true → b ∈ s'.bookmarks.rows) :
    Inv s' := by
  refine ⟨?_, ?_⟩
  · intro c hc
    rw [hcalls] at hc
    obtain ⟨hc, hne⟩ := mem_erase.mp hc
    refine (h.calls c hc).mono hcollections ?_
    intro b hb hphase
    refine hrows b hb ?_
    rw [← Bool.not_eq_false]
    exact fun hfree => not_lockedByOther_iff.mp hfree c hc hne hphase
  · intro c hc c' hc'
    rw [hcalls] at hc hc'
    exact h.exclusive c (mem_erase.mp hc).1 c' (mem_erase.mp hc').1

theorem Inv.advance (h : Inv s) {c : Call} (hc : s.calls.find? callId = some c)
    (hok : CallOk s { c with phase })
    (hfree : ∀ id, phase = .deleted (some id) → ∀ c' ∈ s.calls.rows, c'.callId ≠ callId →
      c'.phase ≠ .deleted (some id)) :
    Inv (s.advance callId phase) := by
  have hcases : ∀ x ∈ (s.advance callId phase).calls.rows,
      x = { c with phase } ∨ (x ∈ s.calls.rows ∧ x.callId ≠ callId) := by
    intro x hx
    have hmodified : x ∈ (s.calls.modify callId (fun c => { c with phase }) fun _ => rfl).rows := hx
    exact mem_modify_cases hc hmodified
  refine ⟨?_, ?_⟩
  · intro x hx
    rcases hcases x hx with rfl | ⟨hx, -⟩
    · exact hok.mono rfl fun b hb _ => hb
    · exact (h.calls x hx).mono rfl fun b hb _ => hb
  · intro x hx y hy id hxid hyid
    rcases hcases x hx with rfl | ⟨hx, hxne⟩
    · rcases hcases y hy with rfl | ⟨hy, hyne⟩
      · rfl
      · exact absurd hyid (hfree id hxid y hy hyne)
    · rcases hcases y hy with rfl | ⟨hy, -⟩
      · exact absurd hxid (hfree id hyid x hx hxne)
      · exact h.exclusive x hx y hy id hxid hyid

theorem Inv.advance_unlocked (h : Inv s) {c : Call} (hc : s.calls.find? callId = some c)
    (hunlocked : ∀ l, phase ≠ .deleted l)
    (hmove : ∀ userId source target quizId, c.request = .move userId source target quizId →
      (phase ≠ .begun → s.owner source = some userId) ∧ (phase ≠ .begun → phase ≠ .owned →
      s.owner target = some userId)) :
    Inv (s.advance callId phase) := by
  have hok := h.calls c (mem_of_find? hc)
  refine h.advance hc ⟨?_, fun l hl => absurd hl (hunlocked l)⟩ fun id hid => absurd hid (hunlocked _)
  intro userId source target quizId hrequest
  exact ⟨(hok.move userId source target quizId hrequest).1,
    hmove userId source target quizId hrequest⟩

/-! ## What each step does -/

theorem owner_of_getOwned {collectionId userId : String} {x : BookmarkCollection}
    (h : getOwnedCollectionOrThrow (s.collections.find? collectionId) ⟨userId, "user"⟩ = .ok x) :
    s.owner collectionId = some userId := by
  unfold getOwnedCollectionOrThrow at h
  unfold System.owner
  split at h
  · cases h
  · next collection hfind =>
    split at h
    · cases h
    · next howned =>
      rw [hfind, Option.map_some, Option.some.injEq]
      by_contra hother
      exact howned ⟨hother, fun hrole => absurd hrole (by decide : ("user" : String) ≠ "admin")⟩

theorem guarded_cases {α : Type} (callId : String) (check : Except BookmarkError α)
    (phase : Phase) :
    (∃ e, s.guarded callId check phase = s.answer callId (.error e)) ∨
      ∃ x, check = .ok x ∧ s.guarded callId check phase = s.advance callId phase := by
  cases check with
  | error e => exact .inl ⟨e, rfl⟩
  | ok x => exact .inr ⟨x, rfl, rfl⟩

/-- The phases the service goes through without a lock, and what a move has checked there. -/
def Unlocked (s : System) (c : Call) (phase : Phase) : Prop :=
  (∀ l, phase ≠ .deleted l) ∧
    ∀ userId source target quizId, c.request = .move userId source target quizId →
      (phase ≠ .begun → s.owner source = some userId) ∧
        (phase ≠ .begun → phase ≠ .owned → s.owner target = some userId)

theorem read_cases {c : Call} (hok : CallOk s c) (h : s.read c = some s') :
    (∃ e, s' = s.answer c.callId (.error e)) ∨
      ∃ phase, s' = s.advance c.callId phase ∧ Unlocked s c phase := by
  obtain ⟨callId, request, phase⟩ := c
  simp only [System.read] at h
  split at h
  · -- the first collection
    cases h
    rcases guarded_cases (s := s) callId (getOwnedCollectionOrThrow
      (s.collections.find? request.firstCollection.1) request.firstCollection.2)
      request.ownedPhase with ⟨e, he⟩ | ⟨x, hx, hgoes⟩
    · exact .inl ⟨e, he⟩
    · refine .inr ⟨_, hgoes, ?_, ?_⟩
      · intro l
        cases request <;> exact Phase.noConfusion
      · rintro userId source target quizId rfl
        exact ⟨fun _ => owner_of_getOwned hx, fun _ hne => absurd rfl hne⟩
  · split at h
    · cases h
      exact .inr ⟨_, rfl, fun _ => Phase.noConfusion, fun _ _ _ _ hreq => Request.noConfusion hreq⟩
    · cases h
      exact .inl ⟨_, rfl⟩
  · split at h
    · cases h
      exact .inl ⟨_, rfl⟩
    · cases h
      exact .inr ⟨_, rfl, fun _ => Phase.noConfusion, fun _ _ _ _ hreq => Request.noConfusion hreq⟩
  · -- the target of a move
    next userId source target quizId =>
    cases h
    rcases guarded_cases (s := s) callId (getOwnedCollectionOrThrow
      (s.collections.find? target) ⟨userId, "user"⟩) .targetOwned with ⟨e, he⟩ | ⟨x, hx, hgoes⟩
    · exact .inl ⟨e, he⟩
    · refine .inr ⟨_, hgoes, fun _ => Phase.noConfusion, ?_⟩
      intro userId' source' target' quizId' hreq
      have hsource := (hok.move userId' source' target' quizId' hreq).2.1 Phase.noConfusion
      cases hreq
      exact ⟨fun _ => hsource, fun _ _ => owner_of_getOwned hx⟩
  · split at h
    · cases h
      exact .inl ⟨_, rfl⟩
    · cases h
      refine .inr ⟨_, rfl, fun _ => Phase.noConfusion, ?_⟩
      intro userId source target quizId hreq
      have hmove := (hok.move userId source target quizId hreq).2
      exact ⟨fun _ => hmove.1 Phase.noConfusion, fun _ _ => hmove.2 Phase.noConfusion
        Phase.noConfusion⟩
  · cases h

theorem unlocked_of_checked {c : Call} (hok : CallOk s c) (hbegun : c.phase ≠ .begun)
    (howned : c.phase ≠ .owned) (hphase : ∀ l, phase ≠ .deleted l) : Unlocked s c phase := by
  refine ⟨hphase, ?_⟩
  intro userId source target quizId hreq
  have hmove := (hok.move userId source target quizId hreq).2
  exact ⟨fun _ => hmove.1 hbegun, fun _ _ => hmove.2 hbegun howned⟩

theorem select_cases {c : Call} (hok : CallOk s c) (h : s.select c = some s') :
    (∃ e, s' = s.answer c.callId (.error e)) ∨
      ∃ phase, s' = s.advance c.callId phase ∧ Unlocked s c phase := by
  obtain ⟨callId, request, phase⟩ := c
  simp only [System.select] at h
  split at h
  · split at h
    · cases h
      exact .inl ⟨_, rfl⟩
    · cases h
      exact .inr ⟨_, rfl, unlocked_of_checked hok Phase.noConfusion Phase.noConfusion
        fun _ => Phase.noConfusion⟩
  · cases h

theorem deleteStart_cases {c : Call} (hok : CallOk s c) (h : s.deleteStart c = some s') :
    ∃ phase, s' = s.advance c.callId phase ∧ Unlocked s c phase := by
  obtain ⟨callId, request, phase⟩ := c
  simp only [System.deleteStart] at h
  split at h
  · cases h
    exact ⟨_, rfl, unlocked_of_checked hok Phase.noConfusion Phase.noConfusion
      fun _ => Phase.noConfusion⟩
  · cases h
    exact ⟨_, rfl, unlocked_of_checked hok Phase.noConfusion Phase.noConfusion
      fun _ => Phase.noConfusion⟩
  · cases h
    exact ⟨_, rfl, unlocked_of_checked hok Phase.noConfusion Phase.noConfusion
      fun _ => Phase.noConfusion⟩
  · cases h

def Removes (s : System) (callId : String) (doomed : List BookmarkedQuiz) (value : Value)
    (s' : System) : Prop :=
  ∃ events, s' =
    { s.answer callId (.ok value) with
      bookmarks := s.bookmarks.deleteWhere fun b => decide (b ∈ doomed)
      events := s.events ++ events }

theorem mem_doomed {request : Request} {seen : List String} {b : BookmarkedQuiz}
    (h : b ∈ s.doomed request seen) : b ∈ s.bookmarks.rows ∧ request.deletes b = true := by
  obtain ⟨hb, hmatch⟩ := List.mem_filter.mp h
  exact ⟨hb, (Bool.and_eq_true_iff.mp hmatch).2⟩

theorem deleteEnd_cases {c : Call} (h : s.deleteEnd c nowIso = some s') :
    ∃ seen existing, c.phase = .deleting seen existing ∧
      (∀ b ∈ s.doomed c.request seen, s.lockedByOther c.callId b = false) ∧
      (((∀ u source target q, c.request ≠ .move u source target q) ∧
          ∃ value, Removes s c.callId (s.doomed c.request seen) value s') ∨
        ((∃ u source target q, c.request = .move u source target q) ∧
          s' = s.advance c.callId
            (.deleted ((s.doomed c.request seen).head?.map (·.bookmarkId))))) := by
  obtain ⟨callId, request, phase⟩ := c
  simp only [System.deleteEnd] at h
  split at h
  · next seen existing =>
    split at h
    · cases h
    · next hfree =>
      refine ⟨seen, existing, rfl, ?_, ?_⟩
      · intro b hb
        rw [← Bool.not_eq_true]
        exact fun hlocked => hfree (List.any_eq_true.mpr ⟨b, hb, hlocked⟩)
      · cases request with
        | add => cases h
        | remove =>
          cases h
          exact .inl ⟨fun _ _ _ _ => Request.noConfusion, _, _, rfl⟩
        | removeBulk =>
          cases h
          exact .inl ⟨fun _ _ _ _ => Request.noConfusion, _, _, rfl⟩
        | move u source target q =>
          cases h
          exact .inr ⟨⟨u, source, target, q, rfl⟩, rfl⟩
  · cases h

/-- The `INSERT` of `addBookmark` throws, or adds one row. -/
def Adds (s : System) (callId : String) (s' : System) : Prop :=
  (∃ e, s' = s.answer callId (.error e)) ∨
    ∃ b bookmarks events, s.bookmarks.insert? b = some bookmarks ∧
      s' = { s.answer callId (.ok (.added b)) with bookmarks, events }

theorem insert_cases {c : Call} (h : s.insert c bookmarkId nowIso = some s') :
    ((∃ collectionId quizId notes user, c.request = .add collectionId quizId notes user) ∧
        Adds s c.callId s') ∨
      ∃ locked userId source target quizId, c.phase = .deleted locked ∧
        c.request = .move userId source target quizId ∧
        s.bookmarks.find? bookmarkId = none ∧
        s' = s.insertMoved c.callId locked ⟨bookmarkId, target, quizId, none, nowIso, nowIso⟩ := by
  obtain ⟨callId, request, phase⟩ := c
  simp only [System.insert] at h
  split at h
  · split at h
    · cases h
      refine .inl ⟨⟨_, _, _, _, rfl⟩, ?_⟩
      unfold System.insertAdded
      split
      · exact .inl ⟨_, rfl⟩
      · next bookmarks hinsert => exact .inr ⟨_, bookmarks, _, hinsert, rfl⟩
    · cases h
  · next locked userId source target quizId =>
    split at h
    · next hmay =>
      cases h
      have hfresh := (Bool.and_eq_true_iff.mp hmay).1
      exact .inr ⟨locked, userId, source, target, quizId, rfl, rfl,
        Option.isNone_iff_eq_none.mp hfresh, rfl⟩
    · cases h
  · cases h

end Steps

/-! ## The move -/

section Move

variable {s : System} {c : Call} {locked : Option String} {userId source target quizId : String}
  {b : BookmarkedQuiz}

def System.rest (s : System) (locked : Option String) : Bookmarks :=
  s.bookmarks.deleteWhere fun x => decide (locked = some x.bookmarkId)

theorem mem_rest :
    x ∈ (s.rest locked).rows ↔ x ∈ s.bookmarks.rows ∧ locked ≠ some x.bookmarkId := by
  unfold System.rest
  rw [UniqueTable.mem_deleteWhere, decide_eq_false_iff_not]

theorem CallOk.row (hok : CallOk s c) (hphase : c.phase = .deleted locked)
    (hreq : c.request = .move userId source target quizId) {id : String} (hid : locked = some id) :
    ∃ x ∈ s.bookmarks.rows, x.bookmarkId = id ∧ x.collectionId = source ∧ x.quizId = quizId := by
  obtain ⟨_, _, _, _, hreq', hrow⟩ := hok.locked locked hphase
  rw [hreq] at hreq'
  cases hreq'
  exact hrow id hid

/-- **The insert of a move goes through** exactly where the target does not contain the quiz. -/
theorem insert?_rest_iff (hok : CallOk s c) (hphase : c.phase = .deleted locked)
    (hreq : c.request = .move userId source target quizId)
    (hfresh : s.bookmarks.find? b.bookmarkId = none) (htarget : b.collectionId = target)
    (hquiz : b.quizId = quizId) :
    (∃ t, (s.rest locked).insert? b = some t) ↔
      getBookmarkedQuiz s.bookmarks target quizId = none := by
  have hnew : ∀ x ∈ (s.rest locked).rows, x.bookmarkId ≠ b.bookmarkId :=
    fun x hx => find?_eq_none_iff.mp hfresh x (mem_rest.mp hx).1
  have hpair : b.pair = some (target, quizId) := by rw [BookmarkedQuiz.pair, htarget, hquiz]
  rw [insert?_isSome_iff hnew, getBookmarkedQuiz_eq_none_iff]
  constructor
  · rintro h x hx ⟨hcollection, hquiz'⟩
    -- what the transaction has deleted was in the source
    have hrest : x ∈ (s.rest locked).rows := by
      refine mem_rest.mpr ⟨hx, fun hlocked => ?_⟩
      obtain ⟨y, hy, hkey, hsource, -⟩ := hok.row hphase hreq hlocked
      rw [eq_of_key_eq hy hx hkey, hcollection] at hsource
      exact (hok.move _ _ _ _ hreq).1 hsource.symm
    refine h x hrest (target, quizId) hpair ?_
    rw [BookmarkedQuiz.pair, hcollection, hquiz']
  · intro h x hx i hi hxi
    rw [hpair, Option.some.injEq] at hi
    rw [BookmarkedQuiz.pair, ← hi, Option.some.injEq, Prod.mk.injEq] at hxi
    exact h x (mem_rest.mp hx).1 hxi

variable {s' : System} {t : Bookmarks}

theorem mem_of_insert?_rest (hinsert : (s.rest locked).insert? b = some t) :
    x ∈ t.rows ↔ (x ∈ s.bookmarks.rows ∧ locked ≠ some x.bookmarkId) ∨ x = b := by
  rw [rows_of_insert? hinsert, List.mem_append, List.mem_singleton, mem_rest]

/-- **A committed move has moved the bookmark** exactly where it has deleted it, without notes. -/
theorem moved_iff (hok : CallOk s c) (hphase : c.phase = .deleted locked)
    (hreq : c.request = .move userId source target quizId)
    (hfresh : s.bookmarks.find? b.bookmarkId = none) (htarget : b.collectionId = target)
    (hquiz : b.quizId = quizId) (hnotes : b.notes = none)
    (hinsert : (s.rest locked).insert? b = some t) (hs' : s'.bookmarks = t) :
    Moved s s' source target quizId ↔
      ∃ x ∈ s.bookmarks.rows, locked = some x.bookmarkId ∧ x.notes = none := by
  have hnew : b ∉ s.bookmarks.rows :=
    fun hb => find?_eq_none_iff.mp hfresh b hb rfl
  unfold Moved
  rw [hs']
  simp only [mem_of_insert?_rest hinsert]
  constructor
  · rintro ⟨x, y, hx, hsource, hxquiz, hy, -, -, hsame, hrows⟩
    -- `x` is gone, so the transaction has deleted it; `y` is the row it has inserted
    obtain rfl : y = b := by
      rcases (hrows y).mpr (.inr rfl) with ⟨hmem, -⟩ | heq
      · exact absurd hmem hy
      · exact heq
    refine ⟨x, hx, ?_, hsame ▸ hnotes⟩
    by_contra hkept
    rcases (hrows x).mp (.inl ⟨hx, hkept⟩) with ⟨-, hne⟩ | rfl
    · exact hne rfl
    · exact hy hx
  · rintro ⟨x, hx, hlocked, hxnotes⟩
    obtain ⟨y, hy, hkey, hsource, hyquiz⟩ := hok.row hphase hreq hlocked
    obtain rfl := eq_of_key_eq hy hx hkey
    refine ⟨y, b, hy, hsource, hyquiz, hnew, htarget, hquiz, hnotes.trans hxnotes.symm, ?_⟩
    intro x
    have hkept : (x ∈ s.bookmarks.rows ∧ locked ≠ some x.bookmarkId) ↔
        x ∈ s.bookmarks.rows ∧ x ≠ y := by
      refine and_congr_right fun hx => not_congr ?_
      rw [hlocked, Option.some.injEq]
      constructor
      · intro heq
        exact eq_of_key_eq hx hy heq.symm
      · rintro rfl
        rfl
    rw [hkept]

theorem containing_of_moved (s' : System) (hok : CallOk s c) (hphase : c.phase = .deleted locked)
    (hreq : c.request = .move userId source target quizId) (htarget : b.collectionId = target)
    (hquiz : b.quizId = quizId) (hx : x ∈ s.bookmarks.rows) (hlocked : locked = some x.bookmarkId)
    (hinsert : (s.rest locked).insert? b = some t) (hs' : s'.bookmarks = t)
    (hcollections : s'.collections = s.collections) (u q : String) :
    s'.containing u q = s.containing u q := by
  obtain ⟨y, hy, hkey, hsource, hyquiz⟩ := hok.row hphase hreq hlocked
  obtain rfl := eq_of_key_eq hy hx hkey
  have hperm : s.bookmarks.rows.Perm (y :: (s.rest locked).rows) := by
    refine (List.perm_ext_iff_of_nodup s.bookmarks.rows_nodup ?_).mpr ?_
    · refine List.nodup_cons.mpr ⟨?_, (s.rest locked).rows_nodup⟩
      intro hmem
      exact (mem_rest.mp hmem).2 hlocked
    · intro z
      rw [List.mem_cons, mem_rest, hlocked]
      constructor
      · intro hz
        by_cases heq : z = y
        · exact .inl heq
        · refine .inr ⟨hz, fun hid => heq ?_⟩
          exact eq_of_key_eq hz hy (Option.some.inj hid).symm
      · rintro (rfl | ⟨hz, -⟩)
        · exact hy
        · exact hz
  have howned : s.owner b.collectionId = s.owner y.collectionId := by
    have hmove := (hok.move _ _ _ _ hreq).2
    have hbegun : c.phase ≠ .begun := hphase ▸ Phase.noConfusion
    have hnotOwned : c.phase ≠ .owned := hphase ▸ Phase.noConfusion
    rw [htarget, hsource, hmove.1 hbegun, hmove.2 hbegun hnotOwned]
  have howner : s'.owner = s.owner := by
    funext collectionId
    unfold System.owner
    rw [hcollections]
  unfold System.containing
  rw [hs', rows_of_insert? hinsert, hperm.countP_eq, List.countP_append,
    List.countP_singleton, List.countP_cons, howner, howned, hquiz, hyquiz]

end Move

/-! ## Steps -/

section Run

variable {s s' : System} {a : Action}

theorem Inv.goes_on (h : Inv s) {c : Call} (hc : s.calls.find? callId = some c)
    (heffect : (∃ e, s' = s.answer c.callId (.error e)) ∨ ∃ phase, s' = s.advance c.callId phase ∧
      Unlocked s c phase) :
    Inv s' := by
  obtain rfl := key_of_find? hc
  rcases heffect with ⟨e, rfl⟩ | ⟨phase, rfl, hunlocked, hmove⟩
  · exact h.answer rfl rfl fun b hb _ => hb
  · exact h.advance_unlocked hc hunlocked hmove

theorem Inv.begin (h : Inv s) {request : Request} (hstep : s.begin callId request = some s') :
    Inv s' := by
  unfold System.begin at hstep
  obtain ⟨calls, hinsert, hs'⟩ := Option.map_eq_some_iff.mp hstep
  split at hs'
  · subst hs'
    exact ⟨fun c hc => (h.calls c hc).mono rfl fun b hb _ => hb, h.exclusive⟩
  · next hvalid =>
    subst hs'
    have hrows : ∀ c ∈ calls.rows, c ∈ s.calls.rows ∨ c = ⟨callId, request, .begun⟩ := by
      intro c hc
      rw [rows_of_insert? hinsert, List.mem_append, List.mem_singleton] at hc
      exact hc
    refine ⟨?_, ?_⟩
    · intro c hc
      rcases hrows c hc with hc | rfl
      · exact (h.calls c hc).mono rfl fun b hb _ => hb
      · refine ⟨?_, fun l hl => Phase.noConfusion hl⟩
        rintro userId source target quizId rfl
        refine ⟨?_, fun hne => absurd rfl hne, fun hne => absurd rfl hne⟩
        rintro rfl
        have hsame : (Request.move userId source source quizId).validate =
            .error (.bookmarkConflict bookmarkMoveSameCollectionMessage) := if_pos rfl
        rw [hsame] at hvalid
        cases hvalid
    · intro c hc c' hc' id hphase hphase'
      rcases hrows c hc with hc | rfl
      · rcases hrows c' hc' with hc' | rfl
        · exact h.exclusive c hc c' hc' id hphase hphase'
        · cases hphase'
      · cases hphase

theorem Inv.deleteEnd (h : Inv s) {c : Call} (hc : s.calls.find? callId = some c)
    (hstep : s.deleteEnd c nowIso = some s') : Inv s' := by
  obtain rfl := key_of_find? hc
  have hok := h.calls c (mem_of_find? hc)
  obtain ⟨seen, existing, hphase, hfree, hcases⟩ := deleteEnd_cases hstep
  rcases hcases with ⟨-, value, events, rfl⟩ | ⟨⟨u, source, target, q, hreq⟩, rfl⟩
  · refine h.answer rfl rfl ?_
    intro b hb hlocked
    refine mem_deleteWhere.mpr ⟨hb, ?_⟩
    rw [decide_eq_false_iff_not]
    intro hdoomed
    rw [hfree b hdoomed] at hlocked
    cases hlocked
  · -- the row of the lock, where there is one
    have hhead : ∀ id, (s.doomed c.request seen).head?.map (·.bookmarkId) = some id →
        ∃ b ∈ s.doomed c.request seen, b.bookmarkId = id := by
      intro id hid
      obtain ⟨b, hb, hkey⟩ := Option.map_eq_some_iff.mp hid
      exact ⟨b, List.mem_of_mem_head? hb, hkey⟩
    refine h.advance hc ⟨?_, ?_⟩ ?_
    · intro u' source' target' q' hreq'
      have hmove := hok.move u' source' target' q' hreq'
      have hbegun : c.phase ≠ .begun := hphase ▸ Phase.noConfusion
      have howned : c.phase ≠ .owned := hphase ▸ Phase.noConfusion
      exact ⟨hmove.1, fun _ => hmove.2.1 hbegun, fun _ _ => hmove.2.2 hbegun howned⟩
    · intro locked hlocked
      refine ⟨u, source, target, q, hreq, ?_⟩
      intro id hid
      rw [Phase.deleted.injEq] at hlocked
      obtain ⟨b, hb, hkey⟩ := hhead id (hlocked.trans hid)
      obtain ⟨hmem, hdeletes⟩ := mem_doomed hb
      rw [hreq] at hdeletes
      obtain ⟨hsource, hquiz⟩ := Bool.and_eq_true_iff.mp hdeletes
      exact ⟨b, hmem, hkey, of_decide_eq_true hsource, of_decide_eq_true hquiz⟩
    · intro id hid c' hc' hne
      obtain ⟨b, hb, rfl⟩ := hhead id (Phase.deleted.inj hid)
      exact not_lockedByOther_iff.mp (hfree b hb) c' hc' hne

theorem Inv.insert (h : Inv s) {c : Call} (hc : s.calls.find? callId = some c)
    (hstep : s.insert c bookmarkId nowIso = some s') : Inv s' := by
  obtain rfl := key_of_find? hc
  rcases insert_cases hstep with ⟨-, ⟨e, rfl⟩ | ⟨b, bookmarks, events, hinsert, rfl⟩⟩ |
    ⟨locked, userId, source, target, quizId, hphase, -, -, rfl⟩
  · exact h.answer rfl rfl fun b hb _ => hb
  · refine h.answer rfl rfl ?_
    intro x hx _
    show x ∈ bookmarks.rows
    rw [rows_of_insert? hinsert]
    exact List.mem_append_left _ hx
  · unfold System.insertMoved
    split
    · exact h.answer rfl rfl fun b hb _ => hb
    · next bookmarks hinsert =>
      refine h.answer rfl rfl ?_
      intro x hx hlocked
      show x ∈ bookmarks.rows
      refine (mem_of_insert?_rest hinsert).mpr (.inl ⟨hx, ?_⟩)
      -- the row another transaction has deleted is not the one of this transaction
      rintro rfl
      have hfree : s.lockedByOther c.callId x = false := by
        refine not_lockedByOther_iff.mpr ?_
        intro c' hc' hne hphase'
        exact hne (congrArg Call.callId
          (h.exclusive c' hc' c (mem_of_find? hc) _ hphase' hphase))
      rw [hfree] at hlocked
      cases hlocked

/-- **No row is deleted by two transactions**, and a deleted row is there until the commit. -/
theorem Inv.step (h : Inv s) (hstep : s.step a = some s') : Inv s' := by
  cases a with
  | begin callId request => exact h.begin hstep
  | read callId =>
    obtain ⟨c, hc, rfl, hread⟩ := of_find?_bind hstep
    exact h.goes_on hc (read_cases (h.calls c (mem_of_find? hc)) hread)
  | select callId =>
    obtain ⟨c, hc, rfl, hselect⟩ := of_find?_bind hstep
    exact h.goes_on hc (select_cases (h.calls c (mem_of_find? hc)) hselect)
  | deleteStart callId =>
    obtain ⟨c, hc, rfl, hstart⟩ := of_find?_bind hstep
    exact h.goes_on hc (.inr (deleteStart_cases (h.calls c (mem_of_find? hc)) hstart))
  | deleteEnd callId nowIso =>
    obtain ⟨c, hc, rfl, hend⟩ := of_find?_bind hstep
    exact h.deleteEnd hc hend
  | insert callId bookmarkId nowIso =>
    obtain ⟨c, hc, rfl, hinsert⟩ := of_find?_bind hstep
    exact h.insert hc hinsert
  | abort callId =>
    obtain ⟨c, hc, rfl⟩ := Option.map_eq_some_iff.mp hstep
    exact h.answer rfl rfl fun b hb _ => hb

/-! ## When moves are whole -/

theorem MovesRight.of_quiet (hbookmarks : s'.bookmarks = s.bookmarks)
    (hcollections : s'.collections = s.collections) (hreturns : ¬ Returns s a s' .moved) :
    MovesRight s a s' := by
  refine ⟨fun _ _ _ _ _ => ⟨fun h => absurd h hreturns, fun _ => hbookmarks⟩, ?_⟩
  intro userId quizId hgrows
  refine absurd hgrows ?_
  unfold System.containing System.owner
  rw [hbookmarks, hcollections]
  exact Nat.lt_irrefl _

theorem not_returns_of_eq (h : s'.answers = s.answers) : ¬ Returns s a s' .moved := by
  unfold Returns
  rw [h]
  intro heq
  have hlen := congrArg List.length heq
  rw [List.length_append, List.length_singleton] at hlen
  omega

theorem not_returns_of_error {e : BookmarkError}
    (h : s'.answers = s.answers ++ [(callId, .error e)]) : ¬ Returns s a s' .moved := by
  unfold Returns
  rw [h]
  intro heq
  have hpair := List.append_cancel_left heq
  rw [List.cons.injEq, Prod.mk.injEq] at hpair
  cases hpair.1.2

theorem MovesRight.of_goes_on {c : Call}
    (heffect : (∃ e, s' = s.answer callId (.error e)) ∨ ∃ phase, s' = s.advance callId phase ∧
      Unlocked s c phase) :
    MovesRight s a s' := by
  rcases heffect with ⟨e, rfl⟩ | ⟨phase, rfl, -⟩
  · exact .of_quiet rfl rfl (not_returns_of_error rfl)
  · exact .of_quiet rfl rfl (not_returns_of_eq rfl)

theorem MovesRight.begin {request : Request} (hstep : s.begin callId request = some s') :
    MovesRight s a s' := by
  unfold System.begin at hstep
  obtain ⟨calls, -, hs'⟩ := Option.map_eq_some_iff.mp hstep
  split at hs'
  · subst hs'
    exact .of_quiet rfl rfl (not_returns_of_error rfl)
  · subst hs'
    exact .of_quiet rfl rfl (not_returns_of_eq rfl)

theorem MovesRight.deleteEnd {c : Call} (hc : s.calls.find? callId = some c)
    (hstep : s.deleteEnd c nowIso = some s') : MovesRight s (.deleteEnd callId nowIso) s' := by
  obtain ⟨seen, existing, -, -, hcases⟩ := deleteEnd_cases hstep
  rcases hcases with ⟨hnot, value, events, rfl⟩ | ⟨-, rfl⟩
  · refine ⟨?_, ?_⟩
    · intro userId source target quizId hreq
      rw [System.requestOf, hc, Option.map_some, Option.some.injEq] at hreq
      exact absurd hreq (hnot userId source target quizId)
    · intro userId quizId hgrows
      refine absurd hgrows (Nat.not_lt.mpr ?_)
      exact List.Sublist.countP_le List.filter_sublist
  · exact .of_quiet rfl rfl (not_returns_of_eq rfl)

/-- **A move is whole exactly where it has taken the bookmark.** -/
theorem movesRight_insert_iff (h : Inv s) {c : Call} (hc : s.calls.find? callId = some c)
    (hstep : s.insert c bookmarkId nowIso = some s') :
    c.HasTaken s ↔ MovesRight s (.insert callId bookmarkId nowIso) s' := by
  obtain rfl := key_of_find? hc
  have hok := h.calls c (mem_of_find? hc)
  have hrequest : s.requestOf (.insert c.callId bookmarkId nowIso) = some c.request := by
    rw [System.requestOf, hc, Option.map_some]
  rcases insert_cases hstep with ⟨⟨collectionId, quizId, notes, user, hreq⟩, -⟩ |
    ⟨locked, userId, source, target, quizId, hphase, hreq, hfresh, rfl⟩
  · -- nothing is asked of a request that adds
    rw [hreq] at hrequest
    refine iff_of_true ?_ ⟨?_, fun _ _ _ => ⟨collectionId, quizId, notes, user, hrequest⟩⟩
    · unfold Call.HasTaken
      rw [hreq]
      split
      · next heq => cases heq
      · trivial
    · intro _ _ _ _ hmove
      rw [hrequest] at hmove
      cases hmove
  · have htaken : c.HasTaken s ↔ (getBookmarkedQuiz s.bookmarks target quizId = none →
        ∃ b ∈ s.bookmarks.rows, locked = some b.bookmarkId ∧ b.notes = none) := by
      unfold Call.HasTaken
      rw [hphase, hreq]
    rw [hreq] at hrequest
    rw [htaken]
    unfold System.insertMoved
    have hgoes := insert?_rest_iff (b := ⟨bookmarkId, target, quizId, none, nowIso, nowIso⟩) hok
      hphase hreq hfresh rfl rfl
    split
    · next hrefused =>
      -- the target contains the quiz: the transaction is rolled back
      refine iff_of_true (fun hnone => ?_)
        (.of_quiet rfl rfl (not_returns_of_error rfl))
      obtain ⟨t, ht⟩ := hgoes.mpr hnone
      rw [System.rest, hrefused] at ht
      cases ht
    · next t hinsert =>
      rw [forall_prop_of_true (hgoes.mp ⟨t, hinsert⟩)]
      have hmoved : Moved s { s.answer c.callId (.ok .moved) with bookmarks := t } source target
          quizId ↔ ∃ x ∈ s.bookmarks.rows, locked = some x.bookmarkId ∧ x.notes = none :=
        moved_iff (b := ⟨bookmarkId, target, quizId, none, nowIso, nowIso⟩) hok hphase hreq hfresh
          rfl rfl rfl hinsert rfl
      constructor
      · intro hhas
        refine ⟨?_, ?_⟩
        · intro userId' source' target' quizId' hreq'
          rw [hrequest] at hreq'
          cases hreq'
          exact ⟨fun _ => hmoved.mpr hhas, fun hnot => absurd rfl hnot⟩
        · intro u q hgrows
          obtain ⟨x, hx, hlocked, -⟩ := hhas
          have hsame := containing_of_moved { s.answer c.callId (.ok .moved) with bookmarks := t }
            hok hphase hreq rfl rfl hx hlocked hinsert rfl rfl u q
          exact absurd hgrows (Nat.not_lt.mpr (Nat.le_of_eq hsame))
      · intro hright
        exact hmoved.mp ((hright.1 userId source target quizId hrequest).1 rfl)

theorem movesRight_step_iff (h : Inv s) (hstep : s.step a = some s') :
    TakesFirst s a ↔ MovesRight s a s' := by
  cases a with
  | begin callId request => exact iff_of_true trivial (.begin hstep)
  | read callId =>
    obtain ⟨c, hc, rfl, hread⟩ := of_find?_bind hstep
    exact iff_of_true trivial
      (.of_goes_on (read_cases (h.calls c (mem_of_find? hc)) hread))
  | select callId =>
    obtain ⟨c, hc, rfl, hselect⟩ := of_find?_bind hstep
    exact iff_of_true trivial
      (.of_goes_on (select_cases (h.calls c (mem_of_find? hc)) hselect))
  | deleteStart callId =>
    obtain ⟨c, hc, rfl, hstart⟩ := of_find?_bind hstep
    exact iff_of_true trivial
      (.of_goes_on (.inr (deleteStart_cases (h.calls c (mem_of_find? hc)) hstart)))
  | deleteEnd callId nowIso =>
    obtain ⟨c, hc, rfl, hend⟩ := of_find?_bind hstep
    exact iff_of_true trivial (.deleteEnd hc hend)
  | insert callId bookmarkId nowIso =>
    obtain ⟨c, hc, rfl, hinsert⟩ := of_find?_bind hstep
    rw [← movesRight_insert_iff h hc hinsert]
    constructor
    · intro htakes
      exact htakes c hc
    · intro htaken c' hc'
      rw [hc, Option.some.injEq] at hc'
      exact hc' ▸ htaken
  | abort callId =>
    obtain ⟨c, hc, rfl⟩ := Option.map_eq_some_iff.mp hstep
    exact iff_of_true trivial (.of_quiet rfl rfl (not_returns_of_error rfl))

end Run

/-- **Moves neither lose nor duplicate a bookmark exactly where they have taken it themselves.** For
every interleaving of requests that add, remove and move: each move that returns has taken one
bookmark out of the source and put one with the same notes into the target, one that throws has
changed nothing, and only requests that add put a quiz into more collections of a user — if and only
if every move that is about to insert has deleted the bookmark, which has no notes. -/
theorem bookmark_moves_iff (collections : Table String BookmarkCollection (·.collectionId))
    (quizzes : List String) (bookmarks : Bookmarks) (actions : List Action) {t : System}
    (ht : exec System.step (.start collections quizzes bookmarks) actions = some t) :
    EachStep System.step MovesRight (.start collections quizzes bookmarks) actions ↔
      Along System.step TakesFirst (.start collections quizzes bookmarks) actions :=
  along_iff_eachStep (I := Inv) (fun _ _ _ h hstep => h.step hstep)
    (fun _ _ _ h hstep => movesRight_step_iff h hstep) ht (.start collections quizzes bookmarks)

def shelf (notes : Option String) : System :=
  .start ⟨[⟨"a", "ada"⟩, ⟨"b", "ada"⟩, ⟨"c", "ada"⟩], by decide⟩ ["q"]
    ⟨[⟨"1", "a", "q", notes, 0, 0⟩], List.nodup_singleton _, List.nodup_singleton _⟩

def moveBegins (callId target : String) : List Action :=
  [.begin callId (.move "ada" "a" target "q"), .read callId, .read callId, .read callId,
    .select callId]

def moveDeletes (callId : String) : List Action :=
  [.deleteStart callId, .deleteEnd callId 1]

/-- A bookmark without notes is moved to and fro. -/
theorem bookmark_moves_twice :
    ∃ t, exec System.step (shelf none) (moveBegins "m1" "b" ++ moveDeletes "m1" ++
        [.insert "m1" "2" 1, .begin "m2" (.move "ada" "b" "a" "q"), .read "m2", .read "m2",
          .read "m2", .select "m2", .deleteStart "m2", .deleteEnd "m2" 2, .insert "m2" "3" 2]) =
      some t ∧ t.containing "ada" "q" = 1 ∧
      EachStep System.step MovesRight (shelf none) (moveBegins "m1" "b" ++ moveDeletes "m1" ++
        [.insert "m1" "2" 1, .begin "m2" (.move "ada" "b" "a" "q"), .read "m2", .read "m2",
          .read "m2", .select "m2", .deleteStart "m2", .deleteEnd "m2" 2, .insert "m2" "3" 2]) := by
  refine exists_of_read (fun t => t.containing "ada" "q") 1 (by decide +kernel) fun t ht hcount => ?_
  exact ⟨hcount, (bookmark_moves_iff _ _ _ _ ht).mpr (by decide +kernel)⟩

/-- Two moves of one bookmark to different targets both return: it is in two collections then. And a
move on its own loses the notes. -/
theorem bookmark_moves_broken :
    ¬ EachStep System.step MovesRight (shelf none) (moveBegins "m1" "b" ++ moveBegins "m2" "c" ++
        moveDeletes "m1" ++ [.insert "m1" "2" 1] ++ moveDeletes "m2" ++ [.insert "m2" "3" 1]) ∧
      ¬ EachStep System.step MovesRight (shelf (some "read me")) (moveBegins "m1" "b" ++
        moveDeletes "m1" ++ [.insert "m1" "2" 1]) := by
  refine ⟨?_, ?_⟩
  · intro h
    obtain ⟨m, n, hok, hread, hcount⟩ := h.read _ _ (List.prefix_refl _)
      (fun m => (m.containing "ada" "q", m.requestOf (.insert "m2" "3" 1)))
      (1, some (.move "ada" "a" "c" "q")) (fun n => n.containing "ada" "q") 2
      (by decide +kernel) (by decide +kernel)
    obtain ⟨hbefore, hrequest⟩ := Prod.mk.inj hread
    obtain ⟨_, _, _, _, hadds⟩ := hok.2 "ada" "q" (by rw [hbefore, hcount]; decide)
    rw [hrequest] at hadds
    cases hadds
  · intro h
    obtain ⟨m, n, hok, hread, hread'⟩ := h.read _ _ (List.prefix_refl _)
      (fun m => (m.requestOf (.insert "m1" "2" 1), m.bookmarks.rows, m.answers.length))
      (some (.move "ada" "a" "b" "q"), [⟨"1", "a", "q", some "read me", 0, 0⟩], 0)
      (fun n => (n.bookmarks.rows, n.answers))
      ([⟨"2", "b", "q", none, 1, 1⟩], [("m1", .ok .moved)]) (by decide +kernel) (by decide +kernel)
    obtain ⟨hrequest, hread⟩ := Prod.mk.inj hread
    rw [Prod.mk.injEq] at hread hread'
    have hreturns : Returns m (.insert "m1" "2" 1) n .moved := by
      unfold Returns
      rw [hread'.2, List.length_eq_zero_iff.mp hread.2]
      rfl
    obtain ⟨b, b', hb, -, -, -, -, -, hnotes, hmem⟩ :=
      (hok.1 "ada" "a" "b" "q" hrequest).1 hreturns
    have hb' := (hmem b').mpr (.inr rfl)
    rw [hread.1, List.mem_singleton] at hb
    rw [hread'.1, List.mem_singleton] at hb'
    rw [hb, hb'] at hnotes
    cases hnotes

end QuizBackend.Bookmark
