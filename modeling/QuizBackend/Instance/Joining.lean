import QuizBackend.Instance.Effects

/-!
# Joining an instance

`joinInstance` answers `INSTANCE_NOT_OPEN` unless the instance it has read is open. Its transaction
comes later, and reads the players alone: the lock on the row of the instance orders it among the
other joins and the writes of the status, but nobody looks at the status again. So the two things that
the transaction decides itself, who is in already and how many they are, hold in every run; that the
instance is open when a player comes in does not (`player_joins_running_instance`), and
`players_join_open_instances_iff` says in which runs it does.
-/

namespace QuizBackend.Instance

open Lib Write

/-! ## Statements -/

def Db.isOpen (db : Db) (instanceId : Uuid) : Bool :=
  (db.quizInstances.find? instanceId).any (·.status = .opened)

/-- No user joins twice, and no instance is overfull. -/
structure SeatsOk (db : Db) : Prop where
  once : ∀ instanceId userId, (db.quizInstancePlayers.rows.countP fun row =>
    row.instanceId = instanceId ∧ row.userId = userId) ≤ 1
  capacity : ∀ instanceId row, db.quizInstances.find? instanceId = some row →
    ∀ n ∈ row.maxPlayers, (db.countPlayers instanceId : Int) ≤ n

/-- Who joins finds the instance open. -/
def JoinsOpen (s : State) (_ : Action) (s' : State) : Prop :=
  ∀ player ∈ s'.db.quizInstancePlayers.rows, player ∉ s.db.quizInstancePlayers.rows →
    s'.db.isOpen player.instanceId = true

instance (s : State) (a : Action) (s' : State) : Decidable (JoinsOpen s a s') :=
  inferInstanceAs (Decidable (∀ player ∈ s'.db.quizInstancePlayers.rows,
    player ∉ s.db.quizInstancePlayers.rows → s'.db.isOpen player.instanceId = true))

def Db.refusesJoin (db : Db) (instanceId userId : Uuid) (maxPlayers : Option Int) : Bool :=
  (db.quizInstancePlayers.find? (instanceId, userId)).isSome ||
    maxPlayers.any (· ≤ (db.countPlayers instanceId : Int))

/-- At the transaction of a join the instance is still open, or the user is refused anyway. -/
def Request.joinsInTime (db : Db) : Request → Bool
  | .joinInstanceAtomic instanceId userId maxPlayers _ =>
    db.isOpen instanceId || db.refusesJoin instanceId userId maxPlayers
  | _ => true

def Upheld (s : State) : Action → Prop
  | .advance i _ => ∀ r ∈ s.requests[i]?, r.joinsInTime s.db = true
  | _ => True

/-! ## Seats -/

theorem once_of_table (db : Db) (instanceId userId : Uuid) :
    (db.quizInstancePlayers.rows.countP fun row =>
      row.instanceId = instanceId ∧ row.userId = userId) ≤ 1 := by
  have hcount := List.nodup_iff_count_le_one.mp db.quizInstancePlayers.nodup (instanceId, userId)
  rw [List.count, List.countP_map] at hcount
  refine Nat.le_trans (Nat.le_of_eq (List.countP_congr ?_)) hcount
  intro row _
  simp [QuizInstancePlayerRow.key, Prod.ext_iff]

/-- What the seats of an instance depend on: every player is in an instance that is there, and there
is room for everybody. -/
structure Seated (db : Db) : Prop where
  instanceOf : ∀ player ∈ db.quizInstancePlayers.rows,
    (db.quizInstances.find? player.instanceId).isSome
  capacity : ∀ instanceId row, db.quizInstances.find? instanceId = some row →
    ∀ n ∈ row.maxPlayers, (db.countPlayers instanceId : Int) ≤ n

theorem Seated.ok {db : Db} (h : Seated db) : SeatsOk db := ⟨once_of_table db, h.capacity⟩

theorem seated_empty : Seated .empty := by
  refine ⟨?_, ?_⟩
  · intro player hplayer
    cases hplayer
  · intro instanceId row hrow
    cases hrow

theorem Seated.countPlayers_of_none {db : Db} (h : Seated db) {instanceId : Uuid}
    (hnone : db.quizInstances.find? instanceId = none) : db.countPlayers instanceId = 0 := by
  refine List.countP_eq_zero.mpr ?_
  intro player hplayer hin
  have hsome := h.instanceOf player hplayer
  rw [(of_decide_eq_true hin).1, hnone] at hsome
  cases hsome

section Apply

variable {db : Db} {clock : Int} {w : Write} {es : List DomainEvent}

theorem isSome_apply (h : Licensed db clock w es) {k : Uuid}
    (hsome : (db.quizInstances.find? k).isSome) : ((db.apply w).quizInstances.find? k).isSome := by
  obtain ⟨row, hrow⟩ := Option.isSome_iff_exists.mp hsome
  rw [find?_quizInstances_of_find? h hrow]
  rfl

theorem isSome_of_newPlayer (h : Licensed db clock w es) {player : QuizInstancePlayerRow}
    (hnew : w.newPlayer = some player) :
    ((db.apply w).quizInstances.find? player.instanceId).isSome := by
  have hafter := find?_quizInstances_apply h player.instanceId
  have hkept := isSome_apply h (k := player.instanceId)
  cases h with
  | nothing => cases hnew
  | update found => cases hnew
  | create fresh valid opened hosted =>
    cases hnew
    rw [hafter, hosted]
    simp [newInstance]
  | @join row player found =>
    cases hnew
    exact hkept (Option.isSome_iff_exists.mpr ⟨row, found⟩)

/-- **A write keeps the capacity**: a new instance has room for its host, a join has counted. -/
theorem Seated.apply (hs : Seated db) (h : Licensed db clock w es) : Seated (db.apply w) := by
  refine ⟨?_, ?_⟩
  · intro player hplayer
    rw [rows_quizInstancePlayers_apply h, List.mem_append, Option.mem_toList] at hplayer
    rcases hplayer with hold | hnew
    · exact isSome_apply h (hs.instanceOf player hold)
    · exact isSome_of_newPlayer h hnew
  · intro k row' hrow' n hn
    rw [countPlayers_apply h]
    rw [find?_quizInstances_apply h] at hrow'
    cases h with
    | nothing =>
      obtain ⟨row, hrow, rfl⟩ := Option.map_eq_some_iff.mp hrow'
      exact hs.capacity k row hrow n hn
    | update found =>
      obtain ⟨row, hrow, rfl⟩ := Option.map_eq_some_iff.mp hrow'
      rw [edits_maxPlayers] at hn
      exact hs.capacity k row hrow n hn
    | @create row host nowIso fresh valid opened hosted =>
      simp only [newInstance] at hrow'
      simp only [newPlayer, Option.any_some, hosted, decide_eq_true_eq]
      split at hrow'
      · rename_i hk
        cases hrow'
        subst hk
        rw [hs.countPlayers_of_none fresh, if_pos rfl]
        have hpos := (valid.1 n hn).1
        omega
      · rename_i hk
        rw [if_neg hk]
        exact hs.capacity k row' hrow' n hn
    | @join row player found joined free room =>
      obtain ⟨row', hrow, rfl⟩ := Option.map_eq_some_iff.mp hrow'
      simp only [newPlayer, Option.any_some, decide_eq_true_eq]
      split
      · rename_i hk
        subst hk
        rw [found, Option.some.injEq] at hrow
        subst hrow
        have hroom := room n hn
        omega
      · exact hs.capacity k row' hrow n hn

/-- **Who is new after a write**: the player it inserts, if it inserts one. -/
theorem forall_new_iff (h : Licensed db clock w es) {P : QuizInstancePlayerRow → Prop} :
    (∀ player ∈ (db.apply w).quizInstancePlayers.rows,
      player ∉ db.quizInstancePlayers.rows → P player) ↔ ∀ player ∈ w.newPlayer, P player := by
  have hfree : ∀ player ∈ w.newPlayer, player ∉ db.quizInstancePlayers.rows := by
    intro player hnew hin
    have hfound := Table.find?_of_mem hin
    cases h with
    | nothing => cases hnew
    | update found => cases hnew
    | create _ _ _ _ _ free =>
      cases hnew
      cases free.symm.trans hfound
    | join _ _ free _ =>
      cases hnew
      cases free.symm.trans hfound
  rw [rows_quizInstancePlayers_apply h]
  constructor
  · intro hall player hnew
    exact hall player (List.mem_append.mpr (.inr (Option.mem_toList.mpr hnew))) (hfree player hnew)
  · intro hall player hin hout
    rcases List.mem_append.mp hin with hold | hnew
    · exact absurd hold hout
    · exact hall player (Option.mem_toList.mp hnew)

end Apply

/-! ## Steps -/

theorem join_of_insertPlayer {db : Db} {clock : Int} {id : Uuid} {r : Request} {p : Progress}
    {player : QuizInstancePlayerRow} (h : r.next db clock id = some p)
    (hwrite : p.write = .insertPlayer player) :
    ∃ instanceId userId maxPlayers nowIso,
      r = .joinInstanceAtomic instanceId userId maxPlayers nowIso := by
  cases r with
  | joinInstanceAtomic instanceId userId maxPlayers nowIso =>
    exact ⟨instanceId, userId, maxPlayers, nowIso, rfl⟩
  | createInstance quizVersionId userId maxPlayers nowIso =>
    simp only [Request.next] at h
    split at h
    · cases h
    · split at h
      · cases h
        cases hwrite
      · cases h
        cases hwrite
  | startInstanceCount instanceId userId nowIso version =>
    simp only [Request.next] at h
    split at h
    · cases h
      cases hwrite
    · cases h
      cases hwrite
  | updateInstanceStatus w instanceId nowIso version =>
    cases h
    simp only [Db.updateInstanceStatus] at hwrite
    split at hwrite
    · cases hwrite
    · split at hwrite
      · cases hwrite
      · split at hwrite
        · cases hwrite
        · cases hwrite
  | done => cases h
  | skipped reason => cases h
  | failed error => cases h
  | _ =>
    cases h
    cases hwrite

theorem newPlayer_joinInstanceAtomic (db : Db) (instanceId userId : Uuid) (maxPlayers : Option Int)
    (nowIso : Int) (id : Uuid) :
    (db.joinInstanceAtomic instanceId userId maxPlayers nowIso id).write.newPlayer
      = if db.refusesJoin instanceId userId maxPlayers = true then none
        else some { instancePlayerId := id, instanceId, userId, joinedAt := nowIso } := by
  unfold Db.joinInstanceAtomic Db.refusesJoin
  by_cases hin : (db.quizInstancePlayers.find? (instanceId, userId)).isSome = true
  · simp [hin, Progress.goto, newPlayer]
  · by_cases hfull : maxPlayers.any (· ≤ (db.countPlayers instanceId : Int)) = true
    · simp [hin, hfull, Progress.goto, newPlayer]
    · simp [hin, hfull, newPlayer]

theorem isOpen_joinInstanceAtomic (db : Db) (instanceId userId : Uuid) (maxPlayers : Option Int)
    (nowIso : Int) (id k : Uuid) :
    (db.apply (db.joinInstanceAtomic instanceId userId maxPlayers nowIso id).write).isOpen k
      = db.isOpen k := by
  unfold Db.joinInstanceAtomic
  split
  · rfl
  · split
    · rfl
    · rfl

theorem isOpen_of_newPlayer {db : Db} {clock : Int} {w : Write} {es : List DomainEvent}
    (h : Licensed db clock w es) (hjoin : ∀ player, w ≠ .insertPlayer player) :
    ∀ player ∈ w.newPlayer, (db.apply w).isOpen player.instanceId = true := by
  intro player hnew
  have hafter := find?_quizInstances_apply h player.instanceId
  cases h with
  | nothing => cases hnew
  | update found => cases hnew
  | join found => exact absurd rfl (hjoin _)
  | create fresh valid opened hosted =>
    cases hnew
    rw [Db.isOpen, hafter, hosted]
    simp [newInstance, opened]

section Step

variable {s s' : State} {a : Action}

/-- **The condition is what a step needs** for nobody to come into an instance that is not open. -/
theorem upheld_iff (h : Inv s) (hstep : step s a = some s') : Upheld s a ↔ JoinsOpen s a s' := by
  have hother : s'.db = s.db → JoinsOpen s a s' := by
    intro hdb player hin hout
    rw [hdb] at hin
    exact absurd hin hout
  cases a with
  | arrive r =>
    cases hstep
    exact iff_of_true trivial (hother rfl)
  | abort i =>
    obtain ⟨r, hr, hstep⟩ := Option.bind_eq_some_iff.mp hstep
    split at hstep
    · cases hstep
    · cases hstep
      exact iff_of_true trivial (hother rfl)
  | tick ms =>
    cases hstep
    exact iff_of_true trivial (hother rfl)
  | advance i id =>
    obtain ⟨r, hr, hstep⟩ := Option.bind_eq_some_iff.mp hstep
    obtain ⟨p, hp, hstep⟩ := Option.bind_eq_some_iff.mp hstep
    cases hstep
    have hl := (next_spec (h r (List.mem_of_getElem? hr)) hp).1
    have hcondition : Upheld s (.advance i id) ↔ r.joinsInTime s.db = true := by
      constructor
      · intro hupheld
        exact hupheld r hr
      · intro hintime r' hr'
        cases hr.symm.trans hr'
        exact hintime
    refine hcondition.trans (Iff.trans ?_ (forall_new_iff hl
      (P := fun player => (s.db.apply p.write).isOpen player.instanceId = true)).symm)
    cases r with
    | joinInstanceAtomic instanceId userId maxPlayers nowIso =>
      cases hp
      rw [newPlayer_joinInstanceAtomic]
      simp only [Request.joinsInTime, isOpen_joinInstanceAtomic, Bool.or_eq_true]
      by_cases hrefused : s.db.refusesJoin instanceId userId maxPlayers = true
      · rw [if_pos hrefused]
        refine iff_of_true (.inr hrefused) ?_
        intro player hnew
        cases hnew
      · rw [if_neg hrefused]
        constructor
        · intro hopen player hnew
          cases hnew
          exact hopen.resolve_right hrefused
        · intro hopen
          exact .inl (hopen _ rfl)
    | _ =>
      refine iff_of_true rfl (isOpen_of_newPlayer hl ?_)
      intro player hwrite
      obtain ⟨_, _, _, _, hr⟩ := join_of_insertPlayer hp hwrite
      cases hr

structure JoiningInv (s : State) : Prop where
  inv : Inv s
  seated : Seated s.db

theorem joiningInv_initial (clock : Int) : JoiningInv (.initial clock) :=
  ⟨inv_initial clock, seated_empty⟩

theorem JoiningInv.step (h : JoiningInv s) (hstep : Instance.step s a = some s') : JoiningInv s' := by
  obtain ⟨hinv, -, w, es, hl, hdb, -⟩ := step_spec h.inv hstep
  refine ⟨hinv, ?_⟩
  rw [hdb]
  exact h.seated.apply hl

end Step

/-! ## Runs -/

theorem always_seatsOk (clock : Int) (as : List Action) :
    Always step (SeatsOk ·.db) (.initial clock) as := by
  intro pre m _ hm
  have hinv : JoiningInv m :=
    exec_invariant (fun _ _ _ hi hstep => hi.step hstep) hm (joiningInv_initial clock)
  exact hinv.seated.ok

/-- **Players join open instances, up to capacity, exactly** when no transaction of a join comes after
the instance has left `open`, but for those that find the user in already or the instance full. -/
theorem players_join_open_instances_iff (clock : Int) (as : List Action) (s : State)
    (h : exec step (.initial clock) as = some s) :
    (Always step (SeatsOk ·.db) (.initial clock) as ∧ EachStep step JoinsOpen (.initial clock) as) ↔
      Along step Upheld (.initial clock) as := by
  refine (and_iff_right (always_seatsOk clock as)).trans ?_
  exact along_iff_eachStep (I := JoiningInv) (fun _ _ _ hi hstep => hi.step hstep)
    (fun _ _ _ hi hstep => upheld_iff hi.inv hstep) h (joiningInv_initial clock)

/-! A join that reads the instance before the countdown and inserts its player after it. -/

def readsOpen : List Action :=
  [.arrive (.createInstance 9 1 (some 3)), .advance 0 5,
   .arrive (.joinInstance 5 2), .advance 1 6, .advance 1 6,
   .arrive (.joinInstance 5 3), .advance 2 7]

def runsMeanwhile : List Action :=
  [.arrive (.startCountdown 5 1), .advance 3 0, .advance 3 0, .tick 5000,
   .arrive .handleDueCountdowns, .advance 4 0, .advance 5 0, .advance 5 0, .advance 5 0]

def State.joining (s : State) : Option InstanceStatus × List Uuid :=
  ((s.db.quizInstances.find? 5).map (·.status), s.db.quizInstancePlayers.rows.map (·.userId))

/-- User 3 is quick, and the next one finds the instance full when the countdown runs. -/
def joinsInTurn : List Action :=
  readsOpen ++ [.arrive (.joinInstance 5 4), .advance 3 8, .advance 2 7] ++
  [.arrive (.startCountdown 5 1), .advance 4 0, .advance 4 0, .advance 3 8]

theorem players_join_open_instances_iff_joinsInTurn : ∃ s,
    exec step (.initial 0) joinsInTurn = some s ∧ s.joining = (some .countdown, [1, 2, 3]) ∧
      ((Always step (SeatsOk ·.db) (.initial 0) joinsInTurn ∧
        EachStep step JoinsOpen (.initial 0) joinsInTurn) ↔
          Along step Upheld (.initial 0) joinsInTurn) := by
  refine exists_of_read (fun s => s.joining) (some .countdown, [1, 2, 3]) (by decide +kernel)
    fun s hs hread => ?_
  exact ⟨hread, players_join_open_instances_iff 0 joinsInTurn s hs⟩

/-- The instance is running when user 3 comes in. -/
theorem player_joins_running_instance : ∃ s,
    exec step (.initial 0) (readsOpen ++ runsMeanwhile ++ [.advance 2 7]) = some s ∧
      s.joining = (some .running, [1, 2, 3]) ∧
      ¬ EachStep step JoinsOpen (.initial 0) (readsOpen ++ runsMeanwhile ++ [.advance 2 7]) := by
  obtain ⟨m, hm, hlast⟩ := Option.bind_eq_some_iff.mp
    (show ((exec step (.initial 0) (readsOpen ++ runsMeanwhile)).bind fun m =>
      (step m (.advance 2 7)).map fun s => (s.joining, decide (JoinsOpen m (.advance 2 7) s)))
        = some ((some .running, [1, 2, 3]), false) by decide +kernel)
  obtain ⟨s, hs, hread⟩ := Option.map_eq_some_iff.mp hlast
  obtain ⟨hjoining, hlate⟩ := Prod.ext_iff.mp hread
  refine ⟨s, exec_snoc.mpr ⟨m, hm, hs⟩, hjoining, ?_⟩
  intro heach
  exact of_decide_eq_false hlate (heach _ _ m s (List.prefix_refl _) hm hs)

end QuizBackend.Instance
