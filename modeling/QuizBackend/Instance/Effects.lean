import QuizBackend.Instance.Requests

/-!
# What the writes of instances do

A status is written by six writers, and each of them has read the row it writes: not the one that is
there, but one with the version it asks for. `Writer.Pre` is what it has seen there; it is true of the
row that is written (`next_spec`), because every write raises the version (`Lib.Versioned`). The
scheduler takes the version from its list of due countdowns and reads the instance again for the
status alone, so it is the list that its write relies on.
-/

namespace QuizBackend.Instance

open Lib Db Table

/-! ## What is known -/

def QuizInstanceRow.Due (clock : Int) (row : QuizInstanceRow) : Prop :=
  ∃ countdownStartedAt, row.countdownStartedAt = some countdownStartedAt ∧
    countdownStartedAt + countdownDurationMs ≤ clock

def Writer.Pre (clock : Int) : Writer → QuizInstanceRow → Prop
  | .startCountdown _, row => row.status = .opened
  | .cancelCountdown .., row | .cancelByScheduler _, row | .startInstance _, row =>
    row.status = .countdown
  | .closeInstance .., row => row.status ≠ .closed ∧ row.status ≠ .finished
  | .completeByScheduler _, row => row.status = .countdown ∧ row.Due clock

def Writer.starts : Writer → Bool
  | .startInstance _ | .completeByScheduler _ => true
  | _ => false

def Db.AsOf (db : Db) (instanceId : Uuid) (version : Int) (P : QuizInstanceRow → Prop) : Prop :=
  Lib.AsOf QuizInstanceRow.version db.quizInstances instanceId version P

def RequestOk (db : Db) (clock : Int) : Request → Prop
  | .joinInstanceAtomic instanceId _ maxPlayers _ =>
    ∃ row, db.quizInstances.find? instanceId = some row ∧ row.maxPlayers = maxPlayers
  | .startInstanceCount instanceId _ _ version =>
    db.AsOf instanceId version fun row => row.status = .countdown
  | .findDueCountdowns cutoffIso => cutoffIso + countdownDurationMs ≤ clock
  | .completeCountdown instanceId version | .completeCountdownCount instanceId _ _ version =>
    db.AsOf instanceId version fun row => row.status = .countdown ∧ row.Due clock
  | .updateInstanceStatus w instanceId _ version =>
    db.AsOf instanceId version (w.Pre clock) ∧
      (w.starts = true → minPlayersPerInstance ≤ db.countPlayers instanceId)
  | _ => True

/-- What is known of a write when a request makes it. -/
inductive Licensed (db : Db) (clock : Int) : Write → List DomainEvent → Prop
  | nothing : Licensed db clock .nothing []
  | create {row : QuizInstanceRow} {host : QuizInstancePlayerRow} {nowIso : Int}
      (fresh : db.quizInstances.find? row.instanceId = none) (valid : row.Valid)
      (opened : row.status = .opened) (hosted : host.instanceId = row.instanceId)
      (joined : host.status = .joined) (free : db.quizInstancePlayers.find? host.key = none) :
      Licensed db clock (.createInstanceWithHost row host)
        [.instanceCreated row.instanceId row.quizVersionId row.hostUserId row.maxPlayers nowIso]
  | update {w : Writer} {instanceId : Uuid} {nowIso : Int} {row : QuizInstanceRow}
      (found : db.quizInstances.find? instanceId = some row)
      (valid : (row.update (w.params nowIso row.version)).Valid) (pre : w.Pre clock row)
      (players : w.starts = true → minPlayersPerInstance ≤ db.countPlayers instanceId) :
      Licensed db clock (.updateInstanceStatus instanceId (w.params nowIso row.version))
        (w.events instanceId nowIso)
  | join {row : QuizInstanceRow} {player : QuizInstancePlayerRow}
      (found : db.quizInstances.find? player.instanceId = some row)
      (joined : player.status = .joined) (free : db.quizInstancePlayers.find? player.key = none)
      (room : ∀ n ∈ row.maxPlayers, (db.countPlayers player.instanceId : Int) < n) :
      Licensed db clock (.insertPlayer player) []

/-! ## The tables after a write -/

variable {row : QuizInstanceRow} {r : Request}

section Apply

variable {db : Db} {clock : Int} {w : Write} {es : List DomainEvent}

def Write.newInstance : Write → Option QuizInstanceRow
  | .createInstanceWithHost row _ => some row
  | _ => none

def Write.newPlayer : Write → Option QuizInstancePlayerRow
  | .createInstanceWithHost _ host => some host
  | .insertPlayer player => some player
  | _ => none

def Write.edits : Write → QuizInstanceRow → QuizInstanceRow
  | .updateInstanceStatus instanceId u, row =>
    if row.instanceId = instanceId then row.update u else row
  | _, row => row

section

variable (h : Licensed db clock w es)
include h

/-- **The instances after a write.** -/
theorem find?_quizInstances_apply (k : Uuid) :
    (db.apply w).quizInstances.find? k
      = match w.newInstance with
        | some row => if row.instanceId = k then some row else db.quizInstances.find? k
        | none => (db.quizInstances.find? k).map w.edits := by
  cases h with
  | nothing => exact Option.map_id'.symm
  | create fresh =>
    obtain ⟨t, ht⟩ := insert?_isSome fresh
    simp only [apply, ht, Option.getD_some, find?_insert? ht, Write.newInstance]
  | update found =>
    simp only [apply, find?_modify_map, Write.newInstance]
    rfl
  | join found => exact Option.map_id'.symm

theorem find?_quizInstances_of_find? {k : Uuid}
    (hrow : db.quizInstances.find? k = some row) :
    (db.apply w).quizInstances.find? k = some (w.edits row) := by
  rw [find?_quizInstances_apply h]
  cases h with
  | create fresh =>
    simp only [Write.newInstance]
    rw [if_neg, hrow]
    · rfl
    · rintro rfl
      rw [hrow] at fresh
      cases fresh
  | nothing => exact congrArg (Option.map _) hrow
  | update found => exact congrArg (Option.map _) hrow
  | join found => exact congrArg (Option.map _) hrow

/-- **The players after a write.** -/
theorem rows_quizInstancePlayers_apply :
    (db.apply w).quizInstancePlayers.rows = db.quizInstancePlayers.rows ++ w.newPlayer.toList := by
  cases h with
  | nothing => exact (List.append_nil _).symm
  | create _ _ _ _ _ free =>
    obtain ⟨t, ht⟩ := insert?_isSome free
    simp only [apply, ht, Option.getD_some, rows_of_insert? ht, Write.newPlayer,
      Option.toList_some]
  | update found => exact (List.append_nil _).symm
  | join _ _ free =>
    obtain ⟨t, ht⟩ := insert?_isSome free
    simp only [apply, ht, Option.getD_some, rows_of_insert? ht, Write.newPlayer,
      Option.toList_some]

theorem countPlayers_apply (k : Uuid) :
    (db.apply w).countPlayers k
      = db.countPlayers k + if w.newPlayer.any (·.instanceId = k) then 1 else 0 := by
  have hjoined : ∀ player, w.newPlayer = some player → player.status = .joined := by
    intro player hplayer
    cases h with
    | create _ _ _ _ joined _ =>
      cases hplayer
      exact joined
    | join _ joined _ _ =>
      cases hplayer
      exact joined
    | nothing => cases hplayer
    | update found => cases hplayer
  rw [countPlayers, rows_quizInstancePlayers_apply h, List.countP_append]
  congr 1
  cases hnew : w.newPlayer with
  | none => rfl
  | some player => simp [hjoined player hnew, List.countP_cons]

theorem countPlayers_le_apply (k : Uuid) :
    db.countPlayers k ≤ (db.apply w).countPlayers k := by
  rw [countPlayers_apply h]
  exact Nat.le_add_right _ _

/-! ## What requests know stays true -/

theorem Db.AsOf.apply {instanceId : Uuid} {version : Int}
    {P : QuizInstanceRow → Prop} (hasof : db.AsOf instanceId version P) :
    (db.apply w).AsOf instanceId version P := by
  cases h with
  | nothing => exact hasof
  | create fresh =>
    obtain ⟨t, ht⟩ := insert?_isSome fresh
    unfold AsOf
    simp only [apply, ht, Option.getD_some]
    exact Lib.AsOf.insert? hasof ht
  | update found => exact Lib.AsOf.modify hasof (QuizInstanceRow.update_instanceId _) (fun _ => rfl) _
  | join found => exact hasof

end

theorem edits_maxPlayers (w : Write) (row : QuizInstanceRow) :
    (w.edits row).maxPlayers = row.maxPlayers := by
  cases w with
  | updateInstanceStatus instanceId u =>
    simp only [Write.edits]
    split <;> rfl
  | _ => rfl

/-- **What a request has learnt stays true**, whatever others write. -/
theorem RequestOk.apply (h : Licensed db clock w es) (hr : RequestOk db clock r) :
    RequestOk (db.apply w) clock r := by
  cases r with
  | joinInstanceAtomic instanceId userId maxPlayers nowIso =>
    obtain ⟨row, hrow, hmax⟩ := hr
    exact ⟨_, find?_quizInstances_of_find? h hrow, (edits_maxPlayers w row).trans hmax⟩
  | startInstanceCount instanceId userId nowIso version => exact AsOf.apply h hr
  | completeCountdown instanceId version => exact AsOf.apply h hr
  | completeCountdownCount instanceId hostUserId nowIso version => exact AsOf.apply h hr
  | updateInstanceStatus w' instanceId nowIso version =>
    refine ⟨AsOf.apply h hr.1, fun hstarts => ?_⟩
    exact Nat.le_trans (hr.2 hstarts) (countPlayers_le_apply h instanceId)
  | findDueCountdowns cutoffIso => exact hr
  | _ => trivial

theorem QuizInstanceRow.Due.later {clock' : Int} (h : row.Due clock) (hle : clock ≤ clock') :
    row.Due clock' := by
  obtain ⟨t, ht, hdue⟩ := h
  exact ⟨t, ht, Int.le_trans hdue hle⟩

theorem RequestOk.later {clock' : Int} (hle : clock ≤ clock') (hr : RequestOk db clock r) :
    RequestOk db clock' r := by
  cases r with
  | findDueCountdowns cutoffIso => exact Int.le_trans hr hle
  | completeCountdown instanceId version =>
    exact Lib.AsOf.mono hr fun row hrow => ⟨hrow.1, hrow.2.later hle⟩
  | completeCountdownCount instanceId hostUserId nowIso version =>
    exact Lib.AsOf.mono hr fun row hrow => ⟨hrow.1, hrow.2.later hle⟩
  | updateInstanceStatus w' instanceId nowIso version =>
    refine ⟨Lib.AsOf.mono hr.1 ?_, hr.2⟩
    intro row hpre
    cases w' with
    | completeByScheduler hostUserId => exact ⟨hpre.1, hpre.2.later hle⟩
    | _ => exact hpre
  | joinInstanceAtomic instanceId userId maxPlayers nowIso => exact hr
  | startInstanceCount instanceId userId nowIso version => exact hr
  | _ => trivial

end Apply

/-! ## What a statement does -/

section Next

variable {db : Db} {clock : Int} {instanceId userId : Uuid} {nowIso : Int}

theorem find?_of_hostedInstance (h : db.hostedInstance instanceId userId = .ok row) :
    db.quizInstances.find? instanceId = some row := by
  unfold hostedInstance at h
  split at h
  · cases h
  · rename_i row' hrow
    split at h
    · cases h
    · cases h
      exact hrow

theorem requestOk_update {w : Writer} (hrow : db.quizInstances.find? instanceId = some row)
    (hpre : w.Pre clock row) (hstarts : w.starts = false) :
    RequestOk db clock (.updateInstanceStatus w instanceId nowIso row.version) := by
  refine ⟨Lib.AsOf.of_find? hrow hpre, fun h => ?_⟩
  rw [hstarts] at h
  cases h

theorem requestOk_startCountdown :
    RequestOk db clock (db.startCountdown instanceId userId nowIso) := by
  unfold startCountdown
  split
  · trivial
  · rename_i row hhosted
    split
    · trivial
    · split
      · trivial
      · rename_i hopened
        exact requestOk_update (find?_of_hostedInstance hhosted) (not_not.mp hopened) rfl

theorem requestOk_cancelCountdown {reason : CancelReason} :
    RequestOk db clock (db.cancelCountdown instanceId userId reason nowIso) := by
  unfold cancelCountdown
  split
  · trivial
  · rename_i row hhosted
    split
    · trivial
    · rename_i hcountdown
      exact requestOk_update (find?_of_hostedInstance hhosted) (not_not.mp hcountdown) rfl

theorem requestOk_startInstance :
    RequestOk db clock (db.startInstance instanceId userId nowIso) := by
  unfold startInstance
  split
  · trivial
  · rename_i row hhosted
    split
    · trivial
    · trivial
    · trivial
    · trivial
    · rename_i hcountdown
      exact Lib.AsOf.of_find? (find?_of_hostedInstance hhosted) hcountdown

theorem requestOk_closeInstance :
    RequestOk db clock (db.closeInstance instanceId userId nowIso) := by
  unfold closeInstance
  split
  · trivial
  · rename_i row hhosted
    split
    · trivial
    · trivial
    · rename_i hclosed hfinished
      exact requestOk_update (find?_of_hostedInstance hhosted) ⟨hclosed, hfinished⟩ rfl

theorem requestOk_joinInstance :
    RequestOk db clock (db.joinInstance instanceId userId nowIso) := by
  unfold joinInstance
  split
  · trivial
  · rename_i row hrow
    split
    · trivial
    · exact ⟨row, hrow, rfl⟩

theorem requestOk_findDueCountdowns {cutoffIso : Int}
    (h : cutoffIso + countdownDurationMs ≤ clock) :
    ∀ r ∈ db.findDueCountdowns cutoffIso, RequestOk db clock r := by
  intro r hr
  obtain ⟨row, hrow, rfl⟩ := List.mem_map.mp hr
  obtain ⟨hmem, hdue⟩ := List.mem_filter.mp
    ((List.mem_insertionSort _).mp (List.mem_of_mem_take hrow))
  obtain ⟨hstatus, hstarted⟩ := of_decide_eq_true hdue
  obtain ⟨t, ht, hle⟩ := (Option.any_eq_true _ _).mp hstarted
  refine Lib.AsOf.of_find? (find?_of_mem hmem) ⟨hstatus, t, ht, ?_⟩
  have hcutoff : t ≤ cutoffIso := of_decide_eq_true hle
  omega

theorem licensed_updateInstanceStatus {w : Writer} {version : Int}
    (hr : RequestOk db clock (.updateInstanceStatus w instanceId nowIso version)) :
    Licensed db clock (db.updateInstanceStatus w instanceId nowIso version).write
        (db.updateInstanceStatus w instanceId nowIso version).emitted ∧
      RequestOk db clock (db.updateInstanceStatus w instanceId nowIso version).request ∧
      (db.updateInstanceStatus w instanceId nowIso version).started = [] := by
  have hlost : RequestOk db clock (w.lost instanceId) := by
    unfold Writer.lost
    split <;> trivial
  unfold updateInstanceStatus
  split
  · exact ⟨.nothing, hlost, rfl⟩
  · rename_i row hrow
    split
    · exact ⟨.nothing, hlost, rfl⟩
    · rename_i hcurrent
      have hversion : row.version = version := not_not.mp hcurrent
      subst hversion
      split
      · rename_i hvalid
        refine ⟨.update hrow hvalid (Lib.AsOf.holds hr.1 hrow rfl) hr.2, ?_, rfl⟩
        cases w <;> trivial
      · exact ⟨.nothing, trivial, rfl⟩

theorem licensed_joinInstanceAtomic {maxPlayers : Option Int} (instancePlayerId : Uuid)
    (hr : RequestOk db clock (.joinInstanceAtomic instanceId userId maxPlayers nowIso)) :
    Licensed db clock
        (db.joinInstanceAtomic instanceId userId maxPlayers nowIso instancePlayerId).write
        (db.joinInstanceAtomic instanceId userId maxPlayers nowIso instancePlayerId).emitted ∧
      RequestOk db clock
        (db.joinInstanceAtomic instanceId userId maxPlayers nowIso instancePlayerId).request ∧
      (db.joinInstanceAtomic instanceId userId maxPlayers nowIso instancePlayerId).started = [] := by
  unfold joinInstanceAtomic
  split
  · exact ⟨.nothing, trivial, rfl⟩
  · rename_i hfree
    split
    · exact ⟨.nothing, trivial, rfl⟩
    · rename_i hroom
      obtain ⟨row, hrow, rfl⟩ := hr
      refine ⟨.join hrow rfl (Option.not_isSome_iff_eq_none.mp hfree) ?_, trivial, rfl⟩
      intro n hn
      by_contra hfull
      exact hroom ((Option.any_eq_true _ _).mpr ⟨n, hn, decide_eq_true (Int.not_lt.mp hfull)⟩)

/-- **A statement makes a licensed write, and what requests know after it was true before.** -/
theorem next_spec {id : Uuid} {p : Progress} (hr : RequestOk db clock r)
    (h : r.next db clock id = some p) :
    Licensed db clock p.write p.emitted ∧ RequestOk db clock p.request ∧
      ∀ r' ∈ p.started, RequestOk db clock r' := by
  have hgoto : ∀ r', RequestOk db clock r' → Licensed db clock (Progress.goto r').write
      (Progress.goto r').emitted ∧ RequestOk db clock (Progress.goto r').request ∧
        ∀ r'' ∈ (Progress.goto r').started, RequestOk db clock r'' := by
    intro r' hr'
    refine ⟨.nothing, hr', ?_⟩
    intro r'' hr''
    cases hr''
  cases r with
  | createInstance quizVersionId userId maxPlayers nowIso =>
    simp only [Request.next] at h
    split at h
    · cases h
    · rename_i hfresh
      rw [not_or, Option.not_isSome_iff_eq_none, Option.not_isSome_iff_eq_none] at hfresh
      split at h
      · rename_i hvalid
        cases h
        refine ⟨.create hfresh.1 hvalid rfl rfl rfl hfresh.2, trivial, ?_⟩
        intro r' hr'
        cases hr'
      · cases h
        exact hgoto _ trivial
  | joinInstance instanceId userId nowIso =>
    cases h
    exact hgoto _ requestOk_joinInstance
  | joinInstanceAtomic instanceId userId maxPlayers nowIso =>
    cases h
    obtain ⟨hwrite, hrequest, hstarted⟩ := licensed_joinInstanceAtomic id hr
    refine ⟨hwrite, hrequest, ?_⟩
    rw [hstarted]
    intro r' hr'
    cases hr'
  | startCountdown instanceId userId nowIso =>
    cases h
    exact hgoto _ requestOk_startCountdown
  | cancelCountdown instanceId userId reason nowIso =>
    cases h
    exact hgoto _ requestOk_cancelCountdown
  | startInstance instanceId userId nowIso =>
    cases h
    exact hgoto _ requestOk_startInstance
  | startInstanceCount instanceId userId nowIso version =>
    simp only [Request.next] at h
    split at h
    · cases h
      exact hgoto _ trivial
    · rename_i hplayers
      cases h
      exact hgoto _ ⟨hr, fun _ => Nat.not_lt.mp hplayers⟩
  | closeInstance instanceId userId nowIso =>
    cases h
    exact hgoto _ requestOk_closeInstance
  | findDueCountdowns cutoffIso =>
    cases h
    exact ⟨.nothing, trivial, requestOk_findDueCountdowns hr⟩
  | completeCountdown instanceId version =>
    cases h
    refine hgoto _ ?_
    unfold completeCountdown
    split
    · trivial
    · split
      · trivial
      · exact hr
  | completeCountdownCount instanceId hostUserId nowIso version =>
    cases h
    refine hgoto _ ?_
    split
    · exact ⟨Lib.AsOf.mono hr fun row hrow => hrow.1, fun hstarts => by cases hstarts⟩
    · rename_i hplayers
      exact ⟨hr, fun _ => Nat.not_lt.mp hplayers⟩
  | updateInstanceStatus w instanceId nowIso version =>
    cases h
    obtain ⟨hwrite, hrequest, hstarted⟩ := licensed_updateInstanceStatus hr
    refine ⟨hwrite, hrequest, ?_⟩
    rw [hstarted]
    intro r' hr'
    cases hr'
  | latest w instanceId =>
    cases h
    exact hgoto _ trivial
  | done | skipped _ | failed _ => cases h

end Next

/-! ## The system -/

/-- What every request has learnt is true. -/
def Inv (s : State) : Prop := ∀ r ∈ s.requests, RequestOk s.db s.clock r

theorem inv_initial (clock : Int) : Inv (.initial clock) := by
  intro r hr
  cases hr

theorem requestOk_incoming {db : Db} {clock : Int} (r : Incoming) :
    RequestOk db clock (r.request clock) := by
  cases r with
  | handleDueCountdowns =>
    show clock - countdownDurationMs + countdownDurationMs ≤ clock
    omega
  | _ => trivial

section Step

variable {s s' : State} {a : Action}

/-- **What a step can do**, and that requests stay right about what they have learnt. -/
theorem step_spec (h : Inv s) (hstep : step s a = some s') :
    Inv s' ∧ s.clock ≤ s'.clock ∧ ∃ w es, Licensed s.db s.clock w es ∧ s'.db = s.db.apply w ∧
      s'.emitted = s.emitted ++ es := by
  cases a with
  | arrive r =>
    cases hstep
    refine ⟨forall_mem_join h (requestOk_incoming r), Int.le_refl _, .nothing, [], .nothing, rfl, ?_⟩
    exact (List.append_nil _).symm
  | advance i id =>
    obtain ⟨r, hr, hstep⟩ := Option.bind_eq_some_iff.mp hstep
    obtain ⟨p, hp, hstep⟩ := Option.bind_eq_some_iff.mp hstep
    cases hstep
    obtain ⟨hwrite, hrequest, hstarted⟩ := next_spec (h r (List.mem_of_getElem? hr)) hp
    refine ⟨?_, Int.le_refl _, _, _, hwrite, rfl, rfl⟩
    refine List.forall_mem_append.mpr ⟨forall_mem_set ?_ (hrequest.apply hwrite), ?_⟩
    · intro r' hr'
      exact (h r' hr').apply hwrite
    · intro r' hr'
      exact (hstarted r' hr').apply hwrite
  | abort i =>
    obtain ⟨r, hr, hstep⟩ := Option.bind_eq_some_iff.mp hstep
    split at hstep
    · cases hstep
    · cases hstep
      refine ⟨forall_mem_set h trivial, Int.le_refl _, .nothing, [], .nothing, rfl, ?_⟩
      exact (List.append_nil _).symm
  | tick ms =>
    cases hstep
    have hle : s.clock ≤ s.clock + ms := by omega
    refine ⟨fun r hr => (h r hr).later hle, hle, .nothing, [], .nothing, rfl, ?_⟩
    exact (List.append_nil _).symm

end Step

end QuizBackend.Instance
