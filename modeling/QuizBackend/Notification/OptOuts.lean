import QuizBackend.Lib.Run
import QuizBackend.Notification.Preferences

/-!
# Opt-outs and the cache of preferences

`NotificationChannelService` keeps the preferences of a user in Redis for five minutes, under
`notif:prefs:<userId>`; `'null'` there says that the user has none. A `send` looks there first, and
otherwise reads the database and writes what it has read into the cache. `updatePreferences` writes
the database and then deletes the key.

Between the read of the database and the write of the cache other requests may come in. A reader
that has read the old preferences and writes them after the key was deleted leaves them in the
cache, and what the user has switched off is sent on until the entry expires.

The state keeps, beside what the program has, what the user may count on: what the stored
preferences have switched off ever since an update returned (`optOuts`), and of that, for each
request, what was switched off when it began and has been since. No notification goes out against it
in a run whose cache writes respect it (`opt_outs_respected`); a write that does not is what the next
request goes by.
-/

namespace QuizBackend.Notification

open Lib Table

/-! ## Requests -/

structure SendParams where
  type : NotificationType
  title : String
  body : String
  metadata : Option String
  channels : Option (List NotificationChannel)
  recipientEmail : Option String
  pushToken : Option String

def SendParams.channelList (params : SendParams) : List NotificationChannel :=
  params.channels.getD [.inApp]

inductive Request where
  | send (userId : String) (params : SendParams)
  | sendBatch (params : SendParams) (userIds : List String)
  | updatePreferences (userId : String) (params : UpdatePreferencesParams)

/-- The preferences a request has by now, as in the map of `sendBatch`. -/
abbrev Loaded := List (String × Option NotificationPreferencesRow)

/-- Where a request is: looking the preferences of its users up one by one, delivering, or between
the two writes of an update. -/
inductive Phase where
  | lookup (loaded : Loaded) (userIds : List String)
  | missed (loaded : Loaded) (userId : String) (userIds : List String)
  | found (loaded : Loaded) (userId : String) (prefs : Option NotificationPreferencesRow)
      (userIds : List String)
  | delivering (remaining :
      List (String × Option NotificationPreferencesRow × NotificationChannel))
  | updating
  | upserted (row : NotificationPreferencesRow)

open Phase

abbrev OptOut := String × Gate

structure Call where
  callId : String
  request : Request
  phase : Phase
  sent : Nat
  skipped : Nat
  optOuts : List OptOut

/-- The text in Redis: `'null'`, or the JSON of a row, which reads back as the row. -/
structure CacheEntry where
  userId : String
  value : Option NotificationPreferencesRow

structure NotificationRow where
  notificationId : String
  userId : String
  type : NotificationType
  title : String
  message : String
  metadata : String
  channel : NotificationChannel
  isRead : Bool
  createdAt : Int
  deriving DecidableEq

structure NotificationSentEvent where
  notificationId : String
  userId : String
  type : NotificationType
  channel : NotificationChannel
  timestamp : Int

inductive Value where
  | sent
  | batch (sent skipped : Nat)
  | preferences (row : NotificationPreferencesRow)

structure System where
  preferences : NotificationPreferences
  cache : Table String CacheEntry (·.userId)
  notifications : Table String NotificationRow (·.notificationId)
  emitted : List NotificationSentEvent
  /-- What the requests have returned; `none` when they have thrown. -/
  answers : List (String × Option Value)
  calls : Table String Call (·.callId)
  optOuts : List OptOut

inductive Action where
  | begin (callId : String) (request : Request)
  | cacheGet (callId : String)
  | dbRead (callId : String)
  | cacheSet (callId : String)
  | deliver (callId : String) (notificationId : Option String) (currentTime : Nat) (now : Int)
  | finish (callId : String)
  | upsert (callId preferencesId : String) (nowIso : Int)
  | cacheDel (callId : String)
  | expire (userId : String)
  | abort (callId : String)

/-! ## Steps -/

/-- Where the lookups lead: to the next user, or to the deliveries. The map of `sendBatch` has its
users in the order they came in. -/
def Phase.after (params : SendParams) (loaded : Loaded) : List String → Phase
  | [] => .delivering (loaded.flatMap fun x => params.channelList.map fun c => (x.1, x.2, c))
  | userIds => .lookup loaded userIds

def Request.params? : Request → Option SendParams
  | .send _ params | .sendBatch params _ => some params
  | .updatePreferences .. => none

def Request.firstPhase : Request → Phase
  | .send userId params => .after params [] [userId]
  | .sendBatch params userIds => .after params [] userIds.eraseDups
  | .updatePreferences .. => .updating

def allGates : List Gate :=
  [.channel .inApp, .channel .email, .channel .push, .category .achievement, .category .tournament,
    .category .rank, .category .friend, .category .comment, .category .summary, .category .security,
    .category .system]

def switchedOff (userId : String) (prefs : Option NotificationPreferencesRow) : List OptOut :=
  (allGates.filter (disables prefs)).map fun gate => (userId, gate)

def stillOff (userId : String) (prefs : Option NotificationPreferencesRow) (optOuts : List OptOut) :
    List OptOut :=
  optOuts.filter fun o => decide (o.1 ≠ userId) || disables prefs o.2

namespace System

def start (preferences : NotificationPreferences)
    (notifications : Table String NotificationRow (·.notificationId)) : System :=
  ⟨preferences, .empty _, notifications, [], [], .empty _, []⟩

section

variable (s : System)

def answer (callId : String) (value : Option Value) : System :=
  { s with calls := s.calls.erase callId, answers := s.answers ++ [(callId, value)] }

def advance (callId : String) (phase : Phase) : System :=
  { s with calls := s.calls.modify callId (fun c => { c with phase }) fun _ => rfl }

def begin (callId : String) (request : Request) : Option System :=
  (s.calls.insert? ⟨callId, request, request.firstPhase, 0, 0, s.optOuts⟩).map fun calls =>
    { s with calls }

/-- `instrumentedGet`, and what `getPreferences` makes of the reply. -/
def cacheGet (c : Call) : Option System :=
  match c.phase, c.request.params? with
  | .lookup loaded (userId :: userIds), some params =>
    match s.cache.find? userId with
    | some entry =>
      some (s.advance c.callId (.after params (loaded ++ [(userId, entry.value)]) userIds))
    | none => some (s.advance c.callId (.missed loaded userId userIds))
  | _, _ => none

def dbRead (c : Call) : Option System :=
  match c.phase with
  | .missed loaded userId userIds =>
    some (s.advance c.callId (.found loaded userId (s.preferences.find? userId) userIds))
  | _ => none

def cacheSet (c : Call) : Option System :=
  match c.phase, c.request.params? with
  | .found loaded userId prefs userIds, some params =>
    some { s.advance c.callId (.after params (loaded ++ [(userId, prefs)]) userIds) with
      cache := s.cache.upsert ⟨userId, prefs⟩ }
  | _, _ => none

def counted (callId : String) (phase : Phase) (sent skipped : Nat) : System :=
  { s with
    calls := s.calls.modify callId
      (fun c => { c with phase, sent := c.sent + sent, skipped := c.skipped + skipped })
      fun _ => rfl }

end

def newNotification (params : SendParams) (notificationId userId : String)
    (channel : NotificationChannel) (now : Int) : NotificationRow :=
  ⟨notificationId, userId, params.type, params.title, params.body,
    params.metadata.getD "\x7b\x7d", channel, false, now⟩

/-- A notification that was created; only `send` announces it. -/
def deliverCreated (s : System) (c : Call) (params : SendParams)
    (notifications : Table String NotificationRow (·.notificationId)) (phase : Phase)
    (notificationId userId : String) (channel : NotificationChannel) (now : Int) : System :=
  { s.counted c.callId phase 1 0 with
    notifications
    emitted :=
      match c.request with
      | .send .. => s.emitted ++ [⟨notificationId, userId, params.type, channel, now⟩]
      | _ => s.emitted }

/-- The database has failed: `send` throws, `sendBatch` goes on. -/
def deliverFailed (s : System) (c : Call) (phase : Phase) : System :=
  match c.request with
  | .send .. => s.answer c.callId none
  | _ => s.counted c.callId phase 0 0

def deliver (number : String → Float) (s : System) (c : Call) (notificationId : Option String)
    (currentTime : Nat) (now : Int) : Option System :=
  match c.phase, c.request.params? with
  | .delivering ((userId, prefs, channel) :: remaining), some params =>
    let phase := delivering remaining
    if shouldSendNotification number currentTime params.type channel prefs then
      match notificationId with
      | none => some (s.deliverFailed c phase)
      | some notificationId =>
        (s.notifications.insert? (newNotification params notificationId userId channel now)).map
          fun notifications =>
            s.deliverCreated c params notifications phase notificationId userId channel now
    else some (s.counted c.callId phase 0 1)
  | _, _ => none

def finish (s : System) (c : Call) : Option System :=
  match c.phase, c.request with
  | .delivering [], .send .. => some (s.answer c.callId (some .sent))
  | .delivering [], .sendBatch .. => some (s.answer c.callId (some (.batch c.sent c.skipped)))
  | _, _ => none

/-- The statement of `upsertPreferences`; a refused one ends the request. -/
def upsert (s : System) (c : Call) (preferencesId : String) (nowIso : Int) : Option System :=
  match c.phase, c.request with
  | .updating, .updatePreferences userId params =>
    match upsertPreferences s.preferences userId params preferencesId nowIso with
    | none => some (s.answer c.callId none)
    | some (row, preferences) =>
      some { s with
        preferences
        optOuts := stillOff userId (some row) s.optOuts
        calls := (s.advance c.callId (.upserted row)).calls.update
          (fun c => { c with optOuts := stillOff userId (some row) c.optOuts }) fun _ => rfl }
  | _, _ => none

/-- `invalidatePreferencesCache`, with which `updatePreferences` returns. -/
def cacheDel (s : System) (c : Call) : Option System :=
  match c.phase, c.request with
  | .upserted row, .updatePreferences userId _ =>
    some { s.answer c.callId (some (.preferences row)) with
      cache := s.cache.erase userId
      optOuts := s.optOuts ++ switchedOff userId (s.preferences.find? userId) }
  | _, _ => none

def step (number : String → Float) (s : System) : Action → Option System
  | .begin callId request => s.begin callId request
  | .cacheGet callId => (s.calls.find? callId).bind s.cacheGet
  | .dbRead callId => (s.calls.find? callId).bind s.dbRead
  | .cacheSet callId => (s.calls.find? callId).bind s.cacheSet
  | .deliver callId notificationId currentTime now =>
    (s.calls.find? callId).bind fun c => s.deliver number c notificationId currentTime now
  | .finish callId => (s.calls.find? callId).bind s.finish
  | .upsert callId preferencesId nowIso =>
    (s.calls.find? callId).bind fun c => s.upsert c preferencesId nowIso
  | .cacheDel callId => (s.calls.find? callId).bind s.cacheDel
  | .expire userId => some { s with cache := s.cache.erase userId }
  | .abort callId => (s.calls.find? callId).map fun c => s.answer c.callId none

end System

/-! ## What should hold -/

def Action.callId? : Action → Option String
  | .begin callId _ | .cacheGet callId | .dbRead callId | .cacheSet callId | .deliver callId _ _ _
  | .finish callId | .upsert callId _ _ | .cacheDel callId | .abort callId => some callId
  | .expire _ => none

/-- No notification goes out in a channel or a category the user has opted out of since before the
request began. -/
def RespectsOptOuts (s : System) (a : Action) (s' : System) : Prop :=
  ∀ n ∈ s'.notifications.rows, n ∉ s.notifications.rows →
    ∃ c, a.callId?.bind s.calls.find? = some c ∧ (n.userId, .channel n.channel) ∉ c.optOuts ∧
      (n.userId, .category (notificationTypeCategory n.type)) ∉ c.optOuts

/-- Every opt-out of the user is in the preferences. -/
def Respected (optOuts : List OptOut) (userId : String)
    (prefs : Option NotificationPreferencesRow) : Prop :=
  ∀ o ∈ optOuts, o.1 = userId → disables prefs o.2 = true

instance (optOuts : List OptOut) (userId : String) (prefs : Option NotificationPreferencesRow) :
    Decidable (Respected optOuts userId prefs) :=
  inferInstanceAs (Decidable (∀ o ∈ optOuts, o.1 = userId → disables prefs o.2 = true))

/-- What the request is about to write into the cache switches off what the user has opted out of. -/
def Call.WritesRespected (s : System) (c : Call) : Prop :=
  match c.phase with
  | .found _ userId prefs _ => Respected s.optOuts userId prefs
  | _ => True

def WritesRespected (s : System) : Action → Prop
  | .cacheSet callId => ∀ c, s.calls.find? callId = some c → c.WritesRespected s
  | _ => True

instance (s : System) (c : Call) : Decidable (c.WritesRespected s) := by
  unfold Call.WritesRespected
  split <;> infer_instance

instance (s : System) (a : Action) : Decidable (WritesRespected s a) :=
  match a with
  | .cacheSet callId => decidableOfFind (s.calls.find? callId) fun c => c.WritesRespected s
  | .begin .. | .cacheGet _ | .dbRead _ | .deliver .. | .finish _ | .upsert .. | .cacheDel _
  | .expire _ | .abort _ => .isTrue trivial

/-! ## What is known of the preferences in hand -/

variable {optOuts : List OptOut} {prefs : Option NotificationPreferencesRow} {loaded : Loaded}
  {callId : String} {currentTime : Nat} {o : OptOut}

theorem Respected.mono {optOuts' : List OptOut} {userId : String}
    (h : Respected optOuts userId prefs) (hsub : optOuts' ⊆ optOuts) :
    Respected optOuts' userId prefs :=
  fun o ho hu => h o (hsub ho) hu

def Phase.Knows (optOuts : List OptOut) : Phase → Prop
  | .lookup loaded _ | .missed loaded _ _ => ∀ x ∈ loaded, Respected optOuts x.1 x.2
  | .found loaded userId prefs _ =>
    (∀ x ∈ loaded, Respected optOuts x.1 x.2) ∧ Respected optOuts userId prefs
  | .delivering remaining => ∀ x ∈ remaining, Respected optOuts x.1 x.2.1
  | .updating | .upserted _ => True

theorem Phase.Knows.mono {optOuts' : List OptOut} (hsub : optOuts' ⊆ optOuts) :
    ∀ {phase : Phase}, phase.Knows optOuts → phase.Knows optOuts'
  | .lookup .., h | .missed .., h | .delivering .., h => fun x hx => (h x hx).mono hsub
  | .found .., h => ⟨fun x hx => (h.1 x hx).mono hsub, h.2.mono hsub⟩
  | .updating, _ | .upserted _, _ => trivial

theorem Phase.knows_after (params : SendParams) (h : ∀ x ∈ loaded, Respected optOuts x.1 x.2)
    (userIds : List String) : (after params loaded userIds).Knows optOuts := by
  cases userIds with
  | nil =>
    intro x hx
    obtain ⟨y, hy, hx⟩ := List.mem_flatMap.mp hx
    obtain ⟨channel, -, rfl⟩ := List.mem_map.mp hx
    exact h y hy
  | cons userId userIds => exact h

theorem forall_mem_snoc {userId : String} (h : ∀ x ∈ loaded, Respected optOuts x.1 x.2)
    (hnew : Respected optOuts userId prefs) :
    ∀ x ∈ loaded ++ [(userId, prefs)], Respected optOuts x.1 x.2 := by
  intro x hx
  rcases List.mem_append.mp hx with hx | hx
  · exact h x hx
  · rw [List.mem_singleton] at hx
    exact hx ▸ hnew

structure Call.Ok (optOuts : List OptOut) (c : Call) : Prop where
  sub : c.optOuts ⊆ optOuts
  knows : c.phase.Knows c.optOuts

/-- What is stored and what calls have loaded respects the opt-outs. -/
structure Inv (s : System) : Prop where
  stored : ∀ o ∈ s.optOuts, disables (s.preferences.find? o.1) o.2 = true
  cached : ∀ entry ∈ s.cache.rows, Respected s.optOuts entry.userId entry.value
  calls : ∀ c ∈ s.calls.rows, c.Ok s.optOuts

theorem Inv.start (preferences : NotificationPreferences)
    (notifications : Table String NotificationRow (·.notificationId)) :
    Inv (System.start preferences notifications) :=
  ⟨fun _ ho => absurd ho List.not_mem_nil, fun _ he => absurd he List.not_mem_nil,
    fun _ hc => absurd hc List.not_mem_nil⟩

section Steps

variable {number : String → Float} {s s' : System} {a : Action} {c : Call}

section

variable (h : Inv s)
include h

theorem Inv.frame (hstored : s'.preferences = s.preferences)
    (hoptOuts : s'.optOuts = s.optOuts)
    (hcache : ∀ entry ∈ s'.cache.rows, Respected s.optOuts entry.userId entry.value)
    (hcalls : ∀ x ∈ s'.calls.rows, x ∈ s.calls.rows ∨ x.Ok s.optOuts) : Inv s' := by
  refine ⟨?_, ?_, ?_⟩
  · rw [hstored, hoptOuts]
    exact h.stored
  · rw [hoptOuts]
    exact hcache
  · rw [hoptOuts]
    intro x hx
    rcases hcalls x hx with hx | hok
    · exact h.calls x hx
    · exact hok

theorem Inv.answer (callId : String) (value : Option Value) :
    Inv (s.answer callId value) :=
  h.frame rfl rfl h.cached fun _ hx => .inl (mem_erase.mp hx).1

section

variable (hc : s.calls.find? callId = some c)
include hc

theorem Inv.calls_modify (f : Call → Call)
    (hf : ∀ x, (f x).callId = x.callId) (hsub : (f c).optOuts = c.optOuts)
    (hknows : (f c).phase.Knows c.optOuts) :
    ∀ x ∈ (s.calls.modify callId f hf).rows, x ∈ s.calls.rows ∨ x.Ok s.optOuts := by
  intro x hx
  rcases mem_modify_cases hc hx with rfl | ⟨hx, -⟩
  · refine .inr ⟨?_, ?_⟩
    · rw [hsub]
      exact (h.calls c (mem_of_find? hc)).sub
    · rw [hsub]
      exact hknows
  · exact .inl hx

theorem Inv.advance {phase : Phase}
    (hknows : phase.Knows c.optOuts) : Inv (s.advance callId phase) :=
  h.frame rfl rfl h.cached
    (h.calls_modify hc (fun c => { c with phase }) (fun _ => rfl) rfl hknows)

theorem Inv.counted {phase : Phase}
    (hknows : phase.Knows c.optOuts) (sent skipped : Nat) :
    Inv (s.counted callId phase sent skipped) :=
  h.frame rfl rfl h.cached
    (h.calls_modify hc
      (fun c => { c with phase, sent := c.sent + sent, skipped := c.skipped + skipped })
      (fun _ => rfl) rfl hknows)

end

/-! ## The steps of a send -/

theorem Inv.begin {request : Request} (hstep : s.begin callId request = some s') :
    Inv s' := by
  obtain ⟨calls, hinsert, rfl⟩ := Option.map_eq_some_iff.mp hstep
  refine h.frame rfl rfl h.cached ?_
  intro x hx
  rw [rows_of_insert? hinsert, List.mem_append, List.mem_singleton] at hx
  rcases hx with hx | rfl
  · exact .inl hx
  · refine .inr ⟨fun _ ho => ho, ?_⟩
    have hnone : ∀ x ∈ ([] : Loaded), Respected s.optOuts x.1 x.2 :=
      fun _ hx => absurd hx List.not_mem_nil
    cases request with
    | send userId params => exact knows_after params hnone [userId]
    | sendBatch params userIds => exact knows_after params hnone userIds.eraseDups
    | updatePreferences userId params => trivial

section

variable (hc : s.calls.find? c.callId = some c)
include hc

theorem Inv.cacheGet (hstep : s.cacheGet c = some s') : Inv s' := by
  have hok := h.calls c (mem_of_find? hc)
  unfold System.cacheGet at hstep
  split at hstep
  · next loaded userId userIds params hphase hparams =>
    have hloaded : ∀ x ∈ loaded, Respected c.optOuts x.1 x.2 := by
      have hknows := hok.knows
      rw [hphase] at hknows
      exact hknows
    split at hstep
    · next entry hentry =>
      cases hstep
      -- what the cache has is respected, also by what this request counts on
      have hvalue := (h.cached entry (mem_of_find? hentry)).mono hok.sub
      rw [key_of_find? hentry] at hvalue
      exact h.advance hc (knows_after params (forall_mem_snoc hloaded hvalue) userIds)
    · cases hstep
      exact h.advance hc hloaded
  · cases hstep

theorem Inv.dbRead (hstep : s.dbRead c = some s') : Inv s' := by
  have hok := h.calls c (mem_of_find? hc)
  unfold System.dbRead at hstep
  split at hstep
  · next loaded userId userIds hphase =>
    cases hstep
    have hknows := hok.knows
    rw [hphase] at hknows
    refine h.advance hc ⟨hknows, ?_⟩
    rintro o ho rfl
    exact h.stored o (hok.sub ho)
  · cases hstep

theorem Inv.cacheSet (hwrites : c.WritesRespected s) (hstep : s.cacheSet c = some s') : Inv s' := by
  have hok := h.calls c (mem_of_find? hc)
  unfold System.cacheSet at hstep
  split at hstep
  · next loaded userId prefs userIds params hphase hparams =>
    cases hstep
    have hknows := hok.knows
    rw [hphase] at hknows
    have hcurrent : Respected s.optOuts userId prefs := by
      unfold Call.WritesRespected at hwrites
      rw [hphase] at hwrites
      exact hwrites
    have hafter := knows_after params (forall_mem_snoc hknows.1 hknows.2) userIds
    refine h.frame rfl rfl ?_ fun x hx => .inr ((h.advance hc hafter).calls x hx)
    intro entry hentry
    rcases mem_upsert.mp hentry with rfl | ⟨hentry, -⟩
    · exact hcurrent
    · exact h.cached entry hentry
  · cases hstep

end

end

theorem Phase.Knows.tail {x : String × Option NotificationPreferencesRow × NotificationChannel}
    {remaining : List (String × Option NotificationPreferencesRow × NotificationChannel)}
    (h : (delivering (x :: remaining)).Knows optOuts) :
    (delivering remaining).Knows optOuts :=
  fun y hy => h y (List.mem_cons_of_mem x hy)

theorem Inv.deliver (h : Inv s) (hc : s.calls.find? c.callId = some c)
    {notificationId : Option String} {now : Int}
    (hstep : s.deliver number c notificationId currentTime now = some s') : Inv s' := by
  have hok := h.calls c (mem_of_find? hc)
  unfold System.deliver at hstep
  split at hstep
  · next userId prefs channel remaining params hphase hparams =>
    have hknows := hok.knows
    rw [hphase] at hknows
    simp only at hstep
    split at hstep
    · split at hstep
      · cases hstep
        unfold System.deliverFailed
        split
        · exact h.answer c.callId none
        · exact h.counted hc hknows.tail 0 0
      · obtain ⟨notifications, -, rfl⟩ := Option.map_eq_some_iff.mp hstep
        exact h.frame rfl rfl h.cached fun x hx => .inr ((h.counted hc hknows.tail 1 0).calls x hx)
    · cases hstep
      exact h.counted hc hknows.tail 0 1
  · cases hstep

theorem Inv.finish (h : Inv s) (hstep : s.finish c = some s') : Inv s' := by
  unfold System.finish at hstep
  split at hstep
  · cases hstep
    exact h.answer _ _
  · cases hstep
    exact h.answer _ _
  · cases hstep

/-! ## The steps of an update -/

theorem mem_stillOff {userId : String} :
    o ∈ stillOff userId prefs optOuts ↔
      o ∈ optOuts ∧ (o.1 = userId → disables prefs o.2 = true) := by
  unfold stillOff
  rw [List.mem_filter, Bool.or_eq_true, decide_eq_true_iff, ← imp_iff_not_or]

theorem mem_allGates (gate : Gate) (prefs : Option NotificationPreferencesRow)
    (h : disables prefs gate = true) : gate ∈ allGates := by
  cases gate with
  | channel channel => cases channel <;> decide
  | category category => cases category <;> decide

theorem mem_switchedOff {userId : String} :
    o ∈ switchedOff userId prefs ↔ o.1 = userId ∧ disables prefs o.2 = true := by
  unfold switchedOff
  rw [List.mem_map]
  constructor
  · rintro ⟨gate, hgate, rfl⟩
    exact ⟨rfl, (List.mem_filter.mp hgate).2⟩
  · rintro ⟨rfl, hoff⟩
    exact ⟨o.2, List.mem_filter.mpr ⟨mem_allGates o.2 prefs hoff, hoff⟩, rfl⟩

theorem Inv.upsert (h : Inv s) (hc : s.calls.find? c.callId = some c) {preferencesId : String}
    {nowIso : Int} (hstep : s.upsert c preferencesId nowIso = some s') : Inv s' := by
  unfold System.upsert at hstep
  split at hstep
  · next userId params hphase hrequest =>
    split at hstep
    · cases hstep
      exact h.answer _ _
    · next row preferences hupsert =>
      cases hstep
      have hfind := find?_upsertPreferences hupsert
      have hsub : ∀ optOuts, stillOff userId (some row) optOuts ⊆ optOuts :=
        fun optOuts o ho => (mem_stillOff.mp ho).1
      refine ⟨?_, ?_, ?_⟩
      · intro o ho
        obtain ⟨ho, hoff⟩ := mem_stillOff.mp ho
        show disables (preferences.find? o.1) o.2 = true
        rw [hfind]
        split
        · next heq => exact hoff heq
        · exact h.stored o ho
      · intro entry hentry
        exact (h.cached entry hentry).mono (hsub _)
      · intro x hx
        obtain ⟨y, hy, rfl⟩ := List.mem_map.mp hx
        have hyok : y.Ok s.optOuts := by
          have hadvanced : Inv (s.advance c.callId (.upserted row)) := h.advance hc trivial
          exact hadvanced.calls y hy
        refine ⟨?_, hyok.knows.mono (hsub _)⟩
        intro o ho
        obtain ⟨ho, hoff⟩ := mem_stillOff.mp ho
        exact mem_stillOff.mpr ⟨hyok.sub ho, hoff⟩
  · cases hstep

theorem Inv.cacheDel (h : Inv s) (hstep : s.cacheDel c = some s') : Inv s' := by
  unfold System.cacheDel at hstep
  split at hstep
  · next row userId params hphase hrequest =>
    cases hstep
    refine ⟨?_, ?_, ?_⟩
    · intro o ho
      rcases List.mem_append.mp ho with ho | ho
      · exact h.stored o ho
      · obtain ⟨heq, hoff⟩ := mem_switchedOff.mp ho
        show disables (s.preferences.find? o.1) o.2 = true
        rw [heq]
        exact hoff
    · -- the entry of the user is gone, and nobody else has opted out of anything more
      intro entry hentry o ho heq
      obtain ⟨hentry, hne⟩ := mem_erase.mp hentry
      rcases List.mem_append.mp ho with ho | ho
      · exact h.cached entry hentry o ho heq
      · exact absurd (heq.symm.trans (mem_switchedOff.mp ho).1) hne
    · intro x hx
      have hok := h.calls x (mem_erase.mp hx).1
      exact ⟨fun o ho => List.mem_append_left _ (hok.sub ho), hok.knows⟩
  · cases hstep

/-- **Opt-outs stay in force**: where the cache is written as it should be, no step brings the
preferences back that a user has switched off. -/
theorem Inv.step (h : Inv s) (hwrites : WritesRespected s a)
    (hstep : s.step number a = some s') : Inv s' := by
  cases a with
  | begin callId request => exact h.begin hstep
  | cacheGet callId =>
    obtain ⟨c, hc, rfl, hget⟩ := of_find?_bind hstep
    exact h.cacheGet hc hget
  | dbRead callId =>
    obtain ⟨c, hc, rfl, hread⟩ := of_find?_bind hstep
    exact h.dbRead hc hread
  | cacheSet callId =>
    obtain ⟨c, hc, rfl, hset⟩ := of_find?_bind hstep
    exact h.cacheSet hc (hwrites c hc) hset
  | deliver callId notificationId currentTime now =>
    obtain ⟨c, hc, rfl, hdeliver⟩ := of_find?_bind hstep
    exact h.deliver hc hdeliver
  | finish callId =>
    obtain ⟨c, hc, rfl, hfinish⟩ := of_find?_bind hstep
    exact h.finish hfinish
  | upsert callId preferencesId nowIso =>
    obtain ⟨c, hc, rfl, hupsert⟩ := of_find?_bind hstep
    exact h.upsert hc hupsert
  | cacheDel callId =>
    obtain ⟨c, hc, rfl, hdel⟩ := of_find?_bind hstep
    exact h.cacheDel hdel
  | expire userId =>
    cases hstep
    exact h.frame rfl rfl (fun entry hentry => h.cached entry (mem_erase.mp hentry).1)
      fun _ hx => .inl hx
  | abort callId =>
    obtain ⟨c, hc, rfl⟩ := Option.map_eq_some_iff.mp hstep
    exact h.answer _ _

/-! ## What the opt-outs are -/

structure Frame (s s' : System) : Prop where
  preferences : s'.preferences = s.preferences
  optOuts : s'.optOuts = s.optOuts
  notifications : s'.notifications = s.notifications

theorem frame_step (hstep : s.step number a = some s')
    (hdeliver : ∀ callId notificationId currentTime now,
      a ≠ .deliver callId notificationId currentTime now)
    (hupsert : ∀ callId preferencesId nowIso, a ≠ .upsert callId preferencesId nowIso)
    (hdel : ∀ callId, a ≠ .cacheDel callId) : Frame s s' := by
  cases a with
  | begin callId request =>
    obtain ⟨calls, -, rfl⟩ := Option.map_eq_some_iff.mp hstep
    exact ⟨rfl, rfl, rfl⟩
  | cacheGet callId =>
    obtain ⟨c, -, -, hget⟩ := of_find?_bind hstep
    unfold System.cacheGet at hget
    split at hget
    · split at hget <;> cases hget <;> exact ⟨rfl, rfl, rfl⟩
    · cases hget
  | dbRead callId =>
    obtain ⟨c, -, -, hread⟩ := of_find?_bind hstep
    unfold System.dbRead at hread
    split at hread
    · cases hread
      exact ⟨rfl, rfl, rfl⟩
    · cases hread
  | cacheSet callId =>
    obtain ⟨c, -, -, hset⟩ := of_find?_bind hstep
    unfold System.cacheSet at hset
    split at hset
    · cases hset
      exact ⟨rfl, rfl, rfl⟩
    · cases hset
  | deliver callId notificationId currentTime now =>
    exact absurd rfl (hdeliver callId notificationId currentTime now)
  | finish callId =>
    obtain ⟨c, -, -, hfinish⟩ := of_find?_bind hstep
    unfold System.finish at hfinish
    split at hfinish
    · cases hfinish
      exact ⟨rfl, rfl, rfl⟩
    · cases hfinish
      exact ⟨rfl, rfl, rfl⟩
    · cases hfinish
  | upsert callId preferencesId nowIso => exact absurd rfl (hupsert callId preferencesId nowIso)
  | cacheDel callId => exact absurd rfl (hdel callId)
  | expire userId =>
    cases hstep
    exact ⟨rfl, rfl, rfl⟩
  | abort callId =>
    obtain ⟨c, -, rfl⟩ := Option.map_eq_some_iff.mp hstep
    exact ⟨rfl, rfl, rfl⟩

theorem deliver_cases {notificationId : Option String} {now : Int}
    (hstep : s.deliver number c notificationId currentTime now = some s') :
    s'.preferences = s.preferences ∧ s'.optOuts = s.optOuts ∧
      ∃ userId prefs channel remaining params,
        c.phase = .delivering ((userId, prefs, channel) :: remaining) ∧
        ∀ n ∈ s'.notifications.rows, n ∉ s.notifications.rows →
          shouldSendNotification number currentTime params.type channel prefs = true ∧
            ∃ id, n = System.newNotification params id userId channel now := by
  unfold System.deliver at hstep
  split at hstep
  · next userId prefs channel remaining params hphase hparams =>
    simp only at hstep
    split at hstep
    · next hsend =>
      split at hstep
      · cases hstep
        unfold System.deliverFailed
        split
        · exact ⟨rfl, rfl, userId, prefs, channel, remaining, params, hphase,
            fun n hn hnew => absurd hn hnew⟩
        · exact ⟨rfl, rfl, userId, prefs, channel, remaining, params, hphase,
            fun n hn hnew => absurd hn hnew⟩
      · next id =>
        obtain ⟨notifications, hinsert, rfl⟩ := Option.map_eq_some_iff.mp hstep
        refine ⟨rfl, rfl, userId, prefs, channel, remaining, params, hphase, ?_⟩
        intro n hn hnew
        refine ⟨hsend, id, ?_⟩
        have hrows : n ∈ notifications.rows := hn
        rw [rows_of_insert? hinsert, List.mem_append, List.mem_singleton] at hrows
        exact hrows.resolve_left hnew
    · cases hstep
      exact ⟨rfl, rfl, userId, prefs, channel, remaining, params, hphase,
        fun n hn hnew => absurd hn hnew⟩
  · cases hstep

/-! ## Opt-outs are respected -/

theorem respects_step (h : Inv s) (hstep : s.step number a = some s') :
    RespectsOptOuts s a s' := by
  by_cases hdeliver : ∃ callId id time now, a = .deliver callId id time now
  · obtain ⟨callId, id, time, now, rfl⟩ := hdeliver
    obtain ⟨c, hc, rfl, hdelivered⟩ := of_find?_bind hstep
    obtain ⟨-, -, userId, prefs, channel, remaining, params, hphase, hnew⟩ :=
      deliver_cases hdelivered
    intro n hn hnot
    obtain ⟨hsend, notificationId, rfl⟩ := hnew n hn hnot
    obtain ⟨hchannel, hcategory⟩ := disables_of_shouldSend hsend
    have hknows := (h.calls c (mem_of_find? hc)).knows
    rw [hphase] at hknows
    have hhead : Respected c.optOuts userId prefs := hknows _ (List.mem_cons_self ..)
    refine ⟨c, hc, ?_, ?_⟩
    · intro ho
      have hoff : disables prefs (.channel channel) = true := hhead _ ho rfl
      rw [hchannel] at hoff
      cases hoff
    · intro ho
      have hoff : disables prefs (.category (notificationTypeCategory params.type)) = true :=
        hhead _ ho rfl
      rw [hcategory] at hoff
      cases hoff
  · have hsame : s'.notifications = s.notifications := by
      by_cases hupsert : ∃ callId preferencesId nowIso, a = .upsert callId preferencesId nowIso
      · obtain ⟨callId, preferencesId, nowIso, rfl⟩ := hupsert
        obtain ⟨c, -, -, hwrite⟩ := of_find?_bind hstep
        unfold System.upsert at hwrite
        split at hwrite
        · split at hwrite <;> cases hwrite <;> rfl
        · cases hwrite
      · by_cases hdel : ∃ callId, a = .cacheDel callId
        · obtain ⟨callId, rfl⟩ := hdel
          obtain ⟨c, -, -, hdelete⟩ := of_find?_bind hstep
          unfold System.cacheDel at hdelete
          split at hdelete
          · cases hdelete
            rfl
          · cases hdelete
        · exact (frame_step hstep (fun i n t w heq => hdeliver ⟨i, n, t, w, heq⟩)
            (fun i p n heq => hupsert ⟨i, p, n, heq⟩) fun i heq => hdel ⟨i, heq⟩).notifications
    intro n hn hnot
    rw [hsame] at hn
    exact absurd hn hnot

end Steps

/-- **Opt-outs take effect at once where the cache is written as they ask.** In every run, of any
requests of any users in any order: if whatever is written into the cache switches off what the user
has opted out of by then, no notification goes out in a channel or category that the user has opted
out of since before its request began. -/
theorem opt_outs_respected (number : String → Float) (preferences : NotificationPreferences)
    (notifications : Table String NotificationRow (·.notificationId)) (actions : List Action)
    (hwrites : Along (System.step number) WritesRespected (.start preferences notifications)
      actions) :
    EachStep (System.step number) RespectsOptOuts (.start preferences notifications) actions := by
  intro pre a m m' hpre hm hstep
  have hinv := (hwrites.of_prefix ((List.prefix_append pre [a]).trans hpre)).invariant
    (I := Inv) (fun _ _ _ h hc hstep => h.step hc hstep) hm (.start preferences notifications)
  exact respects_step hinv hstep

def everything : NotificationPreferences :=
  ⟨[UpdatePreferencesParams.insertValues {} "ada" "p1" 0], List.nodup_singleton _⟩

def announcement : SendParams := ⟨.systemAnnouncement, "News", "", none, none, none, none⟩

/-- The steps of the update that switches `in_app` off. -/
def switchesOff : List Action :=
  [.begin "u" (.updatePreferences "ada" { inAppEnabled := some false }), .upsert "u" "p2" 1,
    .cacheDel "u"]

def sendReads : List Action := [.begin "r" (.send "ada" announcement), .cacheGet "r", .dbRead "r"]

/-- A send that has the cache to itself, before and after the update. -/
theorem opt_outs_respected_in_turn :
    EachStep (System.step fun _ => 0) RespectsOptOuts (.start everything (.empty _))
      (sendReads ++ [.cacheSet "r", .deliver "r" (some "n1") 0 0, .finish "r"] ++ switchesOff ++
        sendReads ++ [.cacheSet "r", .deliver "r" (some "n2") 0 0, .finish "r"]) :=
  opt_outs_respected (fun _ => 0) everything (.empty _) _ (by decide +kernel)

/-- A send has read the preferences before the update, and writes them into the cache after it: the
next send, which begins after the update has returned, creates what was switched off. -/
theorem opt_outs_overtaken :
    ¬ EachStep (System.step fun _ => 0) RespectsOptOuts (.start everything (.empty _))
      (sendReads ++ switchesOff ++ [.cacheSet "r", .begin "s" (.send "ada" announcement),
        .cacheGet "s"] ++ [.deliver "s" (some "n1") 0 2]) := by
  intro h
  obtain ⟨m, n, hok, hbefore, hafter⟩ := h.read _ _ (List.prefix_refl _)
    (fun m => (m.notifications.rows, (m.calls.find? "s").map (·.optOuts)))
    ([], some [("ada", .channel .inApp)]) (fun n => n.notifications.rows)
    [System.newNotification announcement "n1" "ada" .inApp 2] (by decide +kernel) (by decide +kernel)
  rw [Prod.mk.injEq] at hbefore
  obtain ⟨c, hc, hchannel, -⟩ := hok
    (System.newNotification announcement "n1" "ada" .inApp 2)
    (by rw [hafter]; exact List.mem_singleton_self _)
    (by rw [hbefore.1]; exact List.not_mem_nil)
  have hcall : m.calls.find? "s" = some c := hc
  rw [hcall, Option.map_some, Option.some.injEq] at hbefore
  rw [hbefore.2] at hchannel
  exact hchannel (List.mem_singleton_self _)

end QuizBackend.Notification
