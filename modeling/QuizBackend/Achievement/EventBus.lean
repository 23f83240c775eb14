import QuizBackend.Achievement.Badges
import QuizBackend.Outbox.Isolation

/-!
# The delivery of achievement events

`AchievementOutboxProcessorService.dispatch` takes the payload of a row for an event and emits it on
the in-process bus. Handlers are subscribed there to all events or to those of one type, and a row
should reach both, as an event of its type and its user; where a handler fails, the row should be
tried again.

Neither happens. The type of an event stands in a column of the row, and none of the three payloads
repeats it. So the bus looks up the handlers of `undefined`, which are none, and hands the others an
event without a type. What a handler throws is caught handler by handler, so that `emit` never throws
and every supported row counts as delivered.

That leaves the rows nobody is there for (`achievement_event_delivered_iff`).
-/

namespace QuizBackend.Achievement

open Lib Outbox

/-! ## The bus -/

/-- An event: a payload that was cast to one, or what the bus itself has put together. -/
abbrev AchievementDomainEvent := List (String × JsonValue)

/-- What becomes of a call of a handler; a promise may be fulfilled or rejected later on. -/
inductive HandlerResult where
  | returns
  | throws (error : Thrown)
  | rejects (error : Thrown)

def HandlerResult.fails : HandlerResult → Bool
  | .returns => false
  | .throws _ | .rejects _ => true

variable {η : Type} [DecidableEq η]

structure EventBus (η : Type) where
  handlers : List (String × List η)
  globalHandlers : List η

namespace EventBus

/-- `this.handlers.get(eventType) ?? []`; an event without a type has the key `undefined`. -/
def handlersOf (bus : EventBus η) (eventType : Option String) : List η :=
  ((eventType.bind fun t => bus.handlers.lookup t)).getD []

/-- `Array.from(new Set([...this.globalHandlers, ...]))`. -/
def uniqueHandlers (bus : EventBus η) (eventType : Option String) : List η :=
  (bus.globalHandlers ++ bus.handlersOf eventType).eraseDups

end EventBus

def eventTypeOf (event : AchievementDomainEvent) : Option String :=
  match event.lookup "eventType" with
  | some (.str t) => some t
  | _ => none

/-- What one `publish` has done: the calls in order, and the errors that were logged. -/
structure Published (η : Type) where
  calls : List (η × AchievementDomainEvent)
  logged : List Thrown

section

variable (run : η → AchievementDomainEvent → HandlerResult)

/-- The body of the loop: the handler is called, and what it throws or rejects with is logged. -/
def callHandler (event : AchievementDomainEvent)
    (done : Published η) (handler : η) : Published η :=
  match run handler event with
  | .returns => { done with calls := done.calls ++ [(handler, event)] }
  | .throws error | .rejects error =>
    ⟨done.calls ++ [(handler, event)], done.logged ++ [error]⟩

def publish (bus : EventBus η)
    (event : AchievementDomainEvent) : Published η :=
  (bus.uniqueHandlers (eventTypeOf event)).foldl (callHandler run event) ⟨[], []⟩

/-- `AchievementDomainEventBus.emit`: nothing gets out of `publish`. -/
def emit (bus : EventBus η)
    (event : AchievementDomainEvent) : Delivery × Published η :=
  (.ok (), publish run bus event)

def dispatch (bus : EventBus η)
    (row : OutboxRow) : Delivery × Published η :=
  if row.eventType ∈ ["achievement.awarded", "badge.revoked", "badge.restored"] then
    let (captured, published) := emit run bus row.payload
    (rewrapped captured, published)
  else
    (.error (.error s!"Unsupported achievement outbox event type: {row.eventType}"), ⟨[], []⟩)

end

/-! ## What should hold -/

/-- The handlers of all events and those of its type get an event with the type and the user of the
row, each once, and the delivery fails when one of them does. -/
structure Delivered (run : η → AchievementDomainEvent → HandlerResult) (bus : EventBus η)
    (userId : String) (row : OutboxRow) : Prop where
  handlers : ∀ h, h ∈ (dispatch run bus row).2.calls.map Prod.fst ↔
    h ∈ bus.globalHandlers ∨ h ∈ bus.handlersOf (some row.eventType)
  once : ((dispatch run bus row).2.calls.map Prod.fst).Nodup
  event : ∀ call ∈ (dispatch run bus row).2.calls, eventTypeOf call.2 = some row.eventType ∧
    call.2.lookup "userId" = some (.str userId)
  fails : (∃ call ∈ (dispatch run bus row).2.calls, (run call.1 call.2).fails = true) →
    (dispatch run bus row).1 ≠ .ok ()

/-! ## What the code does -/

section Publish

variable {run : η → AchievementDomainEvent → HandlerResult} {bus : EventBus η}

omit [DecidableEq η] in
theorem calls_callHandler (event : AchievementDomainEvent) (done : Published η) (handler : η) :
    (callHandler run event done handler).calls = done.calls ++ [(handler, event)] := by
  unfold callHandler
  split <;> rfl

omit [DecidableEq η] in
theorem calls_foldl (event : AchievementDomainEvent) (l : List η) (done : Published η) :
    (l.foldl (callHandler run event) done).calls = done.calls ++ l.map fun h => (h, event) := by
  induction l generalizing done with
  | nil => rw [List.foldl_nil, List.map_nil, List.append_nil]
  | cons h l ih =>
    rw [List.foldl_cons, ih, calls_callHandler, List.append_assoc, List.map_cons,
      List.singleton_append]

theorem calls_publish (event : AchievementDomainEvent) :
    (publish run bus event).calls =
      (bus.uniqueHandlers (eventTypeOf event)).map fun h => (h, event) := by
  unfold publish
  rw [calls_foldl, List.nil_append]

omit [DecidableEq η] in
theorem handlersOf_none (bus : EventBus η) : bus.handlersOf none = [] := rfl

end Publish

namespace AchievementWrite

theorem eventTypeOf_payload (nowIso : Int) (w : AchievementWrite) :
    eventTypeOf (w.payload nowIso) = none := by
  cases w with
  | awarded userId badgeId metadata => cases metadata <;> rfl
  | revoked userId badgeId badgeSlug reason => rfl
  | restored userId badgeId badgeSlug restoredBy => rfl

theorem eventType_supported (w : AchievementWrite) :
    w.eventType ∈ ["achievement.awarded", "badge.revoked", "badge.restored"] := by
  cases w <;> simp [eventType]

/-- A row one of the transactions has written counts as delivered, and the handlers of all events
alone were called, with its payload. -/
theorem dispatch_row {drawn : Drawn} {nowIso : Int} (w : AchievementWrite) {row : OutboxRow}
    (hrow : row.content = (w.newEvent drawn nowIso).row.content)
    (run : η → AchievementDomainEvent → HandlerResult) (bus : EventBus η) :
    (dispatch run bus row).1 = .ok () ∧
      (dispatch run bus row).2.calls =
        bus.globalHandlers.eraseDups.map fun h => (h, w.payload nowIso) := by
  have htype : row.eventType = w.eventType := congrArg (fun c => c.2.2.1) hrow
  have hpayload : row.payload = w.payload nowIso := congrArg (fun c => c.2.2.2) hrow
  unfold dispatch
  rw [if_pos (htype ▸ w.eventType_supported), hpayload]
  refine ⟨rfl, ?_⟩
  show (publish run bus (w.payload nowIso)).calls = _
  rw [calls_publish, eventTypeOf_payload, EventBus.uniqueHandlers, handlersOf_none,
    List.append_nil]

end AchievementWrite

/-- **An achievement event is delivered exactly where nobody waits for it.** Whatever one of the three
transactions has written, and however often its row was tried before: its delivery calls the handlers
of all events and those of its type with an event of its type and user, and fails where one of them
does, if and only if there is no handler of either kind. -/
theorem achievement_event_delivered_iff (w : AchievementWrite) (drawn : Drawn) (nowIso : Int)
    (row : OutboxRow) (hrow : row.content = (w.newEvent drawn nowIso).row.content)
    (run : η → AchievementDomainEvent → HandlerResult) (bus : EventBus η) :
    Delivered run bus w.userId row ↔
      bus.globalHandlers = [] ∧ bus.handlersOf (some w.eventType) = [] := by
  obtain ⟨hok, hcalls⟩ := w.dispatch_row hrow run bus
  have htype : row.eventType = w.eventType := congrArg (fun c => c.2.2.1) hrow
  constructor
  · intro h
    have hglobal : bus.globalHandlers = [] := by
      refine List.eq_nil_iff_forall_not_mem.mpr ?_
      intro handler hmem
      have hcall : (handler, w.payload nowIso) ∈ (dispatch run bus row).2.calls := by
        rw [hcalls]
        exact List.mem_map.mpr ⟨handler, List.mem_eraseDups.mpr hmem, rfl⟩
      -- it was called with the payload, which has no type
      have htyped := (h.event _ hcall).1
      rw [AchievementWrite.eventTypeOf_payload] at htyped
      cases htyped
    refine ⟨hglobal, List.eq_nil_iff_forall_not_mem.mpr ?_⟩
    intro handler hmem
    have hcalled := (h.handlers handler).mpr (.inr (htype ▸ hmem))
    rw [hcalls, hglobal] at hcalled
    cases hcalled
  · rintro ⟨hglobal, htyped⟩
    have hnone : (dispatch run bus row).2.calls = [] := by
      rw [hcalls, hglobal]
      rfl
    refine ⟨?_, ?_, ?_, ?_⟩
    · intro handler
      rw [hnone, hglobal, htype, htyped]
      exact iff_of_false List.not_mem_nil (by simp)
    · rw [hnone]
      exact List.nodup_nil
    · rw [hnone]
      exact fun call hcall => absurd hcall List.not_mem_nil
    · rw [hnone]
      rintro ⟨call, hcall, -⟩
      exact absurd hcall List.not_mem_nil

def adasAward : OutboxRow :=
  ((AchievementWrite.awarded "ada" "b1" none).newEvent ⟨"ub1", "e1", 5⟩ 5).row

/-- Nobody waits for awards, one handler for revocations. -/
theorem achievement_event_delivered_unheard :
    Delivered (fun (_ : Nat) _ => .returns) ⟨[("badge.revoked", [1])], []⟩ "ada" adasAward :=
  (achievement_event_delivered_iff (.awarded "ada" "b1" none) ⟨"ub1", "e1", 5⟩ 5 adasAward rfl
    (fun (_ : Nat) _ => .returns) ⟨[("badge.revoked", [1])], []⟩).mpr ⟨rfl, rfl⟩

/-- The handler of awards is not called. The handler of all events gets an event without a type, and
the row counts as delivered although it throws. -/
theorem achievement_event_not_delivered :
    ¬ Delivered (fun (_ : Nat) _ => .returns) ⟨[("achievement.awarded", [1])], []⟩ "ada"
        adasAward ∧
      ¬ Delivered (fun (_ : Nat) _ => .throws (.error "no")) ⟨[], [1]⟩ "ada" adasAward := by
  refine ⟨?_, ?_⟩
  · intro h
    have hcalled := (h.handlers 1).mpr (.inr (by decide))
    exact absurd hcalled (by decide)
  · intro h
    have hcall : (dispatch (fun (_ : Nat) _ => .throws (.error "no")) ⟨[], [1]⟩ adasAward).2.calls =
        [(1, [("userId", .str "ada"), ("badgeId", .str "b1")])] := by decide
    refine h.fails ⟨(1, [("userId", .str "ada"), ("badgeId", .str "b1")]), ?_, rfl⟩ (by decide)
    rw [hcall]
    exact List.mem_singleton_self _

end QuizBackend.Achievement
