import QuizBackend.Lib.Rows
import QuizBackend.Lib.Run
import QuizBackend.Lib.Uuid

/-!
# Idempotency keys (`IdempotencyService`)

`checkAndSet` looks a key up for a user, computes a response where it finds none, and stores it for 24
hours. The row is found by key and user, whatever the operation is and however old the row; it is
stored under the key alone, after the work is done, with an insertion that does nothing where the key
is taken. Then nothing is raised that the branch for error 23505 could catch: that branch is never
entered, and the response is returned without having been stored.

The three statements of a call interleave with those of other calls, with `deleteExpired` and with the
clock. What has been computed and returned is kept in one log, in the order in which it happened.
Responses are of any type; a `jsonb` column keeps them as they are.

Where a call that finds nothing runs alone for its user, key and operation, insertions find their key
free and succeed, and what is found is for the same operation and was valid when the call was made,
keys are honoured (`keys_honoured`).
-/

namespace QuizBackend.Review.Idempotency

open Lib Table
open List (append_nil mem_append_left mem_singleton not_mem_nil)

/-! ## Data -/

structure Request where
  key : String
  userId : Uuid
  operation : String
  deriving DecidableEq

structure KeyRow (ρ : Type) where
  key : String
  userId : Uuid
  operation : String
  response : ρ
  createdAt : Int
  expiresAt : Int
  deriving DecidableEq

inductive Phase (ρ : Type) where
  | begun
  | computing
  | computed (response : ρ)

structure Call (ρ : Type) where
  callId : String
  request : Request
  startedAt : Int
  phase : Phase ρ

open Call hiding request

structure Computed (ρ : Type) where
  request : Request
  response : ρ
  succeededAt : Int
  expiresAt : Int
  deriving DecidableEq

/-- An answer, and the row it was found in; one that is new was found in none. -/
structure Returned (ρ : Type) where
  request : Request
  response : ρ
  startedAt : Int
  returnedAt : Int
  found : Option (KeyRow ρ)
  deriving DecidableEq

inductive Event (ρ : Type) where
  | computed (m : Computed ρ)
  | returned (r : Returned ρ)
  deriving DecidableEq

structure System (ρ : Type) where
  now : Int
  keys : Table String (KeyRow ρ) (·.key)
  calls : Table String (Call ρ) (·.callId)
  log : List (Event ρ)

def idempotencyTtlHours : Int := 24

variable {ρ : Type}

def KeyRow.request (row : KeyRow ρ) : Request := ⟨row.key, row.userId, row.operation⟩

def Call.expiresAt (c : Call ρ) : Int := c.startedAt + idempotencyTtlHours * 60 * 60 * 1000

def Call.row (c : Call ρ) (response : ρ) : KeyRow ρ :=
  { key := c.request.key, userId := c.request.userId, operation := c.request.operation, response,
    createdAt := c.startedAt, expiresAt := c.expiresAt }

def Call.worksOn (c : Call ρ) : Option Request :=
  match c.phase with
  | .begun => none
  | .computing | .computed _ => some c.request

/-! ## Steps -/

def System.start (now : Int) : System ρ := ⟨now, empty _, empty _, []⟩

namespace System

variable (s : System ρ)

def existing (request : Request) : Option (KeyRow ρ) :=
  (s.keys.find? request.key).filter fun row => decide (row.userId = request.userId)

def finish (callId : String) (events : List (Event ρ)) : System ρ :=
  { s with calls := s.calls.erase callId, log := s.log ++ events }

def advance (callId : String) (phase : Phase ρ) (events : List (Event ρ)) : System ρ :=
  { s with
    calls := s.calls.modify callId (fun c => { c with phase }) fun _ => rfl
    log := s.log ++ events }

section

variable (c : Call ρ)

def returns (response : ρ) (found : Option (KeyRow ρ)) : Returned ρ :=
  { request := c.request, response, startedAt := c.startedAt, returnedAt := s.now, found }

def computes (response : ρ) : Computed ρ :=
  { request := c.request, response, succeededAt := s.now, expiresAt := c.expiresAt }

def lookup : Option (System ρ) :=
  match c.phase with
  | .begun => some <|
    match s.existing c.request with
    | some row => s.finish c.callId [.returned (s.returns c row.response (some row))]
    | none => s.advance c.callId .computing []
  | _ => none

def compute (result : Option ρ) : Option (System ρ) :=
  match c.phase with
  | .computing => some <|
    match result with
    | none => s.finish c.callId []
    | some response =>
      s.advance c.callId (.computed response) [.computed (s.computes c response)]
  | _ => none

def insert : Option (System ρ) :=
  match c.phase with
  | .computed response => some
    { s.finish c.callId [.returned (s.returns c response none)] with
      keys := (s.keys.insert? (c.row response)).getD s.keys }
  | _ => none

end

def deleteExpired : System ρ :=
  { s with keys := s.keys.deleteWhere fun row => decide (row.expiresAt < s.now) }

end System

inductive Action (ρ : Type) where
  | begin (callId : String) (request : Request)
  | lookup (callId : String)
  | compute (callId : String) (result : Option ρ)
  | insert (callId : String)
  | fail (callId : String)
  | deleteExpired
  | tick (now : Int)

def System.step (s : System ρ) : Action ρ → Option (System ρ)
  | .begin callId request =>
    (s.calls.insert? ⟨callId, request, s.now, .begun⟩).map fun calls => { s with calls }
  | .lookup callId => (s.calls.find? callId).bind s.lookup
  | .compute callId result => (s.calls.find? callId).bind fun c => s.compute c result
  | .insert callId => (s.calls.find? callId).bind s.insert
  | .fail callId => (s.calls.find? callId).map fun c => s.finish c.callId []
  | .deleteExpired => some s.deleteExpired
  | .tick now => if s.now ≤ now then some { s with now } else none

/-! ## What should hold -/

/-- What an earlier event means for a later one: a response is computed again when the first one has
expired, and while it has not, it is what is returned. -/
def Agrees : Event ρ → Event ρ → Prop
  | .computed m, .computed m' => m.request = m'.request → m.expiresAt < m'.succeededAt
  | .computed m, .returned r =>
    m.request = r.request → r.returnedAt ≤ m.expiresAt → r.response = m.response
  | .returned _, _ => True

/-- A response is returned that was computed for the same user, key and operation and was valid when
the call was made. -/
def IsFor (r : Returned ρ) (m : Computed ρ) : Prop :=
  m.request = r.request ∧ m.response = r.response ∧ r.startedAt ≤ m.expiresAt ∧
    ∀ row, r.found = some row →
      row.request = m.request ∧ row.response = m.response ∧ row.expiresAt = m.expiresAt

/-- Answers to one key agree, and each was computed for its request. -/
structure Honoured (s : System ρ) : Prop where
  agrees : s.log.Pairwise Agrees
  own : ∀ r, .returned r ∈ s.log → ∃ m, .computed m ∈ s.log ∧ IsFor r m

/-- What a call finds is for its operation and was valid when it was made; one that finds nothing is
alone on its request. -/
def Call.LooksInTurn (s : System ρ) (c : Call ρ) : Prop :=
  match s.existing c.request with
  | some row => row.operation = c.request.operation ∧ c.startedAt ≤ row.expiresAt
  | none => ∀ d ∈ s.calls.rows, d.worksOn ≠ some c.request

def InTurn (s : System ρ) : Action ρ → Prop
  | .lookup callId => ∀ c, s.calls.find? callId = some c → c.LooksInTurn s
  | .insert callId => ∀ c, s.calls.find? callId = some c → s.keys.find? c.request.key = none
  | .fail callId => ∀ c, s.calls.find? callId = some c → ∀ response, c.phase ≠ .computed response
  | .begin .. | .compute .. | .deleteExpired | .tick _ => True

instance (s : System ρ) (c : Call ρ) : Decidable (c.LooksInTurn s) :=
  match hfound : s.existing c.request with
  | some row => decidable_of_iff
    (row.operation = c.request.operation ∧ c.startedAt ≤ row.expiresAt)
    (by rw [LooksInTurn, hfound])
  | none => decidable_of_iff (∀ d ∈ s.calls.rows, d.worksOn ≠ some c.request)
    (by rw [LooksInTurn, hfound])

instance (phase : Phase ρ) : Decidable (∀ response, phase ≠ .computed response) :=
  match phase with
  | .computed response => .isFalse fun h => h response rfl
  | .begun | .computing => .isTrue fun _ h => nomatch h

instance (s : System ρ) (a : Action ρ) : Decidable (InTurn s a) :=
  match a with
  | .lookup callId => decidableOfFind (s.calls.find? callId) fun c => c.LooksInTurn s
  | .insert callId => decidableOfFind (s.calls.find? callId) fun c =>
    s.keys.find? c.request.key = none
  | .fail callId => decidableOfFind (s.calls.find? callId) fun c =>
    ∀ response, c.phase ≠ .computed response
  | .begin .. | .compute .. | .deleteExpired | .tick _ => .isTrue trivial

/-! ## The invariant -/

structure CallOk (s : System ρ) (c : Call ρ) : Prop where
  unstored : ∀ row ∈ s.keys.rows, row.request ≠ c.request
  expired : ∀ m, .computed m ∈ s.log → m.request = c.request → m.expiresAt < s.now ∨
    ∃ response, c.phase = .computed response ∧ m.response = response ∧ m.expiresAt = c.expiresAt
  computed : ∀ response, c.phase = .computed response → ∃ m, .computed m ∈ s.log ∧
    m.request = c.request ∧ m.response = response ∧ m.expiresAt = c.expiresAt

structure Inv (s : System ρ) : Prop where
  calls : ∀ c ∈ s.calls.rows, c.worksOn = some c.request → CallOk s c
  exclusive : s.calls.Exclusive worksOn
  rows : ∀ row ∈ s.keys.rows, (∃ m, .computed m ∈ s.log ∧ m.request = row.request ∧
      m.response = row.response ∧ m.expiresAt = row.expiresAt) ∧
    ∀ m, .computed m ∈ s.log → m.request = row.request →
      m.expiresAt < s.now ∨ (m.response = row.response ∧ m.expiresAt = row.expiresAt)
  kept : ∀ m, .computed m ∈ s.log → m.expiresAt < s.now ∨
    (∃ row ∈ s.keys.rows, row.request = m.request) ∨
      ∃ c ∈ s.calls.rows, c.worksOn = some m.request
  honoured : Honoured s

theorem Inv.start (now : Int) : Inv (System.start now : System ρ) :=
  ⟨fun _ hc => absurd hc not_mem_nil, exclusive_empty,
    fun _ hrow => absurd hrow not_mem_nil, fun _ hm => absurd hm not_mem_nil,
    List.Pairwise.nil, fun _ hr => absurd hr not_mem_nil⟩

section Steps

variable {s s' : System ρ}

theorem existing_eq_some_iff {request : Request} {row : KeyRow ρ} :
    s.existing request = some row ↔
      row ∈ s.keys.rows ∧ row.key = request.key ∧ row.userId = request.userId := by
  rw [System.existing, Option.filter_eq_some_iff, decide_eq_true_iff, find?_eq_some_iff,
    and_assoc]

theorem ne_of_existing_eq_none {request : Request} (h : s.existing request = none) :
    ∀ row ∈ s.keys.rows, row.request ≠ request := by
  rintro row hrow rfl
  rw [existing_eq_some_iff.mpr ⟨hrow, rfl, rfl⟩] at h
  cases h

theorem worksOn_of_eq_some {c : Call ρ} {request : Request} (h : c.worksOn = some request) :
    c.worksOn = some c.request ∧ c.request = request := by
  unfold worksOn at h ⊢
  split at h
  · cases h
  · exact ⟨rfl, Option.some.inj h⟩
  · exact ⟨rfl, Option.some.inj h⟩

theorem mem_advance {c : Call ρ} (hc : s.calls.find? c.callId = some c) {phase : Phase ρ}
    {events : List (Event ρ)} {x : Call ρ}
    (hx : x ∈ (s.advance c.callId phase events).calls.rows) :
    x = { c with phase } ∨ (x ∈ s.calls.rows ∧ x.callId ≠ c.callId) := by
  have hmodified : x ∈ (s.calls.modify c.callId (fun c => { c with phase }) fun _ => rfl).rows := hx
  exact mem_modify_cases hc hmodified

theorem mem_advance_self {c : Call ρ} (hc : s.calls.find? c.callId = some c) (phase : Phase ρ)
    (events : List (Event ρ)) :
    { c with phase } ∈ (s.advance c.callId phase events).calls.rows :=
  mem_modify_self (fun c : Call ρ => { c with phase }) (fun _ => rfl) hc

theorem mem_advance_of_ne {c x : Call ρ} (hx : x ∈ s.calls.rows) (hne : x.callId ≠ c.callId)
    {phase : Phase ρ} {events : List (Event ρ)} :
    x ∈ (s.advance c.callId phase events).calls.rows :=
  mem_modify_of_ne (fun c : Call ρ => { c with phase }) (fun _ => rfl) hx hne

theorem mem_computed_snoc {m m' : Computed ρ} (h : .computed m ∈ s.log ++ [Event.computed m']) :
    .computed m ∈ s.log ∨ m = m' := by
  rcases List.mem_append.mp h with h | h
  · exact .inl h
  · exact .inr (Event.computed.inj (mem_singleton.mp h))

theorem mem_computed_returned {m : Computed ρ} {r : Returned ρ}
    (h : .computed m ∈ s.log ++ [Event.returned r]) : .computed m ∈ s.log := by
  rcases List.mem_append.mp h with h | h
  · exact h
  · cases mem_singleton.mp h

/-! ## Calls that end -/

/-- The log with one answer more, which was computed for the call and agrees with what was computed
before. -/
theorem Honoured.returned (h : Honoured s) {r : Returned ρ}
    (hagrees : ∀ m, .computed m ∈ s.log → Agrees (.computed m) (.returned r))
    (hown : ∃ m, .computed m ∈ s.log ∧ IsFor r m) (hlog : s'.log = s.log ++ [.returned r]) :
    Honoured s' := by
  refine ⟨?_, ?_⟩
  · rw [hlog, List.pairwise_append]
    refine ⟨h.agrees, List.pairwise_singleton _ _, ?_⟩
    intro e he e' he'
    rw [mem_singleton.mp he']
    cases e with
    | computed m => exact hagrees m he
    | returned _ => trivial
  · intro x hx
    rw [hlog] at hx ⊢
    have hm : ∃ m, .computed m ∈ s.log ∧ IsFor x m := by
      rcases List.mem_append.mp hx with hx | hx
      · exact h.own x hx
      · obtain rfl := Event.returned.inj (mem_singleton.mp hx)
        exact hown
    obtain ⟨m, hm, hfor⟩ := hm
    exact ⟨m, mem_append_left _ hm, hfor⟩

theorem Inv.finish (h : Inv s) {c : Call ρ} (hc : s.calls.find? c.callId = some c)
    (hphase : ∀ response, c.phase ≠ .computed response) {events : List (Event ρ)}
    (hquiet : ∀ m, .computed m ∈ s.log ++ events → .computed m ∈ s.log)
    (hhonoured : Honoured (s.finish c.callId events)) : Inv (s.finish c.callId events) := by
  have hmem : ∀ x ∈ (s.finish c.callId events).calls.rows, x ∈ s.calls.rows :=
    fun x hx => (mem_erase.mp hx).1
  have hold : ∀ m, .computed m ∈ s.log → .computed m ∈ s.log ++ events :=
    fun m hm => mem_append_left _ hm
  refine ⟨?_, h.exclusive.erase c.callId, ?_, ?_, hhonoured⟩
  · intro x hx hworks
    have hok := h.calls x (hmem x hx) hworks
    refine ⟨hok.unstored, fun m hm => hok.expired m (hquiet m hm), ?_⟩
    intro response hresponse
    obtain ⟨m, hm, hsame⟩ := hok.computed response hresponse
    exact ⟨m, hold m hm, hsame⟩
  · intro row hrow
    obtain ⟨⟨m, hm, hsame⟩, hlast⟩ := h.rows row hrow
    exact ⟨⟨m, hold m hm, hsame⟩, fun m hm => hlast m (hquiet m hm)⟩
  · intro m hm
    rcases h.kept m (hquiet m hm) with hexpired | hstored | ⟨x, hx, hworks⟩
    · exact .inl hexpired
    · exact .inr (.inl hstored)
    · by_cases hsame : x.callId = c.callId
      · -- the call itself: what was computed for its request before has expired
        obtain rfl : x = c := eq_of_key_eq hx (mem_of_find? hc) hsame
        obtain ⟨hown, hrequest⟩ := worksOn_of_eq_some hworks
        rcases (h.calls x hx hown).expired m (hquiet m hm) hrequest.symm with
          hexpired | ⟨response, hresponse, -⟩
        · exact .inl hexpired
        · exact absurd hresponse (hphase response)
      · exact .inr (.inr ⟨x, mem_erase.mpr ⟨hx, hsame⟩, hworks⟩)

theorem honoured_silent (h : Honoured s) (hlog : s'.log = s.log) : Honoured s' := by
  refine ⟨hlog ▸ h.agrees, ?_⟩
  rw [hlog]
  exact h.own

/-! ## Steps -/

theorem CallOk.later {c : Call ρ} (h : CallOk s c) (hkeys : s'.keys = s.keys)
    (hlog : s'.log = s.log) (hnow : s.now ≤ s'.now) : CallOk s' c := by
  refine ⟨hkeys ▸ h.unstored, ?_, ?_⟩
  · intro m hm hsame
    rw [hlog] at hm
    exact (h.expired m hm hsame).imp_left fun hgone => lt_of_lt_of_le hgone hnow
  · rw [hlog]
    exact h.computed

section

variable (h : Inv s)
include h

theorem Inv.lookup {c : Call ρ} (hc : s.calls.find? c.callId = some c)
    (hcond : c.LooksInTurn s) (hlookup : s.lookup c = some s') : Inv s' := by
  unfold System.lookup at hlookup
  split at hlookup
  · next hphase =>
    rw [Option.some.injEq] at hlookup
    split at hlookup
    · next row hexisting =>
      simp only [LooksInTurn, hexisting] at hcond
      obtain ⟨hrow, hkey, huser⟩ := existing_eq_some_iff.mp hexisting
      have hrequest : row.request = c.request := by
        rw [KeyRow.request, hkey, huser, hcond.1]
      obtain ⟨⟨m, hm, hmrequest, hresponse, hexpires⟩, hlast⟩ := h.rows row hrow
      subst hlookup
      refine h.finish hc (by simp [hphase]) (fun m hm => mem_computed_returned hm)
        (h.honoured.returned ?_ ⟨m, hm, ?_⟩ rfl)
      · intro m' hm' hsame hvalid
        rcases hlast m' hm' (hsame.trans hrequest.symm) with hexpired | ⟨hresponse', -⟩
        · exact absurd hexpired (Int.not_lt.mpr hvalid)
        · exact hresponse'.symm
      · refine ⟨hmrequest.trans hrequest, hresponse, hexpires ▸ hcond.2, ?_⟩
        rintro _ ⟨⟩
        exact ⟨hmrequest.symm, hresponse.symm, hexpires.symm⟩
    · next hnone =>
      simp only [LooksInTurn, hnone] at hcond
      have hunstored := ne_of_existing_eq_none hnone
      have hexpired : ∀ m, .computed m ∈ s.log → m.request = c.request → m.expiresAt < s.now := by
        intro m hm hsame
        rcases h.kept m hm with hexpired | ⟨row, hrow, hrequest⟩ | ⟨d, hd, hworks⟩
        · exact hexpired
        · exact absurd (hrequest.trans hsame) (hunstored row hrow)
        · exact absurd (hsame ▸ hworks) (hcond d hd)
      subst hlookup
      have hlog : ∀ m, .computed m ∈ s.log ++ [] → .computed m ∈ s.log := by simp
      refine ⟨?_, h.exclusive.modify (fun c => { c with phase := .computing }) (fun _ => rfl) hc ?_,
        ?_, ?_, honoured_silent h.honoured (append_nil _)⟩
      · intro x hx hworks
        rcases mem_advance hc hx with rfl | ⟨hx, -⟩
        · exact ⟨hunstored, fun m hm hsame => .inl (hexpired m (hlog m hm) hsame),
            fun _ hresponse => nomatch hresponse⟩
        · have hok := h.calls x hx hworks
          refine ⟨hok.unstored, fun m hm => hok.expired m (hlog m hm), ?_⟩
          intro response hresponse
          obtain ⟨m, hm, hsame⟩ := hok.computed response hresponse
          exact ⟨m, mem_append_left _ hm, hsame⟩
      · rintro _ ⟨⟩
        exact .inr fun x hx _ => hcond x hx
      · intro row hrow
        obtain ⟨⟨m, hm, hsame⟩, hlast⟩ := h.rows row hrow
        exact ⟨⟨m, mem_append_left _ hm, hsame⟩, fun m hm => hlast m (hlog m hm)⟩
      · intro m hm
        rcases h.kept m (hlog m hm) with hexpired | hstored | ⟨x, hx, hworks⟩
        · exact .inl hexpired
        · exact .inr (.inl hstored)
        · refine .inr (.inr ⟨x, mem_advance_of_ne hx ?_, hworks⟩)
          intro hsame
          obtain rfl : x = c := eq_of_key_eq hx (mem_of_find? hc) hsame
          rw [worksOn, hphase] at hworks
          cases hworks
  · cases hlookup

theorem Inv.compute {c : Call ρ} (hc : s.calls.find? c.callId = some c)
    {result : Option ρ} (hcompute : s.compute c result = some s') : Inv s' := by
  unfold System.compute at hcompute
  split at hcompute
  · next hphase =>
    rw [Option.some.injEq] at hcompute
    have hworks : c.worksOn = some c.request := by rw [worksOn, hphase]
    have hmem := mem_of_find? hc
    cases result with
    | none =>
      subst hcompute
      exact h.finish hc (by simp [hphase]) (by simp)
        (honoured_silent h.honoured (append_nil _))
    | some response =>
      subst hcompute
      have hok := h.calls c hmem hworks
      have hexpired : ∀ m, .computed m ∈ s.log → m.request = c.request → m.expiresAt < s.now := by
        intro m hm hsame
        refine (hok.expired m hm hsame).resolve_right ?_
        rintro ⟨response, hresponse, -⟩
        rw [hphase] at hresponse
        cases hresponse
      have hnew : Event.computed (s.computes c response) ∈
          s.log ++ [.computed (s.computes c response)] :=
        List.mem_append_right _ (List.mem_singleton_self _)
      refine ⟨?_, h.exclusive.modify (fun c => { c with phase := .computed response })
        (fun _ => rfl) hc ?_, ?_, ?_, ?_, ?_⟩
      · intro x hx hxworks
        rcases mem_advance hc hx with rfl | ⟨hx, hne⟩
        · refine ⟨hok.unstored, ?_, ?_⟩
          · intro m hm hsame
            rcases mem_computed_snoc hm with hm | rfl
            · exact .inl (hexpired m hm hsame)
            · exact .inr ⟨response, rfl, rfl, rfl⟩
          · rintro _ ⟨⟩
            exact ⟨s.computes c response, hnew, rfl, rfl, rfl⟩
        · have hxok := h.calls x hx hxworks
          refine ⟨hxok.unstored, ?_, ?_⟩
          · intro m hm hsame
            rcases mem_computed_snoc hm with hm | rfl
            · exact hxok.expired m hm hsame
            · -- nobody else works on this request
              have hxc : x.worksOn = some c.request := hxworks.trans (congrArg some hsame.symm)
              exact absurd (congrArg callId (h.exclusive x hx c hmem _ hxc hworks)) hne
          · intro response' hresponse
            obtain ⟨m, hm, hsame⟩ := hxok.computed response' hresponse
            exact ⟨m, mem_append_left _ hm, hsame⟩
      · rintro _ ⟨⟩
        exact .inl hworks
      · intro row hrow
        obtain ⟨⟨m, hm, hsame⟩, hlast⟩ := h.rows row hrow
        refine ⟨⟨m, mem_append_left _ hm, hsame⟩, ?_⟩
        intro m hm hrequest
        rcases mem_computed_snoc hm with hm | rfl
        · exact hlast m hm hrequest
        · exact absurd hrequest.symm (hok.unstored row hrow)
      · intro m hm
        rcases mem_computed_snoc hm with hold | rfl
        · rcases h.kept m hold with hgone | hstored | ⟨x, hx, hxworks⟩
          · exact .inl hgone
          · exact .inr (.inl hstored)
          · by_cases hsame : x.callId = c.callId
            · obtain rfl : x = c := eq_of_key_eq hx hmem hsame
              exact .inl (hexpired m hold (worksOn_of_eq_some hxworks).2.symm)
            · exact .inr (.inr ⟨x, mem_advance_of_ne hx hsame, hxworks⟩)
        · exact .inr (.inr ⟨_, mem_advance_self hc _ _, rfl⟩)
      · refine List.pairwise_append.mpr ⟨h.honoured.agrees, List.pairwise_singleton _ _, ?_⟩
        intro e he e' he'
        rw [mem_singleton.mp he']
        cases e with
        | computed m => exact fun hsame => hexpired m he hsame
        | returned _ => trivial
      · intro r hr
        rcases List.mem_append.mp hr with hr | hr
        · obtain ⟨m, hm, hfor⟩ := h.honoured.own r hr
          exact ⟨m, mem_append_left _ hm, hfor⟩
        · cases mem_singleton.mp hr
  · cases hcompute

theorem Inv.insert {c : Call ρ} (hc : s.calls.find? c.callId = some c)
    (hfree : s.keys.find? c.request.key = none) (hinsert : s.insert c = some s') : Inv s' := by
  unfold System.insert at hinsert
  split at hinsert
  · next response hphase =>
    cases hinsert
    have hworks : c.worksOn = some c.request := by rw [worksOn, hphase]
    have hmem := mem_of_find? hc
    have hok := h.calls c hmem hworks
    obtain ⟨m, hm, hrequest, hresponse, hexpires⟩ := hok.computed response hphase
    obtain ⟨keys, hkeys⟩ := insert?_isSome (t := s.keys) (r := c.row response) hfree
    have hrows : ∀ row, row ∈ ((s.keys.insert? (c.row response)).getD s.keys).rows ↔
        row ∈ s.keys.rows ∨ row = c.row response := by
      intro row
      rw [hkeys, Option.getD_some, rows_of_insert? hkeys, List.mem_append, mem_singleton]
    have hlast : ∀ m, .computed m ∈ s.log → m.request = c.request →
        m.expiresAt < s.now ∨ (m.response = response ∧ m.expiresAt = c.expiresAt) := by
      intro m hm hsame
      refine (hok.expired m hm hsame).imp_right ?_
      rintro ⟨response', hresponse', hsame⟩
      obtain rfl := Phase.computed.inj (hphase.symm.trans hresponse')
      exact hsame
    refine ⟨?_, h.exclusive.erase c.callId, ?_, ?_, ?_⟩
    · intro x hx hxworks
      obtain ⟨hx, hne⟩ := mem_erase.mp hx
      have hxok := h.calls x hx hxworks
      refine ⟨?_, fun m hm => hxok.expired m (mem_computed_returned hm), ?_⟩
      · intro row hrow hsame
        rcases (hrows row).mp hrow with hrow | rfl
        · exact hxok.unstored row hrow hsame
        · have hxc : x.worksOn = some c.request := hxworks.trans (congrArg some hsame.symm)
          exact hne (congrArg callId (h.exclusive x hx c hmem _ hxc hworks))
      · intro response' hresponse'
        obtain ⟨m, hm, hsame⟩ := hxok.computed response' hresponse'
        exact ⟨m, mem_append_left _ hm, hsame⟩
    · intro row hrow
      rcases (hrows row).mp hrow with hrow | rfl
      · obtain ⟨⟨m, hm, hsame⟩, hrowLast⟩ := h.rows row hrow
        exact ⟨⟨m, mem_append_left _ hm, hsame⟩,
          fun m hm => hrowLast m (mem_computed_returned hm)⟩
      · exact ⟨⟨m, mem_append_left _ hm, hrequest, hresponse, hexpires⟩,
          fun m hm => hlast m (mem_computed_returned hm)⟩
    · intro m hm
      rcases h.kept m (mem_computed_returned hm) with hgone | ⟨row, hrow, hsame⟩ | ⟨x, hx, hxworks⟩
      · exact .inl hgone
      · exact .inr (.inl ⟨row, (hrows row).mpr (.inl hrow), hsame⟩)
      · by_cases hsame : x.callId = c.callId
        · obtain rfl : x = c := eq_of_key_eq hx hmem hsame
          refine .inr (.inl ⟨x.row response, (hrows _).mpr (.inr rfl), ?_⟩)
          exact (worksOn_of_eq_some hxworks).2
        · exact .inr (.inr ⟨x, mem_erase.mpr ⟨hx, hsame⟩, hxworks⟩)
    · refine h.honoured.returned ?_ ⟨m, hm, hrequest, hresponse, ?_, ?_⟩ rfl
      · intro m' hm' hsame hvalid
        rcases hlast m' hm' hsame with hgone | ⟨hresponse', -⟩
        · exact absurd hgone (Int.not_lt.mpr hvalid)
        · exact hresponse'.symm
      · rw [hexpires]
        exact Int.le_add_of_nonneg_right (by decide)
      · rintro _ ⟨⟩
  · cases hinsert

theorem Inv.deleteExpired : Inv s.deleteExpired := by
  have hmem : ∀ row, row ∈ s.deleteExpired.keys.rows → row ∈ s.keys.rows :=
    fun row hrow => (mem_deleteWhere.mp hrow).1
  refine ⟨?_, h.exclusive, fun row hrow => h.rows row (hmem row hrow), ?_,
    honoured_silent h.honoured rfl⟩
  · intro c hc hworks
    have hok := h.calls c hc hworks
    exact ⟨fun row hrow => hok.unstored row (hmem row hrow), hok.expired, hok.computed⟩
  · intro m hm
    rcases h.kept m hm with hgone | ⟨row, hrow, hsame⟩ | hworks
    · exact .inl hgone
    · by_cases hvalid : row.expiresAt < s.now
      · rcases (h.rows row hrow).2 m hm hsame.symm with hgone | ⟨-, hexpires⟩
        · exact .inl hgone
        · exact .inl (hexpires ▸ hvalid)
      · exact .inr (.inl ⟨row, mem_deleteWhere.mpr ⟨hrow, decide_eq_false hvalid⟩, hsame⟩)
    · exact .inr (.inr hworks)

theorem Inv.tick {now : Int} (hnow : s.now ≤ now) : Inv { s with now } := by
  have hlater : ∀ expiresAt : Int, expiresAt < s.now → expiresAt < now :=
    fun expiresAt hgone => lt_of_lt_of_le hgone hnow
  refine ⟨fun c hc hworks => (h.calls c hc hworks).later rfl rfl hnow, h.exclusive, ?_,
    fun m hm => (h.kept m hm).imp_left (hlater _), honoured_silent h.honoured rfl⟩
  · intro row hrow
    obtain ⟨hstored, hlast⟩ := h.rows row hrow
    exact ⟨hstored, fun m hm hsame => (hlast m hm hsame).imp_left (hlater _)⟩

theorem Inv.begin {c : Call ρ} (hphase : c.phase = .begun)
    {calls : Table String (Call ρ) (·.callId)} (hcalls : s.calls.insert? c = some calls) :
    Inv { s with calls } := by
  have hidle : c.worksOn = none := by rw [worksOn, hphase]
  have hrows : ∀ x, x ∈ calls.rows ↔ x ∈ s.calls.rows ∨ x = c := by
    intro x
    rw [rows_of_insert? hcalls, List.mem_append, mem_singleton]
  refine ⟨?_, h.exclusive.insert? hidle hcalls, h.rows, ?_, honoured_silent h.honoured rfl⟩
  · intro x hx hworks
    rcases (hrows x).mp hx with hx | rfl
    · exact (h.calls x hx hworks).later rfl rfl le_rfl
    · rw [hidle] at hworks
      cases hworks
  · intro m hm
    refine (h.kept m hm).imp_right (Or.imp_right ?_)
    rintro ⟨x, hx, hworks⟩
    exact ⟨x, (hrows x).mpr (.inl hx), hworks⟩

theorem Inv.step {a : Action ρ} (hcond : InTurn s a) (hstep : s.step a = some s') :
    Inv s' := by
  cases a with
  | begin callId request =>
    obtain ⟨calls, hcalls, rfl⟩ := Option.map_eq_some_iff.mp hstep
    exact h.begin rfl hcalls
  | lookup callId =>
    obtain ⟨c, hc, rfl, hlookup⟩ := of_find?_bind hstep
    exact h.lookup hc (hcond c hc) hlookup
  | compute callId result =>
    obtain ⟨c, hc, rfl, hcompute⟩ := of_find?_bind hstep
    exact h.compute hc hcompute
  | insert callId =>
    obtain ⟨c, hc, rfl, hinsert⟩ := of_find?_bind hstep
    exact h.insert hc (hcond c hc) hinsert
  | fail callId =>
    obtain ⟨c, hc, rfl⟩ := Option.map_eq_some_iff.mp hstep
    obtain rfl := key_of_find? hc
    exact h.finish hc (hcond c hc) (by simp) (honoured_silent h.honoured (append_nil _))
  | deleteExpired =>
    cases hstep
    exact h.deleteExpired
  | tick now =>
    simp only [System.step, Option.ite_none_right_eq_some, Option.some.injEq] at hstep
    obtain ⟨hnow, rfl⟩ := hstep
    exact h.tick hnow

end

end Steps

/-! ## Runs -/

/-- **Where idempotency keys are honoured.** In a run in which every call that finds nothing works
alone on its request, every insertion finds its key free, no call fails after its computation, and
what is found is for the same operation and was valid when the call was made: a response is computed
once while it is valid, everything returned meanwhile is that response, and no answer is another
request's or had expired. -/
theorem keys_honoured {now : Int} {actions : List (Action ρ)} {t : System ρ}
    (h : exec System.step (System.start now) actions = some t)
    (hcond : Along System.step InTurn (System.start now) actions) : Honoured t :=
  (hcond.invariant (fun _ _ _ hi hc hstep => hi.step hc hstep) h (Inv.start now)).honoured

def createdTwice : List (Action String) :=
  [.begin "a" ⟨"k", 7, "createReview"⟩, .lookup "a", .compute "a" (some "review 1"), .insert "a",
    .tick 1000, .begin "b" ⟨"k", 7, "createReview"⟩, .lookup "b"]

theorem keys_honoured_again : ∃ t, exec System.step (System.start 0) createdTwice = some t ∧
    t.log.length = 3 ∧ Honoured t := by
  refine exists_of_read (fun t => t.log.length) 3 (by decide +kernel) fun t ht hread => ?_
  exact ⟨hread, keys_honoured ht (by decide +kernel)⟩

def createdAtOnce : List (Action String) :=
  [.begin "a" ⟨"k", 7, "createReview"⟩, .begin "b" ⟨"k", 7, "createReview"⟩, .lookup "a",
    .lookup "b", .compute "a" (some "review 1"), .compute "b" (some "review 2"), .insert "a",
    .insert "b"]

/-- The work is done twice, and each call returns its own response. -/
theorem keys_not_honoured : ∃ t : System String,
    exec System.step (System.start 0) createdAtOnce = some t ∧ ¬ Honoured t := by
  refine exists_of_read (fun t => t.log.take 2)
    [.computed ⟨⟨"k", 7, "createReview"⟩, "review 1", 0, 86400000⟩,
      .computed ⟨⟨"k", 7, "createReview"⟩, "review 2", 0, 86400000⟩]
    (by decide +kernel) fun t ht hread => ?_
  intro hhonoured
  have hfirst := hhonoured.agrees.sublist (List.take_sublist 2 t.log)
  rw [hread] at hfirst
  have hagrees := (List.pairwise_cons.mp hfirst).1 _ (List.mem_singleton_self _)
  exact absurd (hagrees rfl) (by decide)

end QuizBackend.Review.Idempotency
