import Mathlib.Data.List.ReduceOption
import Mathlib.Data.List.Perm.Basic
import Mathlib.Logic.Function.Basic

/-!
# Draining the dead-letter lists (`retry-queue-drain.scheduler.ts`)

`drainOnce` goes through the tiers. From the list of each it pops up to a hundred envelopes and
inserts each one into `dead_letter_events`. The envelope is off the list before the insert is
issued, and an insert that fails is logged and forgotten, envelope and all.

`accounted_iff` does the accounting: what a list and the table hold of a queue together is the same
before and after exactly when no insert fails. The number of inserts a drain issues is `issued`, and
which of them fail is anybody's guess (`fails`).

An element of a list that is not JSON is popped like any other; `lpopJson` returns `null` for it,
and the loop of the tier takes that for the end of the list.
-/

namespace QuizBackend.Events

open Function (update update_eq_self update_self)

variable {T : Type}

structure DeadLetterEnvelope (T : Type) where
  event : T
  failedAt : String
  lastAttempt : Int
  lastError : Option String
  correlationId : Option String

structure DeadLetterEvent (T : Type) where
  tier : String
  sourceQueue : String
  event : T
  lastAttempt : Int
  lastError : Option String
  correlationId : Option String

/-- The Redis lists by their key, an element that is not JSON being `none`; the table; and how many
inserts have been issued. -/
structure DeadLetters (T : Type) where
  lists : String → List (Option (DeadLetterEnvelope T))
  rows : List (DeadLetterEvent T)
  inserts : Nat

def drainBatch : Nat := 100

def deadLetterRow (tier sourceQueue : String) (envelope : DeadLetterEnvelope T) :
    DeadLetterEvent T :=
  { tier, sourceQueue, event := envelope.event, lastAttempt := envelope.lastAttempt
    lastError := envelope.lastError, correlationId := envelope.correlationId }

namespace DeadLetters

/-- `lpopJson`, when there is an element: what is left. -/
def pop (s : DeadLetters T) (key : String) : DeadLetters T :=
  { s with lists := update s.lists key (s.lists key).tail }

/-- The `INSERT`; an error is caught. -/
def insert (fails : Nat → Bool) (s : DeadLetters T) (row : DeadLetterEvent T) : DeadLetters T :=
  { s with
    rows := if fails s.inserts then s.rows else s.rows ++ [row]
    inserts := s.inserts + 1 }

/-- `drainTier`, with `left` rounds to go: the count it returns and what it leaves. -/
def drainTier (fails : Nat → Bool) (tier key : String) :
    Nat → DeadLetters T → Nat × DeadLetters T
  | 0, s => (0, s)
  | left + 1, s =>
    match s.lists key with
    | [] => (0, s)
    | none :: _ => (0, s.pop key)
    | some envelope :: _ =>
      let rest := drainTier fails tier key left
        ((s.pop key).insert fails (deadLetterRow tier key envelope))
      (rest.1 + 1, rest.2)

/-- `drainOnce`: the summary it returns and what it leaves. -/
def drainOnce (fails : Nat → Bool) :
    List (String × String) → DeadLetters T → List (String × Nat) × DeadLetters T
  | [], s => ([], s)
  | (tier, key) :: tiers, s =>
    let drained := drainTier fails tier key drainBatch s
    let rest := drainOnce fails tiers drained.2
    ((tier, drained.1) :: rest.1, rest.2)

section Fields

variable (s : DeadLetters T) (key : String) (fails : Nat → Bool) (row : DeadLetterEvent T)

@[simp] theorem pop_rows : (s.pop key).rows = s.rows := rfl

@[simp] theorem pop_inserts : (s.pop key).inserts = s.inserts := rfl

@[simp] theorem pop_lists_self : (s.pop key).lists key = (s.lists key).tail :=
  update_self ..

theorem pop_lists_of_ne {other : String} (h : other ≠ key) :
    (s.pop key).lists other = s.lists other := Function.update_of_ne h ..

@[simp] theorem insert_inserts : (s.insert fails row).inserts = s.inserts + 1 := rfl

end Fields

section Rounds

variable {fails : Nat → Bool} {tier key : String} {left : Nat} {s : DeadLetters T}
  {envelope : DeadLetterEnvelope T} {entries : List (Option (DeadLetterEnvelope T))}

theorem drainTier_of_nil (h : s.lists key = []) :
    drainTier fails tier key (left + 1) s = (0, s) := by
  rw [drainTier, h]

theorem drainTier_of_none (h : s.lists key = none :: entries) :
    drainTier fails tier key (left + 1) s = (0, s.pop key) := by
  rw [drainTier, h]

theorem drainTier_of_some (h : s.lists key = some envelope :: entries) :
    (drainTier fails tier key (left + 1) s).2 = (drainTier fails tier key left
      ((s.pop key).insert fails (deadLetterRow tier key envelope))).2 := by
  rw [drainTier, h]

end Rounds

/-! ## What is asked of it -/

structure Letter (T : Type) where
  event : T
  lastAttempt : Int
  lastError : Option String
  correlationId : Option String

end DeadLetters

def DeadLetterEnvelope.letter (e : DeadLetterEnvelope T) : DeadLetters.Letter T :=
  ⟨e.event, e.lastAttempt, e.lastError, e.correlationId⟩

def DeadLetterEvent.letter (row : DeadLetterEvent T) : DeadLetters.Letter T :=
  ⟨row.event, row.lastAttempt, row.lastError, row.correlationId⟩

namespace DeadLetters

def held (s : DeadLetters T) (key : String) : List (Letter T) :=
  (s.lists key).reduceOption.map (·.letter) ++
    (s.rows.filter (·.sourceQueue = key)).map (·.letter)

/-- Every envelope is still in its list or has a row, and none is there twice. -/
def Accounted (s s' : DeadLetters T) : Prop := ∀ key, (s'.held key).Perm (s.held key)

/-! ## The inserts a drain issues -/

/-- What a loop of `left` rounds pops from a list, and what it leaves. -/
def popped : Nat → List (Option (DeadLetterEnvelope T)) →
    List (DeadLetterEnvelope T) × List (Option (DeadLetterEnvelope T))
  | 0, entries => ([], entries)
  | _ + 1, [] => ([], [])
  | _ + 1, none :: entries => ([], entries)
  | left + 1, some envelope :: entries =>
    (envelope :: (popped left entries).1, (popped left entries).2)

/-- The number of inserts: of each list as many as it has envelopes, up to a hundred and up to the
first element that is none. -/
def issued : List (String × String) → (String → List (Option (DeadLetterEnvelope T))) → Nat
  | [], _ => 0
  | (_, key) :: tiers, lists =>
    (popped drainBatch (lists key)).1.length +
      issued tiers (update lists key (popped drainBatch (lists key)).2)

theorem drainTier_issues (fails : Nat → Bool) (tier key : String) (left : Nat)
    (s : DeadLetters T) :
    (drainTier fails tier key left s).2.lists =
        update s.lists key (popped left (s.lists key)).2 ∧
      (drainTier fails tier key left s).2.inserts =
        s.inserts + (popped left (s.lists key)).1.length := by
  induction left generalizing s with
  | zero => exact ⟨(update_eq_self key s.lists).symm, rfl⟩
  | succ left ih =>
    cases hlist : s.lists key with
    | nil =>
      rw [drainTier_of_nil hlist, popped]
      refine ⟨?_, rfl⟩
      rw [← hlist, update_eq_self]
    | cons entry entries =>
      cases entry with
      | none =>
        rw [drainTier_of_none hlist, popped]
        refine ⟨?_, rfl⟩
        change update s.lists key (s.lists key).tail = _
        rw [hlist, List.tail_cons]
      | some envelope =>
        rw [drainTier_of_some hlist, popped]
        have hpop : ((s.pop key).insert fails (deadLetterRow tier key envelope)).lists =
            update s.lists key entries := by
          change update s.lists key (s.lists key).tail = _
          rw [hlist, List.tail_cons]
        obtain ⟨hlists, hinserts⟩ :=
          ih ((s.pop key).insert fails (deadLetterRow tier key envelope))
        rw [hpop, update_self] at hlists hinserts
        refine ⟨hlists.trans (Function.update_idem _ _ _), hinserts.trans ?_⟩
        change s.inserts + 1 + _ = _
        rw [List.length_cons, Nat.add_assoc, Nat.add_comm 1]

theorem drainOnce_issues (fails : Nat → Bool) (tiers : List (String × String))
    (s : DeadLetters T) :
    (drainOnce fails tiers s).2.inserts = s.inserts + issued tiers s.lists := by
  induction tiers generalizing s with
  | nil => rfl
  | cons tier tiers ih =>
    obtain ⟨hlists, hinserts⟩ := drainTier_issues fails tier.1 tier.2 drainBatch s
    rw [drainOnce, issued]
    dsimp only
    rw [ih, hlists, hinserts, Nat.add_assoc]

/-! ## One round -/

section Round

variable {fails : Nat → Bool} {s : DeadLetters T} {tier key : String}
  {entry : Option (DeadLetterEnvelope T)} {entries : List (Option (DeadLetterEnvelope T))}
  {envelope : DeadLetterEnvelope T}

theorem held_pop_of_ne {other : String} (h : other ≠ key) :
    (s.pop key).held other = s.held other := by
  rw [held, held, pop_rows, pop_lists_of_ne s key h]

theorem held_pop_none (hlist : s.lists key = none :: entries) (other : String) :
    (s.pop key).held other = s.held other := by
  by_cases hkey : other = key
  · subst hkey
    rw [held, held, pop_rows, pop_lists_self, hlist, List.tail_cons, List.reduceOption_cons_of_none]
  · exact held_pop_of_ne hkey

theorem held_pop_some (hlist : s.lists key = some envelope :: entries) :
    s.held key = envelope.letter :: (s.pop key).held key := by
  rw [held, held, pop_rows, pop_lists_self, hlist, List.tail_cons,
    List.reduceOption_cons_of_some, List.map_cons, List.cons_append]

theorem held_insert_of_fails (row : DeadLetterEvent T) (h : fails s.inserts = true)
    (other : String) : (s.insert fails row).held other = s.held other := by
  rw [held, held, insert, if_pos h]

theorem held_insert_of_ok (row : DeadLetterEvent T) (h : fails s.inserts = false)
    (other : String) : (s.insert fails row).held other =
      if row.sourceQueue = other then s.held other ++ [row.letter] else s.held other := by
  rw [held, held, insert, if_neg (by rw [h]; exact Bool.false_ne_true), List.filter_append,
    List.map_append]
  by_cases hkey : row.sourceQueue = other
  · rw [if_pos hkey, ← List.append_assoc]
    simp [hkey]
  · rw [if_neg hkey]
    simp [hkey]

theorem held_persist_of_ok (hlist : s.lists key = some envelope :: entries)
    (h : fails s.inserts = false) (other : String) :
    (((s.pop key).insert fails (deadLetterRow tier key envelope)).held other).Perm
      (s.held other) := by
  rw [held_insert_of_ok (s := s.pop key) _ h]
  by_cases hkey : key = other
  · subst hkey
    rw [held_pop_some hlist,
      if_pos (show (deadLetterRow tier key envelope).sourceQueue = key from rfl)]
    exact List.perm_append_singleton _ _
  · rw [if_neg (show ¬ (deadLetterRow tier key envelope).sourceQueue = other from hkey),
      held_pop_of_ne fun heq => hkey heq.symm]

variable (tier) in
theorem length_held_persist_of_fails (hlist : s.lists key = some envelope :: entries)
    (h : fails s.inserts = true) (other : String) :
    (((s.pop key).insert fails (deadLetterRow tier key envelope)).held other).length +
      (if other = key then 1 else 0) = (s.held other).length := by
  rw [held_insert_of_fails (s := s.pop key) _ h]
  by_cases hkey : other = key
  · subst hkey
    rw [if_pos rfl, held_pop_some hlist, List.length_cons]
  · rw [if_neg hkey, held_pop_of_ne hkey, Nat.add_zero]

end Round

/-! ## A tier and all tiers -/

section Drain

variable {fails : Nat → Bool}

variable (fails) in
theorem length_held_drainTier_le (tier key : String) (left : Nat) (s : DeadLetters T)
    (other : String) :
    ((drainTier fails tier key left s).2.held other).length ≤ (s.held other).length := by
  induction left generalizing s with
  | zero => exact Nat.le_refl _
  | succ left ih =>
    cases hlist : s.lists key with
    | nil =>
      exact Nat.le_of_eq (by rw [drainTier_of_nil hlist])
    | cons entry entries =>
      cases entry with
      | none =>
        rw [drainTier_of_none hlist]
        exact Nat.le_of_eq (congrArg _ (held_pop_none hlist other))
      | some envelope =>
        rw [drainTier_of_some hlist]
        refine Nat.le_trans (ih _) ?_
        cases hfail : fails s.inserts with
        | false => exact Nat.le_of_eq (held_persist_of_ok hlist hfail other).length_eq
        | true =>
          have hlost := length_held_persist_of_fails tier hlist hfail other
          omega

theorem accounted_drainTier (tier key : String) (left : Nat) (s : DeadLetters T)
    (h : ∀ i, s.inserts ≤ i → i < (drainTier fails tier key left s).2.inserts → fails i = false) :
    Accounted s (drainTier fails tier key left s).2 := by
  induction left generalizing s with
  | zero => exact fun _ => List.Perm.refl _
  | succ left ih =>
    cases hlist : s.lists key with
    | nil =>
      rw [drainTier_of_nil hlist]
      exact fun _ => List.Perm.refl _
    | cons entry entries =>
      cases entry with
      | none =>
        rw [drainTier_of_none hlist]
        intro other
        exact List.Perm.of_eq (held_pop_none hlist other)
      | some envelope =>
        rw [drainTier_of_some hlist] at h ⊢
        have hissued := (drainTier_issues fails tier key left
          ((s.pop key).insert fails (deadLetterRow tier key envelope))).2
        have hok : fails s.inserts = false := by
          refine h s.inserts (Nat.le_refl _) ?_
          rw [hissued, insert_inserts, pop_inserts]
          omega
        intro other
        refine (ih _ ?_ other).trans (held_persist_of_ok hlist hok other)
        intro i hle hlt
        exact h i (Nat.le_of_succ_le hle) hlt

theorem length_held_drainTier_lt (tier key : String) (left : Nat) (s : DeadLetters T) {i : Nat}
    (hle : s.inserts ≤ i) (hlt : i < (drainTier fails tier key left s).2.inserts)
    (hfail : fails i = true) :
    ((drainTier fails tier key left s).2.held key).length < (s.held key).length := by
  induction left generalizing s with
  | zero => exact absurd hlt (Nat.not_lt_of_le hle)
  | succ left ih =>
    cases hlist : s.lists key with
    | nil =>
      rw [drainTier_of_nil hlist] at hlt
      exact absurd hlt (Nat.not_lt_of_le hle)
    | cons entry entries =>
      cases entry with
      | none =>
        rw [drainTier_of_none hlist] at hlt
        exact absurd hlt (Nat.not_lt_of_le hle)
      | some envelope =>
        rw [drainTier_of_some hlist] at hlt ⊢
        rcases Nat.eq_or_lt_of_le hle with rfl | hlater
        · have hlost := length_held_persist_of_fails tier hlist hfail key
          rw [if_pos rfl] at hlost
          have hrest := length_held_drainTier_le fails tier key left
            ((s.pop key).insert fails (deadLetterRow tier key envelope)) key
          exact Nat.lt_of_le_of_lt hrest (by omega)
        · refine Nat.lt_of_lt_of_le (ih _ hlater hlt) ?_
          cases hfirst : fails s.inserts with
          | false => exact Nat.le_of_eq (held_persist_of_ok hlist hfirst key).length_eq
          | true =>
            have hlost := length_held_persist_of_fails tier hlist hfirst key
            omega

variable (fails) in
theorem length_held_drainOnce_le (tiers : List (String × String)) (s : DeadLetters T)
    (key : String) :
    ((drainOnce fails tiers s).2.held key).length ≤ (s.held key).length := by
  induction tiers generalizing s with
  | nil => exact Nat.le_refl _
  | cons tier tiers ih =>
    exact Nat.le_trans (ih _) (length_held_drainTier_le _ _ _ _ s key)

theorem accounted_iff_fails (tiers : List (String × String)) (s : DeadLetters T) :
    Accounted s (drainOnce fails tiers s).2 ↔
      ∀ i, s.inserts ≤ i → i < (drainOnce fails tiers s).2.inserts → fails i = false := by
  induction tiers generalizing s with
  | nil =>
    refine iff_of_true (fun _ => List.Perm.refl _) ?_
    intro i hle hlt
    exact absurd hlt (Nat.not_lt_of_le hle)
  | cons tier tiers ih =>
    obtain ⟨tier, key⟩ := tier
    change Accounted s (drainOnce fails tiers (drainTier fails tier key drainBatch s).2).2 ↔
      ∀ i, s.inserts ≤ i →
        i < (drainOnce fails tiers (drainTier fails tier key drainBatch s).2).2.inserts →
          fails i = false
    have hlater := drainOnce_issues fails tiers (drainTier fails tier key drainBatch s).2
    have hfirst := (drainTier_issues fails tier key drainBatch s).2
    constructor
    · intro hall
      -- the first tier loses nothing, since the others bring nothing back
      have hnone : ∀ i, s.inserts ≤ i → i < (drainTier fails tier key drainBatch s).2.inserts →
          fails i = false := by
        intro i hle hlt
        by_contra hfail
        rw [Bool.not_eq_false] at hfail
        have hlost := length_held_drainTier_lt tier key drainBatch s hle hlt hfail
        have hrest := length_held_drainOnce_le fails tiers
          (drainTier fails tier key drainBatch s).2 key
        have hsame := (hall key).length_eq
        omega
      have hrest := (ih (drainTier fails tier key drainBatch s).2).mp fun other =>
        (hall other).trans (accounted_drainTier tier key drainBatch s hnone other).symm
      intro i hle hlt
      by_cases hin : i < (drainTier fails tier key drainBatch s).2.inserts
      · exact hnone i hle hin
      · exact hrest i (Nat.le_of_not_lt hin) hlt
    · intro hnone other
      refine ((ih _).mpr ?_ other).trans (accounted_drainTier tier key drainBatch s ?_ other)
      · intro i hle hlt
        exact hnone i (by omega) hlt
      · intro i hle hlt
        exact hnone i hle (Nat.lt_of_lt_of_le hlt (by omega))

end Drain

/-- **The accounting of a drain.** Every envelope that was in a list is still there or has a row of
its own, exactly when no insert of the drain fails. -/
theorem accounted_iff (fails : Nat → Bool) (tiers : List (String × String))
    (lists : String → List (Option (DeadLetterEnvelope T))) (rows : List (DeadLetterEvent T)) :
    Accounted ⟨lists, rows, 0⟩ (drainOnce fails tiers ⟨lists, rows, 0⟩).2 ↔
      ∀ i < issued tiers lists, fails i = false := by
  rw [accounted_iff_fails, drainOnce_issues]
  simp

def tiers : List (String × String) :=
  [("attempt", "tier:attempt:dlq"), ("coin", "tier:coin:dlq"), ("comment", "tier:comment:dlq")]

def oneLetter : String → List (Option (DeadLetterEnvelope String)) := fun key =>
  if key = "tier:coin:dlq" then
    [some { event := "coins", failedAt := "2026-01-01T00:00:00.000Z", lastAttempt := 3
            lastError := some "boom", correlationId := none }]
  else []

/-- The insert fails, and the envelope is gone. -/
theorem letter_is_lost : ¬ Accounted ⟨oneLetter, [], 0⟩
    (drainOnce (fun _ => true) tiers ⟨oneLetter, [], 0⟩).2 := by
  intro h
  have hlength := (h "tier:coin:dlq").length_eq
  revert hlength
  decide +kernel

end DeadLetters

end QuizBackend.Events
