import QuizBackend.Lib.Table

/-!
# Leases

A lease is an entry that lets go of its key when its time is over. A store has one entry for a key
at most, and three operations on it, each with the time at which it is carried out: `grant?` takes a
key that nobody holds, `revoke` and `extend` change the lease whose token they are given, and nothing
else. `Holds` is what a holder counts on; the rules say which operations leave it alone.
-/

namespace QuizBackend.Lib

/-- A key that is held by a token until some time. -/
structure Lease (κ τ : Type) where
  key : κ
  token : τ
  expiresAt : Int

abbrev Leases (κ τ : Type) : Type := Table κ (Lease κ τ) Lease.key

variable {now e ttl : Int}

namespace Leases

variable {κ τ : Type} [DecidableEq κ]

/-- Who holds the key now. -/
def holder (s : Leases κ τ) (now : Int) (k : κ) : Option τ :=
  ((s.find? k).filter fun l => now < l.expiresAt).map (·.token)

/-- `SET key token NX PX ttl`. -/
def grant? (s : Leases κ τ) (now : Int) (k : κ) (t : τ) (ttl : Int) : Option (Leases κ τ) :=
  match s.holder now k with
  | some _ => none
  | none => some (s.upsert ⟨k, t, now + ttl⟩)

section Tokens

variable [DecidableEq τ]

/-- Compare and delete. -/
def revoke (s : Leases κ τ) (now : Int) (k : κ) (t : τ) : Leases κ τ × Bool :=
  if s.holder now k = some t then (s.erase k, true) else (s, false)

/-- Let the lease of the token run for another `ttl`; one that would be over is dropped. -/
def extend (s : Leases κ τ) (now : Int) (k : κ) (t : τ) (ttl : Int) : Leases κ τ × Bool :=
  if s.holder now k = some t then
    (if 0 < ttl then s.upsert ⟨k, t, now + ttl⟩ else s.erase k, true)
  else (s, false)

end Tokens

/-- The token is stored under the key until `e`, over or not. -/
def Holds (s : Leases κ τ) (k : κ) (t : τ) (e : Int) : Prop := s.find? k = some ⟨k, t, e⟩

theorem Holds.holder {s : Leases κ τ} {k : κ} {t : τ} (h : s.Holds k t e) (he : now < e) :
    s.holder now k = some t := by
  rw [Leases.holder, show s.find? k = some ⟨k, t, e⟩ from h]
  simp [he]

theorem Holds.upsert {s : Leases κ τ} {k : κ} {t : τ} (h : s.Holds k t e) {l : Lease κ τ}
    (hk : k ≠ l.key) : Holds (s.upsert l) k t e := by
  rw [Holds, Table.find?_upsert, if_neg hk]
  exact h

theorem Holds.erase {s : Leases κ τ} {k j : κ} {t : τ} (h : s.Holds k t e) (hk : k ≠ j) :
    Holds (s.erase j) k t e := by
  rw [Holds, Table.find?_erase, if_neg hk]
  exact h

theorem holds_upsert (s : Leases κ τ) (k : κ) (t : τ) (e : Int) : Holds (s.upsert ⟨k, t, e⟩) k t e := by
  rw [Holds, Table.find?_upsert, if_pos rfl]

theorem holds_of_grant? {s s' : Leases κ τ} {k : κ} {t : τ} (h : s.grant? now k t ttl = some s') :
    s'.Holds k t (now + ttl) := by
  unfold grant? at h
  split at h
  · cases h
  · cases h
    exact holds_upsert s k t (now + ttl)

/-- **Nobody gets a key that is held.** -/
theorem Holds.grant? {s : Leases κ τ} {k : κ} {t : τ} (h : s.Holds k t e) (he : now < e) (t' : τ)
    (ttl : Int) : s.grant? now k t' ttl = none := by
  rw [Leases.grant?, h.holder he]

theorem Holds.of_grant? {s s' : Leases κ τ} {k j : κ} {t t' : τ} (h : s.Holds k t e) (he : now < e)
    (hs' : s.grant? now j t' ttl = some s') : s'.Holds k t e := by
  by_cases hk : k = j
  · subst hk
    rw [h.grant? he] at hs'
    cases hs'
  · unfold Leases.grant? at hs'
    split at hs'
    · cases hs'
    · cases hs'
      exact h.upsert hk

variable [DecidableEq τ]

/-- **A token that is not the stored one revokes nothing.** -/
theorem revoke_of_ne {s : Leases κ τ} {k : κ} {t : τ} (h : s.holder now k ≠ some t) :
    s.revoke now k t = (s, false) := if_neg h

/-- **A token that is not the stored one extends nothing.** -/
theorem extend_of_ne {s : Leases κ τ} {k : κ} {t : τ} (h : s.holder now k ≠ some t) :
    s.extend now k t ttl = (s, false) := if_neg h

theorem Holds.revoke {s : Leases κ τ} {k j : κ} {t t' : τ} (h : s.Holds k t e) (he : now < e)
    (hne : ¬ (j = k ∧ t' = t)) : (s.revoke now j t').1.Holds k t e := by
  unfold Leases.revoke
  split
  · rename_i hheld
    refine h.erase ?_
    rintro rfl
    rw [h.holder he, Option.some.injEq] at hheld
    exact hne ⟨rfl, hheld.symm⟩
  · exact h

theorem Holds.extend {s : Leases κ τ} {k j : κ} {t t' : τ} (h : s.Holds k t e) (he : now < e)
    (hne : ¬ (j = k ∧ t' = t)) (ttl : Int) : (s.extend now j t' ttl).1.Holds k t e := by
  unfold Leases.extend
  split
  · rename_i hheld
    have hk : k ≠ j := by
      rintro rfl
      rw [h.holder he, Option.some.injEq] at hheld
      exact hne ⟨rfl, hheld.symm⟩
    show Holds (if 0 < ttl then _ else _) k t e
    split
    · exact h.upsert hk
    · exact h.erase hk
  · exact h

theorem Holds.extend_self {s : Leases κ τ} {k : κ} {t : τ} (h : s.Holds k t e) (he : now < e)
    (hpos : 0 < ttl) : (s.extend now k t ttl).1.Holds k t (now + ttl) := by
  rw [Leases.extend, if_pos (h.holder he), if_pos hpos]
  exact holds_upsert s k t (now + ttl)

end Leases

end QuizBackend.Lib
