import Mathlib.Data.List.Basic

/-!
# Maps whose keys are objects

A `Map` compares keys that are objects by identity: two object literals of the same contents are
two keys. An object here is its address and its contents, and a map hands out the addresses, so that
every key it holds was allocated by it (`lt_next`). What has just been allocated is therefore no key
yet (`get_alloc`): an entry is found by the very object it was set with and by no other.
-/

namespace QuizBackend.Lib

/-- An object: an address, and what it holds. -/
structure Ref (κ : Type) where
  address : Nat
  contents : κ

structure IdentityMap (κ ν : Type) where
  entries : List (Ref κ × ν)
  next : Nat
  lt_next : ∀ e ∈ entries, e.1.address < next

namespace IdentityMap

variable {κ ν : Type}

def empty : IdentityMap κ ν := ⟨[], 0, fun _ h => nomatch h⟩

section

variable (m : IdentityMap κ ν)

def alloc (contents : κ) : Ref κ × IdentityMap κ ν :=
  (⟨m.next, contents⟩, ⟨m.entries, m.next + 1, fun e he => Nat.lt_succ_of_lt (m.lt_next e he)⟩)

/-- The same contents at another address find nothing. -/
def get (key : Ref κ) : Option ν :=
  (m.entries.find? fun e => e.1.address = key.address).map (·.2)

def delete (key : Ref κ) : IdentityMap κ ν :=
  ⟨m.entries.filter fun e => e.1.address ≠ key.address, m.next,
    fun e he => m.lt_next e (List.mem_of_mem_filter he)⟩

/-- `Map.prototype.set` with an object literal for a key, which is always a new entry. -/
def setNew (contents : κ) (value : ν) : IdentityMap κ ν :=
  ⟨m.entries ++ [(⟨m.next, contents⟩, value)], m.next + 1, by
    intro e he
    rcases List.mem_append.mp he with he | he
    · exact Nat.lt_succ_of_lt (m.lt_next e he)
    · rw [List.mem_singleton.mp he]
      exact Nat.lt_succ_self _⟩

def deleteWhere (p : ν → Bool) : IdentityMap κ ν :=
  ⟨m.entries.filter fun e => !p e.2, m.next, fun e he => m.lt_next e (List.mem_of_mem_filter he)⟩

/-- **A new object is no key.** -/
theorem get_alloc (contents : κ) :
    (m.alloc contents).2.get (m.alloc contents).1 = none := by
  have hnone : m.entries.find? (fun e => e.1.address = m.next) = none := by
    refine List.find?_eq_none.mpr ?_
    intro e he
    have hlt := m.lt_next e he
    simp only [decide_eq_true_eq]
    omega
  show (m.entries.find? fun e => e.1.address = m.next).map (·.2) = none
  rw [hnone, Option.map_none]

end

end IdentityMap

end QuizBackend.Lib
