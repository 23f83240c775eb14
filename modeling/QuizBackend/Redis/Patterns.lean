import Mathlib.Data.List.Induction
import QuizBackend.Lib.Table

/-!
# Invalidation by pattern (`redis.service.ts`)

The client is configured with a key prefix, which it puts before the key arguments of a command and
nowhere else: not before the pattern of a `SCAN`, and it does not take it off the keys that a `SCAN`
returns. `unlinkByPattern` hands these to `UNLINK` as they are, so with a prefix the pattern meets the
stored keys, and the key that goes has the prefix twice.

Time is left out: a key whose time is over is not stored any more. What a pattern matches is up to Redis
(`glob`), and so are the batches of a scan, as far as its documentation leaves them open.
-/

namespace QuizBackend.Redis.Patterns

open Lib
open List (flatten_cons flatten_singleton mem_append mem_filter)

/-! ## The client -/

structure Entry where
  key : String
  value : String

open Entry

abbrev Keyspace : Type := Table String Entry key

structure Client where
  keyPrefix : String

def redisOptionsWithPrefix (keyPrefix : Option String) : Client := ⟨keyPrefix.getD ""⟩

section

variable (c : Client)

def Client.physical (key : String) : String := c.keyPrefix ++ key

def Client.get (db : Keyspace) (key : String) : Option String :=
  (db.find? (c.physical key)).map (·.value)

def Client.set (db : Keyspace) (key value : String) : Keyspace :=
  db.upsert ⟨c.physical key, value⟩

def Client.unlink (db : Keyspace) (keys : List String) : Keyspace × Nat :=
  (db.deleteWhere fun r => decide (r.key ∈ keys.map c.physical),
    db.rows.countP fun r => decide (r.key ∈ keys.map c.physical))

/-! ## The service -/

/-- `get`, in place of which an open breaker answers `null`. -/
def get (breakerOpen : Bool) (db : Keyspace) (key : String) : Option String :=
  if breakerOpen then none else c.get db key

end

structure SetCall where
  key : String
  value : String
  ttlMs : Int
  breakerOpen : Bool := false

/-- `set`, which throws on a `ttlMs` that is not positive. -/
def set (c : Client) (db : Keyspace) (call : SetCall) : Keyspace :=
  if call.ttlMs ≤ 0 || call.breakerOpen then db else c.set db call.key call.value

/-- What `SCAN` returns one time after the other, and the `UNLINK` after each. -/
def unlinkBatches (c : Client) (db : Keyspace) : List (List String) → Keyspace × Nat
  | [] => (db, 0)
  | batch :: batches =>
    let (db, removed) := if 0 < batch.length then c.unlink db batch else (db, 0)
    let (db, deleted) := unlinkBatches c db batches
    (db, removed + deleted)

/-- `unlinkByPattern`, by default with batches of 100; nothing when it throws. The `batches` are what the
scan of its pattern returns, which may be more or fewer at a time. -/
def unlinkByPattern (c : Client) (breakerOpen : Bool) (db : Keyspace) (batches : List (List String))
    (batchSize : Int) : Option (Keyspace × Nat) :=
  if batchSize ≤ 0 then none
  else if breakerOpen then some (db, 0)
  else some (unlinkBatches c db batches)

def filled (c : Client) (calls : List SetCall) : Keyspace := calls.foldl (set c) (Table.empty key)

/-! ## What invalidation promises -/

/-- What the documentation of `SCAN` says of the batches of a full iteration with `MATCH p`: they have
keys of the server that match, and every one of these that is there from the first call to the last. -/
structure FullScan (c : Client) (glob : String → String → Bool) (p : String) (db : Keyspace)
    (batches : List (List String)) : Prop where
  calls : batches ≠ []
  known : ∀ x ∈ batches.flatten, x ∈ db.rows.map key ∧ glob p x
  complete : ∀ x ∈ (unlinkBatches c db batches.dropLast).1.rows.map key, glob p x →
    x ∈ batches.flatten

/-- No stored key that matches is readable any more, and every other one is as it was. -/
def Removes (c : Client) (glob : String → String → Bool) (p : String) (db db' : Keyspace) : Prop :=
  ∀ k, (get c false db k).isSome →
    (glob p k → get c false db' k = none) ∧ (¬ glob p k → get c false db' k = get c false db k)

/-- The prefix takes the pattern to the key: there is none, or every stored key that matches is the
server's name of a stored key that does not. -/
def Upheld (c : Client) (glob : String → String → Bool) (p : String) (db : Keyspace) : Prop :=
  c.keyPrefix = "" ∨ ∀ k, (get c false db k).isSome → glob p k →
    ∃ k', k = c.keyPrefix ++ k' ∧ (get c false db k').isSome ∧ ¬ glob p k'

/-! ## What is unlinked -/

variable {c : Client} {glob : String → String → Bool} {p : String} {db : Keyspace}

variable {k x : String}

theorem physical_inj {k' : String} : c.physical k = c.physical k' ↔ k = k' :=
  String.append_right_inj c.keyPrefix

theorem find?_unlink (keys : List String) (x : String) :
    (c.unlink db keys).1.find? x = if x ∈ keys.map c.physical then none else db.find? x := by
  show (db.deleteWhere _).find? x = _
  rw [Table.find?_deleteWhere]
  cases h : db.find? x with
  | none => exact (ite_self _).symm
  | some r =>
    rw [← Table.key_of_find? h, Option.filter_some]
    by_cases hx : r.key ∈ keys.map c.physical <;> simp [hx]

/-- **The scan unlinks what is under the names it has returned**, with the prefix before them. -/
theorem find?_unlinkBatches (batches : List (List String)) (x : String) :
    (unlinkBatches c db batches).1.find? x =
      if x ∈ batches.flatten.map c.physical then none else db.find? x := by
  induction batches generalizing db with
  | nil => rfl
  | cons batch batches ih =>
    have hbatch : (if 0 < batch.length then c.unlink db batch else (db, 0)).1.find? x =
        if x ∈ batch.map c.physical then none else db.find? x := by
      split
      · exact find?_unlink batch x
      · rename_i hempty
        rw [List.length_pos_iff, not_not] at hempty
        rw [hempty]
        rfl
    show (unlinkBatches c (if 0 < batch.length then c.unlink db batch else (db, 0)).1 batches).1.find? x = _
    rw [ih, hbatch, flatten_cons, List.map_append]
    by_cases hlater : x ∈ batches.flatten.map c.physical
    · rw [if_pos hlater, if_pos (List.mem_append_right _ hlater)]
    · rw [if_neg hlater]
      by_cases hnow : x ∈ batch.map c.physical
      · rw [if_pos hnow, if_pos (List.mem_append_left _ hnow)]
      · rw [if_neg hnow, if_neg fun h => (List.mem_append.mp h).elim hnow hlater]

theorem mem_keys_iff : x ∈ db.rows.map key ↔ (db.find? x).isSome := by
  rw [← not_iff_not, ← Table.find?_eq_none_iff, Bool.not_eq_true, Option.isSome_eq_false_iff,
    Option.isNone_iff_eq_none]

theorem mem_keys_unlinkBatches {batches : List (List String)} :
    x ∈ (unlinkBatches c db batches).1.rows.map key ↔
      x ∈ db.rows.map key ∧ x ∉ batches.flatten.map c.physical := by
  rw [mem_keys_iff, mem_keys_iff, find?_unlinkBatches]
  by_cases h : x ∈ batches.flatten.map c.physical
  · rw [if_pos h]
    exact ⟨fun hx => (by cases hx), fun hx => absurd h hx.2⟩
  · rw [if_neg h]
    exact ⟨fun hx => ⟨hx, h⟩, And.left⟩

theorem get_unlinkBatches (batches : List (List String)) (k : String) :
    get c false (unlinkBatches c db batches).1 k =
      if k ∈ batches.flatten then none else get c false db k := by
  have hmem : c.physical k ∈ batches.flatten.map c.physical ↔ k ∈ batches.flatten := by
    rw [List.mem_map]
    constructor
    · rintro ⟨k', hk', heq⟩
      exact physical_inj.mp heq ▸ hk'
    · exact fun h => ⟨k, h, rfl⟩
  show ((unlinkBatches c db batches).1.find? (c.physical k)).map (·.value) = _
  rw [find?_unlinkBatches]
  by_cases hk : k ∈ batches.flatten
  · rw [if_pos (hmem.mpr hk), if_pos hk]
    rfl
  · rw [if_neg fun h => hk (hmem.mp h), if_neg hk]
    rfl

theorem isSome_get_iff : (get c false db k).isSome ↔ c.physical k ∈ db.rows.map key := by
  rw [mem_keys_iff]
  show ((db.find? (c.physical k)).map _).isSome ↔ _
  rw [Option.isSome_map]

theorem removes_iff {batches : List (List String)} (h : FullScan c glob p db batches) :
    Removes c glob p db (unlinkBatches c db batches).1 ↔
      ∀ k, (get c false db k).isSome → glob p k → k ∈ batches.flatten := by
  constructor
  · intro hremoves k hk hglob
    have hnone := (hremoves k hk).1 hglob
    rw [get_unlinkBatches] at hnone
    by_contra hmem
    rw [if_neg hmem] at hnone
    rw [hnone] at hk
    cases hk
  · intro hreturned k hk
    rw [get_unlinkBatches]
    refine ⟨fun hglob => if_pos (hreturned k hk hglob), ?_⟩
    intro hglob
    exact if_neg fun hmem => hglob (h.known k hmem).2

/-! ## Which scans there are -/

theorem fullScan_single : FullScan c glob p db [(db.rows.map key).filter (glob p)] where
  calls := List.cons_ne_nil _ _
  known x hx := by
    rw [flatten_singleton, mem_filter] at hx
    exact hx
  complete x hx hglob := by
    rw [flatten_singleton, mem_filter]
    exact ⟨hx, hglob⟩

theorem fullScan_first (hk : k ∈ db.rows.map key) (hglob : glob p k) :
    FullScan c glob p db
      [[k], ((unlinkBatches c db [[k]]).1.rows.map key).filter (glob p)] where
  calls := List.cons_ne_nil _ _
  known x hx := by
    rw [flatten_cons, flatten_singleton, mem_append, List.mem_singleton,
      mem_filter, mem_keys_unlinkBatches] at hx
    rcases hx with rfl | ⟨⟨hx, -⟩, hxglob⟩
    · exact ⟨hk, hglob⟩
    · exact ⟨hx, hxglob⟩
  complete x hx hxglob := by
    rw [flatten_cons, flatten_singleton, mem_append, mem_filter]
    exact .inr ⟨hx, hxglob⟩

/-- **With the prefix out of the way, every scan returns what it should.** -/
theorem returned_of_upheld (h : Upheld c glob p db) {batches : List (List String)}
    (hscan : FullScan c glob p db batches) (hk : (get c false db k).isSome) (hglob : glob p k) :
    k ∈ batches.flatten := by
  have hdrop : ∀ x ∈ batches.dropLast.flatten, x ∈ batches.flatten := by
    intro x hx
    obtain ⟨batch, hbatch, hx⟩ := List.mem_flatten.mp hx
    exact List.mem_flatten.mpr ⟨batch, (List.dropLast_sublist batches).subset hbatch, hx⟩
  rw [isSome_get_iff] at hk
  by_contra hmem
  rcases h with hempty | hprefix
  · have hname : c.physical k = k := by rw [Client.physical, hempty, String.empty_append]
    rw [hname] at hk
    refine hmem (hscan.complete k (mem_keys_unlinkBatches.mpr ⟨hk, ?_⟩) hglob)
    intro hunlinked
    obtain ⟨k', hk', heq⟩ := List.mem_map.mp hunlinked
    obtain rfl := physical_inj.mp (heq.trans hname.symm)
    exact hmem (hdrop k' hk')
  · obtain ⟨k', rfl, hk', hne⟩ := hprefix k (isSome_get_iff.mpr hk) hglob
    -- the key that would have taken this one away before the scan got there does not match
    refine hmem (hscan.complete _ (mem_keys_unlinkBatches.mpr ⟨isSome_get_iff.mp hk', ?_⟩) hglob)
    intro hunlinked
    obtain ⟨k'', hk'', heq⟩ := List.mem_map.mp hunlinked
    obtain rfl := physical_inj.mp heq
    exact hne (hscan.known _ (hdrop _ hk'')).2

/-! ## The exact condition -/

theorem physical_ne (hprefixed : c.keyPrefix ≠ "") (k : String) : c.physical k ≠ k := by
  intro h
  have hlength := congrArg String.length h
  rw [Client.physical, String.length_append] at hlength
  have hpos := mt String.length_eq_zero_iff.mp hprefixed
  omega

theorem mem_keys_filled {calls : List SetCall} (hx : x ∈ (filled c calls).rows.map key) :
    ∃ k, x = c.physical k := by
  unfold filled at hx
  induction calls using List.reverseRecOn with
  | nil => cases hx
  | append_singleton calls call ih =>
    rw [List.foldl_append] at hx
    generalize List.foldl (set c) (Table.empty key) calls = db at hx ih
    rw [mem_keys_iff] at hx ih
    change ((set c db call).find? x).isSome at hx
    unfold set at hx
    split at hx
    · exact ih hx
    · rw [Client.set, Table.find?_upsert] at hx
      split at hx
      · rename_i hname
        exact ⟨call.key, hname⟩
      · exact ih hx

/-- **A scan that misses its key.** Where a stored key that matches is no name of a stored key that does
not, some iteration leaves a key behind. -/
theorem upheld_of_returned (hfilled : ∀ x ∈ db.rows.map key, ∃ k, x = c.physical k)
    (h : ∀ batches, FullScan c glob p db batches →
      ∀ k, (get c false db k).isSome → glob p k → k ∈ batches.flatten) : Upheld c glob p db := by
  -- every stored key that matches is the name of a stored key
  have hname : ∀ k, (get c false db k).isSome → glob p k → k ∈ db.rows.map key := by
    intro k hk hglob
    have hmem := h _ fullScan_single k hk hglob
    rw [flatten_singleton, mem_filter] at hmem
    exact hmem.1
  refine or_iff_not_imp_left.mpr fun hprefix => ?_
  intro k hk hglob
  obtain ⟨k', rfl⟩ := hfilled k (hname k hk hglob)
  have hk' := isSome_get_iff.mpr (hname _ hk hglob)
  refine ⟨k', rfl, hk', ?_⟩
  -- otherwise the scan meets `k'` first, and unlinks what it would have found `k` by
  intro hglob'
  have hmem := h _ (fullScan_first (hname k' hk' hglob') hglob') _ hk hglob
  rw [flatten_cons, flatten_singleton, mem_append, List.mem_singleton, mem_filter,
    mem_keys_unlinkBatches] at hmem
  rcases hmem with hself | ⟨⟨-, hgone⟩, -⟩
  · exact physical_ne hprefix k' hself
  · exact hgone (List.mem_map_of_mem (List.mem_singleton_self k'))

/-- **When invalidation by pattern removes what was cached.** After every full scan exactly the stored
keys that match are gone just when the breaker lets the call through and the prefix takes the pattern to
the key, or no stored key matches. -/
theorem unlinkByPattern_removes_iff (glob : String → String → Bool) (keyPrefix : Option String)
    (calls : List SetCall) (p : String) (breakerOpen : Bool) :
    (∀ batches, FullScan (redisOptionsWithPrefix keyPrefix) glob p
        (filled (redisOptionsWithPrefix keyPrefix) calls) batches →
      ∀ db' n, unlinkByPattern (redisOptionsWithPrefix keyPrefix) breakerOpen
        (filled (redisOptionsWithPrefix keyPrefix) calls) batches 100 = some (db', n) →
        Removes (redisOptionsWithPrefix keyPrefix) glob p
          (filled (redisOptionsWithPrefix keyPrefix) calls) db') ↔
      breakerOpen = false ∧
          Upheld (redisOptionsWithPrefix keyPrefix) glob p
            (filled (redisOptionsWithPrefix keyPrefix) calls) ∨
        ∀ k, (get (redisOptionsWithPrefix keyPrefix) false
          (filled (redisOptionsWithPrefix keyPrefix) calls) k).isSome → ¬ glob p k := by
  generalize hc : redisOptionsWithPrefix keyPrefix = c
  have hnames : ∀ x ∈ (filled c calls).rows.map Entry.key, ∃ k, x = c.physical k :=
    fun x hx => mem_keys_filled hx
  generalize filled c calls = db at hnames ⊢
  cases breakerOpen with
  | true =>
    have hkept : Removes c glob p db db ↔ ∀ k, (get c false db k).isSome → ¬ glob p k := by
      constructor
      · intro h k hk hglob
        rw [(h k hk).1 hglob] at hk
        cases hk
      · intro h k hk
        exact ⟨fun hglob => absurd hglob (h k hk), fun _ => rfl⟩
    rw [← hkept]
    constructor
    · intro h
      exact .inr (h _ fullScan_single db 0 rfl)
    · rintro (⟨hopen, -⟩ | h) batches - db' n hrun
      · cases hopen
      · cases hrun
        exact h
  | false =>
    constructor
    · intro h
      refine .inl ⟨rfl, upheld_of_returned hnames ?_⟩
      intro batches hscan
      exact (removes_iff hscan).mp (h batches hscan _ _ rfl)
    · rintro h batches hscan db' n hrun
      obtain rfl : (unlinkBatches c db batches).1 = db' := congrArg Prod.fst (Option.some.inj hrun)
      refine (removes_iff hscan).mpr ?_
      rcases h with ⟨-, hupheld⟩ | hnone
      · exact fun k hk hglob => returned_of_upheld hupheld hscan hk hglob
      · exact fun k hk hglob => absurd hglob (hnone k hk)

/-! The list of quizzes, cached with the prefix `app:` and invalidated by its namespace. -/

def globNamespace (pattern key : String) : Bool :=
  match pattern.toList.getLast? with
  | some '*' => pattern.toList.dropLast.isPrefixOf key.toList
  | _ => pattern == key

/-- **The cached list survives its invalidation**: the scan finds nothing, as the server's keys begin
with the prefix. -/
theorem cached_list_survives :
    ¬ ∀ batches, FullScan (redisOptionsWithPrefix (some "app:")) globNamespace "quiz:list:v1:*"
        (filled (redisOptionsWithPrefix (some "app:")) [⟨"quiz:list:v1:a", "[]", 60000, false⟩]) batches →
      ∀ db' n, unlinkByPattern (redisOptionsWithPrefix (some "app:")) false
        (filled (redisOptionsWithPrefix (some "app:")) [⟨"quiz:list:v1:a", "[]", 60000, false⟩])
        batches 100 = some (db', n) →
        Removes (redisOptionsWithPrefix (some "app:")) globNamespace "quiz:list:v1:*"
          (filled (redisOptionsWithPrefix (some "app:")) [⟨"quiz:list:v1:a", "[]", 60000, false⟩])
          db' := by
  intro h
  have hremoves := (removes_iff fullScan_single).mp (h _ fullScan_single _ _ rfl) "quiz:list:v1:a"
    (by decide +kernel) (by decide +kernel)
  exact absurd hremoves (by decide +kernel)

end QuizBackend.Redis.Patterns
