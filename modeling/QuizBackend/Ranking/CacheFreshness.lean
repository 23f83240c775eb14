import QuizBackend.Ranking.Leaderboard

/-!
# Freshness of the leaderboard cache

A read that begins after the bump of a commit reads a version that was set by that bump or a later
one, and what it finds under that version was computed by somebody who had read the version too,
and asked the database afterwards. So nothing under a version is older than the commits announced
when the counter took that value (`Store.level`), and slow readers, who store under the version they
have read, do no harm. Two things break this:

* **The counter expires.** It is given a day when `INCR` creates it, and `INCR` does not extend that;
  then it reads as `0` and counts from `1` again. What is still stored under such a number, or about
  to be stored by a reader who has read it, is from before.
* **`nextRankXp` has no version.** It lives for an hour whatever is committed, and goes into positions
  that do carry one.

`reads_fresh_while_upheld` says that these are all: as long as no number is taken up again while it is
in use, and no `nextRankXp` is found that is older than the position it goes into is to be, every read
is fresh. The programs are proved against a protocol (`freshness`) in which a version stands for the
level it had when it was read; the store is the owner of that protocol.
-/

namespace QuizBackend.Ranking.Leaderboard

open Lib Safe Store
open Ranking.Recalculation (RankingPeriod allPeriods mem_allPeriods)
open List (Subset mem_cons_self not_mem_nil replicate)

/-! ## The protocol of the readers -/

/-- What a read of one period knows: the versions it has read, a commit that had been announced when
it read the last of them, and how recent its position has to be. -/
structure Knows where
  versions : List Nat
  bar : Nat
  positionLevel : Nat

instance : Preorder Knows where
  le a b := a.versions ⊆ b.versions ∧ a.bar ≤ b.bar ∧ a.positionLevel ≤ b.positionLevel
  le_refl a := ⟨Subset.refl _, Nat.le_refl _, Nat.le_refl _⟩
  le_trans a b c hab hbc :=
    ⟨Subset.trans hab.1 hbc.1, Nat.le_trans hab.2.1 hbc.2.1, Nat.le_trans hab.2.2 hbc.2.2⟩

def InHand (period : RankingPeriod) (k : Knows) (key : CacheKey) : Prop :=
  ∀ p v, key.version? = some (p, v) → p = period ∧ v ∈ k.versions

def threshold (level : Nat → Nat) (k : Knows) (key : CacheKey) : Nat :=
  match key.version? with
  | some (_, v) => level v
  | none => k.positionLevel

def afterGet (level : Nat → Nat) (k : Knows) : CacheKey → Knows
  | .position _ _ v => { k with positionLevel := max k.positionLevel (level v) }
  | _ => k

theorem le_afterGet (level : Nat → Nat) (k : Knows) (key : CacheKey) :
    k ≤ afterGet level k key := by
  cases key with
  | position userId p v => exact ⟨Subset.refl _, Nat.le_refl _, Nat.le_max_left _ _⟩
  | _ => exact le_refl k

theorem afterGet_mono {level : Nat → Nat} {k k' : Knows} (h : k ≤ k') (key : CacheKey) :
    afterGet level k key ≤ afterGet level k' key := by
  cases key with
  | position userId p v =>
    refine ⟨h.1, h.2.1, ?_⟩
    have hle := h.2.2
    show max k.positionLevel (level v) ≤ max k'.positionLevel (level v)
    omega
  | _ => exact h

def freshness (period : RankingPeriod) (level : Nat → Nat) :
    Protocol Command Command.Reply Knows where
  may k
    | .getVersion p => p = period
    | .get key => InHand period k key
    | .set key value _ => InHand period k key ∧
        ∀ p v, key.version? = some (p, v) → level v ≤ value.asOf
    | .lock _ | .unlock _ | .query => True
  sees k
    | .getVersion _, v => k.bar ≤ level v
    | .get key, reply => ∀ x, reply = some x → threshold level k key ≤ x.asOf
    | .query, x => k.bar ≤ x.asOf
    | .set _ _ _, _ | .lock _, _ | .unlock _, _ => True
  learns k
    | .getVersion _, v => { k with versions := v :: k.versions, bar := max k.bar (level v) }
    | .get key, _ => afterGet level k key
    | .set _ _ _, _ | .lock _, _ | .unlock _, _ | .query, _ => k
  may_mono := by
    intro k k' c hle h
    cases c with
    | getVersion p => exact h
    | get key => exact fun p v hv => ⟨(h p v hv).1, hle.1 (h p v hv).2⟩
    | set key value ttl => exact ⟨fun p v hv => ⟨(h.1 p v hv).1, hle.1 (h.1 p v hv).2⟩, h.2⟩
    | lock key => trivial
    | unlock key => trivial
    | query => trivial
  sees_anti := by
    intro k k' c r hle h
    cases c with
    | getVersion p => exact Nat.le_trans hle.2.1 h
    | get key =>
      intro x hx
      refine Nat.le_trans ?_ (h x hx)
      unfold threshold
      split
      · exact Nat.le_refl _
      · exact hle.2.2
    | set key value ttl => trivial
    | lock key => trivial
    | unlock key => trivial
    | query => exact Nat.le_trans hle.2.1 h
  learns_mono := by
    intro k k' c r hle
    cases c with
    | getVersion p =>
      refine ⟨List.cons_subset_cons r hle.1, ?_, hle.2.2⟩
      have hbar := hle.2.1
      show max k.bar (level r) ≤ max k'.bar (level r)
      omega
    | get key => exact afterGet_mono hle key
    | set key value ttl => exact hle
    | lock key => exact hle
    | unlock key => exact hle
    | query => exact hle
  le_learns := by
    intro k c r _
    cases c with
    | getVersion p => exact ⟨List.subset_cons_self _ _, Nat.le_max_left _ _, Nat.le_refl _⟩
    | get key => exact le_afterGet level k key
    | set key value ttl => exact le_refl k
    | lock key => exact le_refl k
    | unlock key => exact le_refl k
    | query => exact le_refl k

/-! ## The programs keep to it -/

variable {key : CacheKey} {st : Store} {c : Command} {s : State}

section Programs

variable {period : RankingPeriod} {level : Nat → Nat} {k : Knows} {n : Nat}

theorem safe_query {α : Type} (f : Database → α) (hn : n ≤ k.bar) :
    Safe (freshness period level) k (query f) fun x => n ≤ x.asOf :=
  bind (send trivial fun _ hx _ _ => Nat.le_trans hn hx)

theorem safe_awaitOther (hhand : InHand period k key)
    (hn : ∀ k', k ≤ k' → n ≤ threshold level k' key) (retries : Nat) :
    Safe (freshness period level) k (awaitOther key retries)
      fun reply => ∀ x, reply = some x → n ≤ x.asOf := by
  induction retries generalizing k with
  | zero => exact fun x hx => nomatch hx
  | succ retries ih =>
    refine bind (send hhand fun reply hreply k' hk' => ?_)
    cases reply with
    | some x =>
      intro y hy
      cases hy
      exact Nat.le_trans (hn k (le_refl k)) (hreply x rfl)
    | none =>
      refine ih ?_ fun k'' hk'' => hn k'' (le_trans hk' hk'')
      exact fun p v hv => ⟨(hhand p v hv).1, hk'.1 (hhand p v hv).2⟩

theorem InHand.mono {k' : Knows} (h : InHand period k key) (hle : k ≤ k') :
    InHand period k' key := fun p v hv => ⟨(h p v hv).1, hle.1 (h p v hv).2⟩

/-- **A cached value is as recent as its key promises and its fetcher makes it.** -/
theorem safe_getOrSet {ttlMs : Int} {fetcher : Program (Stamped key.Value)}
    (hhand : InHand period k key) (hn : ∀ k', k ≤ k' → n ≤ threshold level k' key)
    (hset : ∀ p v, key.version? = some (p, v) → level v ≤ n)
    (hfetch : ∀ k', afterGet level k key ≤ k' → Safe (freshness period level) k' fetcher fun x => n ≤ x.asOf) :
    Safe (freshness period level) k (getOrSetWithStampedeProtection key ttlMs fetcher)
      fun x => n ≤ x.asOf := by
  have hle : k ≤ afterGet level k key := le_afterGet level k key
  -- whoever computes stores what the fetcher has found
  have hstore : ∀ k', k ≤ k' → ∀ x : Stamped key.Value, n ≤ x.asOf →
      (freshness period level).may k' (.set key x ttlMs) := fun k' hk' x hx =>
    ⟨hhand.mono hk', fun p v hv => Nat.le_trans (hset p v hv) hx⟩
  refine send_bind hhand fun reply hreply => ?_
  cases reply with
  | some x => exact Nat.le_trans (hn k (le_refl k)) (hreply x rfl)
  | none =>
    refine send_bind trivial fun locked _ => ?_
    cases locked with
    | true =>
      refine bind ((hfetch _ (le_refl _)).imp fun x hx k' hk' => ?_)
      refine send_bind (hstore k' (le_trans hle hk') x hx) fun _ _ => ?_
      exact send_bind trivial fun _ _ => hx
    | false =>
      refine bind ((safe_awaitOther (hhand.mono hle)
        (fun k' hk' => hn k' (le_trans hle hk')) maxRetries).imp fun retried hretried k' hk' => ?_)
      cases retried with
      | some x => exact hretried x rfl
      | none =>
        refine bind ((hfetch k' hk').imp fun x hx k'' hk'' => ?_)
        exact send_bind (hstore k'' (le_trans hle (le_trans hk' hk'')) x hx) fun _ _ => hx

theorem safe_getVersion_bind {α : Type} {f : Nat → Program α} {Q : α → Prop}
    (h : ∀ v, k.bar ≤ level v →
      Safe (freshness period level) ⟨v :: k.versions, max k.bar (level v), k.positionLevel⟩ (f v) Q) :
    Safe (freshness period level) k (getVersion period >>= f) Q :=
  send_bind rfl h

section

variable (hn : n ≤ k.bar)
include hn

theorem safe_getCachedTotalParticipants :
    Safe (freshness period level) k (getCachedTotalParticipants period) fun x => n ≤ x.asOf := by
  refine safe_getVersion_bind fun v hv => ?_
  refine (safe_getOrSet (n := level v) ?_ (fun _ _ => Nat.le_refl _) ?_ ?_).imp
    fun x hx => Nat.le_trans (Nat.le_trans hn hv) hx
  · rintro p w ⟨⟩
    exact ⟨rfl, mem_cons_self ..⟩
  · rintro p w ⟨⟩
    exact Nat.le_refl _
  · exact fun k' hk' => safe_query _ (Nat.le_trans (Nat.le_max_right _ _) hk'.2.1)

theorem safe_getCachedNextRankXp (hpos : n ≤ k.positionLevel) (rank : Nat) :
    Safe (freshness period level) k (getCachedNextRankXp period rank) fun x => n ≤ x.asOf := by
  refine safe_getOrSet ?_ (fun k' hk' => Nat.le_trans hpos hk'.2.2) ?_ ?_
  · exact fun p v hv => nomatch hv
  · exact fun p v hv => nomatch hv
  · exact fun k' hk' => safe_query _ (Nat.le_trans hn hk'.2.1)

theorem safe_getUserRank (userId : String) :
    Safe (freshness period level) k (getUserRank userId period) fun x => n ≤ x.asOf := by
  refine bind ((safe_query _ hn).imp fun userRow hrow k₁ hk₁ => ?_)
  cases userRow.value with
  | none => exact hrow
  | some row =>
    show Safe _ _ (if _ then _ else _) _
    split
    · exact hrow
    · refine bind ((safe_query _ (Nat.le_trans hn hk₁.2.1)).imp fun ahead hahead _ _ => ?_)
      exact Nat.le_min.mpr ⟨hrow, hahead⟩

theorem safe_fetchPosition (hpos : n ≤ k.positionLevel) (userId : String) :
    Safe (freshness period level) k (fetchPosition userId period) fun x => n ≤ x.asOf := by
  refine bind ((safe_query _ hn).imp fun ranking hranking k₁ hk₁ => ?_)
  cases ranking.value with
  | none => exact hranking
  | some row =>
    show Safe _ _ (if _ then _ else _) _
    split
    · exact hranking
    · refine bind ((safe_getUserRank (Nat.le_trans hn hk₁.2.1) userId).imp
        fun rank hrank k₂ hk₂ => ?_)
      cases rank.value with
      | none => exact Nat.le_min.mpr ⟨hranking, hrank⟩
      | some r =>
        have hle := le_trans hk₁ hk₂
        have hn₂ : n ≤ k₂.bar := Nat.le_trans hn hle.2.1
        refine bind ((all (safe_query _ hn₂) (all
          (safe_getCachedTotalParticipants hn₂)
          (safe_getCachedNextRankXp hn₂ (Nat.le_trans hpos hle.2.2) r))).imp ?_)
        rintro ⟨snapshots, total, nextRankXp⟩ ⟨hsnapshots, htotal, hnext⟩ _ _
        exact Nat.le_min.mpr ⟨Nat.le_min.mpr ⟨hranking, hrank⟩,
          Nat.le_min.mpr ⟨hsnapshots, Nat.le_min.mpr ⟨htotal, hnext⟩⟩⟩

theorem safe_getUserPosition (userId : String) :
    Safe (freshness period level) k (getUserPosition userId period) fun x => n ≤ x.asOf := by
  refine safe_getVersion_bind fun v hv => ?_
  refine (safe_getOrSet (n := level v) ?_ (fun _ _ => Nat.le_refl _) ?_ ?_).imp
    fun x hx => Nat.le_trans (Nat.le_trans hn hv) hx
  · rintro p w ⟨⟩
    exact ⟨rfl, mem_cons_self ..⟩
  · rintro p w ⟨⟩
    exact Nat.le_refl _
  · exact fun k' hk' => safe_fetchPosition (Nat.le_trans (Nat.le_max_right _ _) hk'.2.1)
      (Nat.le_trans (Nat.le_max_right _ _) hk'.2.2) userId

theorem safe_fetchLeaderboard (limit offset : Nat) :
    Safe (freshness period level) k (fetchLeaderboard period limit offset)
      fun x => n ≤ x.asOf := by
  refine bind ((safe_query _ hn).imp fun entries hentries k₁ hk₁ => ?_)
  refine bind ((safe_getCachedTotalParticipants (Nat.le_trans hn hk₁.2.1)).imp
    fun total htotal _ _ => ?_)
  exact Nat.le_min.mpr ⟨hentries, htotal⟩

theorem safe_getGlobalLeaderboard (limit offset : Nat)
    (currentUserId : Option String) :
    Safe (freshness period level) k (getGlobalLeaderboard period limit offset currentUserId)
      fun x => n ≤ x.asOf := by
  refine safe_getVersion_bind fun v hv => ?_
  have hn' : n ≤ level v := Nat.le_trans hn hv
  refine bind ((safe_getOrSet (n := level v) ?_ (fun _ _ => Nat.le_refl _) ?_ ?_).imp
    fun payload hpayload k₁ hk₁ => ?_)
  · rintro p w ⟨⟩
    exact ⟨rfl, mem_cons_self ..⟩
  · rintro p w ⟨⟩
    exact Nat.le_refl _
  · exact fun k' hk' =>
      safe_fetchLeaderboard (Nat.le_trans (Nat.le_max_right _ _) hk'.2.1) limit offset
  · cases currentUserId with
    | none => exact Nat.le_trans hn' hpayload
    | some userId =>
      have hbar : n ≤ k₁.bar :=
        Nat.le_trans hn' (Nat.le_trans (Nat.le_max_right _ _) hk₁.2.1)
      refine bind ((safe_getUserPosition hbar userId).imp fun position hposition _ _ => ?_)
      exact Nat.le_min.mpr ⟨Nat.le_trans hn' hpayload, hposition⟩

end

/-- **Every read keeps to the protocol** and answers no older than what it knew to be announced. -/
theorem safe_program (request : Request) (k : Knows) :
    Safe (freshness request.period level) k request.program fun x => k.bar ≤ x.asOf := by
  cases request with
  | globalLeaderboard p limit offset currentUserId =>
    exact bind ((safe_getGlobalLeaderboard (Nat.le_refl _) limit offset currentUserId).imp
      fun response hresponse _ _ => hresponse)
  | userPosition userId p =>
    exact bind ((safe_getUserPosition (Nat.le_refl _) userId).imp
      fun position hposition _ _ => hposition)

end Programs

/-! ## The store keeps its side -/

/-- What is announced has been committed, a version stands for what was announced when it was set,
and nothing stored under a version is older. -/
structure StoreOk (st : Store) : Prop where
  announced_le : ∀ p, st.announced p ≤ st.commits
  level_le : ∀ p v, st.level p v ≤ st.announced p
  level_version : ∀ p, st.level p (st.version p) = st.announced p
  cached : ∀ e ∈ st.cache, st.now < e.expiresAt → ∀ p v, e.key.version? = some (p, v) →
    st.level p v ≤ e.value.asOf

/-- A read in progress keeps to the protocol, whatever versions it has not read yet stand for. -/
def ReadOk (st : Store) (read : Read) : Prop :=
  ∃ bar, bar ≤ st.announced read.period ∧
    ∀ level : Nat → Nat, (∀ v ∈ read.versions, level v = st.level read.period v) →
      Safe (freshness read.period level) ⟨read.versions, bar, read.positionLevel⟩ read.program
        fun x => read.floor ≤ x.asOf

theorem ReadOk.of_level {st' : Store} {read : Read} (h : ReadOk st read)
    (hann : st.announced read.period ≤ st'.announced read.period)
    (hlevel : ∀ v ∈ read.versions, st'.level read.period v = st.level read.period v) :
    ReadOk st' read := by
  obtain ⟨bar, hbar, hsafe⟩ := h
  refine ⟨bar, Nat.le_trans hbar hann, fun level hagree => hsafe level fun v hv => ?_⟩
  rw [hagree v hv, hlevel v hv]

theorem ReadOk.of_done {read : Read} (h : ReadOk st read) {x : Stamped Response}
    (hdone : read.program.done? = some x) : read.floor ≤ x.asOf := by
  obtain ⟨bar, -, hsafe⟩ := h
  exact (hsafe (st.level read.period) fun _ _ => rfl).of_done hdone

theorem lookup_eq_some {x : Stamped key.Value} (h : st.lookup key = some x) :
    ∃ e ∈ st.cache, e.key = key ∧ st.now < e.expiresAt ∧ e.value.asOf = x.asOf := by
  obtain ⟨e, he, hx⟩ := List.exists_of_findSome?_eq_some h
  split at hx
  · rename_i hlive
    obtain ⟨hkey, hnow⟩ := hlive
    subst hkey
    cases hx
    exact ⟨e, he, rfl, hnow, rfl⟩
  · cases hx

theorem StoreOk.cached_lookup (h : StoreOk st) {x : Stamped key.Value} (hx : st.lookup key = some x)
    {p : RankingPeriod} {v : Nat} (hv : key.version? = some (p, v)) : st.level p v ≤ x.asOf := by
  obtain ⟨e, he, rfl, hlive, hasOf⟩ := lookup_eq_some hx
  rw [← hasOf]
  exact h.cached e he hlive p v hv

/-! ## One command -/

/-- A lookup of `nextRankXp` finds nothing older than the position it goes into is to be. -/
def Read.findsFresh (read : Read) (st : Store) : Command → Bool
  | .get (.nextRankXp p rank) =>
    (st.lookup (.nextRankXp p rank)).all fun x => read.positionLevel ≤ x.asOf
  | _ => true

theorem perform_frame (st : Store) (c : Command) :
    (st.perform c).2.announced = st.announced ∧ (st.perform c).2.level = st.level := by
  cases c with
  | lock key =>
    simp only [perform]
    split <;> exact ⟨rfl, rfl⟩
  | _ => exact ⟨rfl, rfl⟩

theorem StoreOk.perform (h : StoreOk st) {period : RankingPeriod} {k : Knows}
    (hmay : (freshness period (st.level period)).may k c) : StoreOk (st.perform c).2 := by
  cases c with
  | lock key =>
    simp only [perform]
    split <;> exact ⟨h.announced_le, h.level_le, h.level_version, h.cached⟩
  | set key value ttl =>
    refine ⟨h.announced_le, h.level_le, h.level_version, ?_⟩
    intro e he hlive p v hv
    rcases List.mem_cons.mp he with rfl | he
    · obtain ⟨hhand, hset⟩ := hmay
      obtain ⟨rfl, -⟩ := hhand p v hv
      exact hset p v hv
    · exact h.cached e (List.mem_of_mem_filter he) hlive p v hv
  | _ => exact ⟨h.announced_le, h.level_le, h.level_version, h.cached⟩

/-- **The replies are what the protocol promises.** -/
theorem StoreOk.sees (h : StoreOk st) {read : Read} {bar : Nat} {level : Nat → Nat}
    (hbar : bar ≤ st.announced read.period)
    (hmay : (freshness read.period level).may ⟨read.versions, bar, read.positionLevel⟩ c)
    (hagree : ∀ v ∈ (read.note st c (st.perform c).1).versions, level v = st.level read.period v)
    (hfresh : read.findsFresh st c = true) :
    (freshness read.period level).sees ⟨read.versions, bar, read.positionLevel⟩ c
      (st.perform c).1 := by
  cases c with
  | getVersion p =>
    obtain rfl : p = read.period := hmay
    have hlevel : level (st.version read.period) = st.level read.period (st.version read.period) :=
      hagree _ (mem_cons_self ..)
    show bar ≤ level (st.version read.period)
    rw [hlevel, h.level_version]
    exact hbar
  | get key =>
    intro x hx
    cases key with
    | nextRankXp p rank =>
      have hx' : st.lookup (.nextRankXp p rank) = some x := hx
      show read.positionLevel ≤ x.asOf
      simpa [Read.findsFresh, hx'] using hfresh
    | _ =>
      obtain ⟨rfl, hmem⟩ := hmay _ _ rfl
      exact Nat.le_trans (Nat.le_of_eq (hagree _ hmem)) (h.cached_lookup hx rfl)
  | query => exact Nat.le_trans hbar (h.announced_le read.period)
  | set key value ttl => trivial
  | lock key => trivial
  | unlock key => trivial

theorem Read.note_frame (read : Read) (st : Store) (c : Command) (reply : c.Reply) :
    (read.note st c reply).period = read.period ∧ (read.note st c reply).floor = read.floor ∧
      read.versions ⊆ (read.note st c reply).versions := by
  cases c with
  | getVersion p => exact ⟨rfl, rfl, List.subset_cons_self _ _⟩
  | get key => cases key <;> exact ⟨rfl, rfl, Subset.refl _⟩
  | _ => exact ⟨rfl, rfl, Subset.refl _⟩

theorem learns_le_note (h : StoreOk st) {read : Read} {bar : Nat} {level : Nat → Nat}
    (hbar : bar ≤ st.announced read.period)
    (hmay : (freshness read.period level).may ⟨read.versions, bar, read.positionLevel⟩ c)
    (hagree : ∀ v ∈ (read.note st c (st.perform c).1).versions, level v = st.level read.period v) :
    (freshness read.period level).learns ⟨read.versions, bar, read.positionLevel⟩ c
        (st.perform c).1
      ≤ ⟨(read.note st c (st.perform c).1).versions, st.announced read.period,
        (read.note st c (st.perform c).1).positionLevel⟩ := by
  cases c with
  | getVersion p =>
    obtain rfl : p = read.period := hmay
    have hlevel : level (st.version read.period) = st.announced read.period :=
      (hagree _ (mem_cons_self ..)).trans (h.level_version read.period)
    refine ⟨Subset.refl _, ?_, Nat.le_refl _⟩
    show max bar (level (st.version read.period)) ≤ st.announced read.period
    omega
  | get key =>
    cases key with
    | position userId p v =>
      obtain ⟨-, hmem⟩ := hmay _ _ rfl
      refine ⟨Subset.refl _, hbar, ?_⟩
      show max read.positionLevel (level v) ≤ max read.positionLevel (st.level read.period v)
      rw [hagree v hmem]
    | _ => exact ⟨Subset.refl _, hbar, Nat.le_refl _⟩
  | _ => exact ⟨Subset.refl _, hbar, Nat.le_refl _⟩

/-- **One command of a read**: the store stays in order and the read goes on as it should. -/
theorem ReadOk.perform {read : Read} (h : ReadOk st read) (hst : StoreOk st) {path : List Bool}
    {rest : c.Reply → Program (Stamped Response)} (hnext : read.program.next path = some ⟨c, rest⟩)
    (hfresh : read.findsFresh st c = true) :
    StoreOk (st.perform c).2 ∧ ReadOk (st.perform c).2
      { read.note st c (st.perform c).1 with program := rest (st.perform c).1 } := by
  obtain ⟨bar, hbar, hsafe⟩ := h
  obtain ⟨hann, hlevel⟩ := perform_frame st c
  obtain ⟨hperiod, hfloor, hsub⟩ := read.note_frame st c (st.perform c).1
  refine ⟨hst.perform ((hsafe (st.level read.period) fun _ _ => rfl).next hnext).1, ?_⟩
  refine ⟨st.announced read.period, ?_, ?_⟩
  · show _ ≤ (st.perform c).2.announced (read.note st c (st.perform c).1).period
    rw [hann, hperiod]
  · show ∀ level : Nat → Nat, (∀ v ∈ (read.note st c (st.perform c).1).versions,
        level v = (st.perform c).2.level (read.note st c (st.perform c).1).period v) →
      Safe (freshness (read.note st c (st.perform c).1).period level)
        ⟨(read.note st c (st.perform c).1).versions, st.announced read.period,
          (read.note st c (st.perform c).1).positionLevel⟩ (rest (st.perform c).1)
        fun x => (read.note st c (st.perform c).1).floor ≤ x.asOf
    rw [hperiod, hfloor, hlevel]
    intro level hagree
    obtain ⟨hmay, hrest⟩ := (hsafe level fun v hv => hagree v (hsub hv)).next hnext
    exact (hrest _ (hst.sees hbar hmay hagree hfresh)).mono
      (learns_le_note hst hbar hmay hagree)

/-! ## Bumps and expiry -/

/-- Nothing is stored under the version at `now`, and no read in progress has read it. -/
def Unused (s : State) (now : Int) (period : RankingPeriod) (version : Nat) : Prop :=
  (∀ e ∈ s.store.cache, now < e.expiresAt → e.key.version? ≠ some (period, version)) ∧
    ∀ read ∈ s.reads, read.program.done?.isNone = true → read.period = period →
      version ∉ read.versions

instance (s : State) (now : Int) (period : RankingPeriod) (version : Nat) :
    Decidable (Unused s now period version) :=
  inferInstanceAs (Decidable ((∀ e ∈ s.store.cache, _) ∧ ∀ read ∈ s.reads, _))

theorem version_bumpVersion (st : Store) (period : RankingPeriod) (commit : Nat) (p : RankingPeriod) :
    (st.bumpVersion period commit).version p =
      if p = period then (st.incrementCounter period).value else st.version p := by
  have hlive : st.now < (st.incrementCounter period).expiresAt := by
    unfold incrementCounter
    split
    · split
      · assumption
      · show st.now < st.now + rankingVersionTtlSeconds * 1000
        unfold rankingVersionTtlSeconds
        omega
    · show st.now < st.now + rankingVersionTtlSeconds * 1000
      unfold rankingVersionTtlSeconds
      omega
  by_cases hp : p = period
  · subst hp
    simp [version, versionAt, bumpVersion, hlive]
  · simp only [version, versionAt, bumpVersion, if_neg hp]
    rfl

theorem level_bumpVersion (st : Store) (period : RankingPeriod) (commit : Nat)
    (p : RankingPeriod) (v : Nat) :
    (st.bumpVersion period commit).level p v =
      if p = period ∧ v = (st.incrementCounter period).value then
        max (st.announced period) commit
      else st.level p v := rfl

theorem announced_bumpVersion (st : Store) (period : RankingPeriod) (commit : Nat)
    (p : RankingPeriod) :
    (st.bumpVersion period commit).announced p =
      if p = period then max (st.announced period) commit else st.announced p := rfl

/-- **A bump to a number that is not in use.** -/
theorem StoreOk.bumpVersion (h : StoreOk s.store) {period : RankingPeriod} {commit : Nat}
    (hcommit : commit ≤ s.store.commits)
    (hunused : Unused s s.store.now period (s.store.incrementCounter period).value) :
    StoreOk (s.store.bumpVersion period commit) := by
  refine ⟨fun p => ?_, fun p v => ?_, fun p => ?_, fun e he hlive p v hv => ?_⟩
  · rw [announced_bumpVersion]
    split
    · exact Nat.max_le.mpr ⟨h.announced_le period, hcommit⟩
    · exact h.announced_le p
  · have hle := h.level_le p v
    rw [level_bumpVersion, announced_bumpVersion]
    by_cases hp : p = period
    · subst hp
      rw [if_pos rfl]
      split <;> omega
    · rw [if_neg fun hc => hp hc.1, if_neg hp]
      exact hle
  · rw [level_bumpVersion, announced_bumpVersion, version_bumpVersion]
    by_cases hp : p = period
    · subst hp
      rw [if_pos rfl, if_pos rfl, if_pos ⟨rfl, rfl⟩]
    · rw [if_neg hp, if_neg hp, if_neg fun hc => hp hc.1]
      exact h.level_version p
  · rw [level_bumpVersion, if_neg]
    · exact h.cached e he hlive p v hv
    · rintro ⟨rfl, rfl⟩
      exact hunused.1 e he hlive hv

theorem versionAt_advance {now : Int} (hle : st.now ≤ now) (p : RankingPeriod) :
    st.versionAt now p = if st.Expires now p then 0 else st.version p := by
  by_cases hexp : st.Expires now p
  · rw [if_pos hexp]
    unfold Expires version versionAt at hexp
    unfold versionAt
    cases hcounter : st.counters p with
    | none => rfl
    | some counter =>
      simp only [hcounter] at hexp ⊢
      by_cases hlive : now < counter.expiresAt
      · rw [if_pos hlive, if_pos (by omega)] at hexp
        exact absurd rfl hexp
      · rw [if_neg hlive]
  · rw [if_neg hexp]
    exact not_not.mp hexp

/-- **Time goes on**, and the counters that expire fall back to a number that is not in use. -/
theorem StoreOk.advance (h : StoreOk s.store) {now : Int} (hle : s.store.now ≤ now)
    (hunused : ∀ p, s.store.Expires now p → Unused s now p 0) : StoreOk (s.store.advance now) := by
  have hlevel : ∀ p v, (s.store.advance now).level p v =
      if s.store.Expires now p ∧ v = 0 then s.store.announced p else s.store.level p v :=
    fun _ _ => rfl
  refine ⟨h.announced_le, fun p v => ?_, fun p => ?_, fun e he hlive p v hv => ?_⟩
  · rw [hlevel]
    split
    · exact Nat.le_refl _
    · exact h.level_le p v
  · have hversion : (s.store.advance now).version p
        = if s.store.Expires now p then 0 else s.store.version p := versionAt_advance hle p
    rw [hlevel, hversion]
    by_cases hexp : s.store.Expires now p
    · rw [if_pos hexp, if_pos ⟨hexp, rfl⟩]
      rfl
    · rw [if_neg hexp, if_neg fun hc => hexp hc.1]
      exact h.level_version p
  · rw [hlevel, if_neg]
    · exact h.cached e he (lt_of_le_of_lt hle hlive) p v hv
    · rintro ⟨hexp, rfl⟩
      exact (hunused p hexp).1 e he hlive hv

/-! ## Whole runs -/

/-- No version is taken up while it is in use, and no lookup finds a `nextRankXp` that is too old for
the position it goes into. -/
def Upheld (s : State) : Action → Prop
  | .bump _ period | .otherBump period =>
    Unused s s.store.now period (s.store.incrementCounter period).value
  | .wait ms => ∀ p ∈ allPeriods, s.store.Expires (s.store.now + ms) p →
      Unused s (s.store.now + ms) p 0
  | .go i path => s.reads[i]?.all (fun read =>
      (read.program.next path).all fun x => read.findsFresh s.store x.1) = true
  | .commit _ | .begin _ => True

instance : ∀ (s : State) (a : Action), Decidable (Upheld s a)
  | s, .bump _ period | s, .otherBump period =>
    inferInstanceAs (Decidable (Unused s _ period _))
  | s, .wait _ => inferInstanceAs (Decidable (∀ p ∈ allPeriods, s.store.Expires _ p → _))
  | _, .go _ _ => inferInstanceAs (Decidable (_ = true))
  | _, .commit _ | _, .begin _ => inferInstanceAs (Decidable True)

/-- A finished read has answered with nothing from before a commit whose bump it began after. -/
def Fresh (s : State) : Prop :=
  ∀ read ∈ s.reads, ∀ x, read.program.done? = some x → read.floor ≤ x.asOf

/-- What is known of the cache and of the reads in progress. -/
structure Invariant (s : State) : Prop where
  store : StoreOk s.store
  pending : ∀ x ∈ s.pending, x.1 ≤ s.store.commits
  reads : ∀ read ∈ s.reads, read.program.done?.isNone = true → ReadOk s.store read
  fresh : Fresh s

theorem Invariant.initial (db : Database) (now : Int) : Invariant (.initial db now) where
  store := ⟨fun _ => Nat.le_refl _, fun _ _ => Nat.le_refl _, fun _ => rfl,
    fun _ he => absurd he not_mem_nil⟩
  pending _ hx := absurd hx not_mem_nil
  reads _ hr := absurd hr not_mem_nil
  fresh _ hr := absurd hr not_mem_nil

theorem Invariant.of_store {s' : State} (h : Invariant s) (hreads : s'.reads = s.reads)
    (hstore : StoreOk s'.store) (hpending : ∀ x ∈ s'.pending, x.1 ≤ s'.store.commits)
    (hann : ∀ p, s.store.announced p ≤ s'.store.announced p)
    (hlevel : ∀ read ∈ s.reads, read.program.done?.isNone = true → ∀ v ∈ read.versions,
      s'.store.level read.period v = s.store.level read.period v) :
    Invariant s' := by
  refine ⟨hstore, hpending, ?_, ?_⟩
  · rw [hreads]
    intro read hr hopen
    exact (h.reads read hr hopen).of_level (hann _) (hlevel read hr hopen)
  · unfold Fresh
    rw [hreads]
    exact h.fresh

theorem Invariant.bumpVersion (h : Invariant s) {period : RankingPeriod} {commit : Nat}
    {pending : List (Nat × RankingPeriod)} (hcommit : commit ≤ s.store.commits)
    (hsub : ∀ x ∈ pending, x ∈ s.pending)
    (hunused : Unused s s.store.now period (s.store.incrementCounter period).value) :
    Invariant { s with store := s.store.bumpVersion period commit, pending := pending } := by
  refine h.of_store rfl (h.store.bumpVersion hcommit hunused)
    (fun x hx => h.pending x (hsub x hx)) (fun p => ?_) (fun read hr hopen v hv => ?_)
  · show _ ≤ (s.store.bumpVersion period commit).announced p
    rw [announced_bumpVersion]
    split
    · rename_i hp
      rw [hp]
      exact Nat.le_max_left _ _
    · exact Nat.le_refl _
  · show (s.store.bumpVersion period commit).level read.period v = _
    rw [level_bumpVersion, if_neg]
    rintro ⟨hp, rfl⟩
    exact hunused.2 read hr hopen hp hv

/-- **A read takes a step**, or begins. -/
theorem Invariant.set_read (h : Invariant s) {reads : List Read} {read : Read} (hst : StoreOk st)
    (hcommits : st.commits = s.store.commits) (hann : st.announced = s.store.announced)
    (hlevel : st.level = s.store.level) (hread : ReadOk st read)
    (hreads : ∀ r ∈ reads, r = read ∨ r ∈ s.reads) :
    Invariant { s with store := st, reads := reads } := by
  refine ⟨hst, ?_, ?_, ?_⟩
  · intro x hx
    show x.1 ≤ st.commits
    rw [hcommits]
    exact h.pending x hx
  · intro r hr hopen
    rcases hreads r hr with rfl | hr
    · exact hread
    · refine (h.reads r hr hopen).of_level ?_ ?_
      · show s.store.announced r.period ≤ st.announced r.period
        rw [hann]
      · intro v _
        show st.level r.period v = s.store.level r.period v
        rw [hlevel]
  · intro r hr x hx
    rcases hreads r hr with rfl | hr
    · exact hread.of_done hx
    · exact h.fresh r hr x hx

theorem Invariant.step {s' : State} {a : Action} (h : Invariant s) (hc : Upheld s a)
    (hstep : step s a = some s') : Invariant s' := by
  cases a with
  | commit e =>
    obtain ⟨t, -, rfl⟩ := Option.map_eq_some_iff.mp hstep
    refine h.of_store rfl ⟨fun p => ?_, h.store.level_le, h.store.level_version, h.store.cached⟩
      ?_ (fun _ => Nat.le_refl _) (fun _ _ _ _ _ => rfl)
    · exact Nat.le_succ_of_le (h.store.announced_le p)
    · intro x hx
      rcases List.mem_append.mp hx with hx | hx
      · exact Nat.le_succ_of_le (h.pending x hx)
      · obtain ⟨p, -, rfl⟩ := List.mem_map.mp hx
        exact Nat.le_refl _
  | bump commit period =>
    simp only [Leaderboard.step] at hstep
    split at hstep
    · rename_i hmem
      cases hstep
      exact h.bumpVersion (h.pending _ hmem) (fun x hx => List.mem_of_mem_erase hx) hc
    · cases hstep
  | otherBump period =>
    cases hstep
    exact h.bumpVersion (Nat.zero_le _) (fun x hx => hx) hc
  | wait ms =>
    cases hstep
    have hunused : ∀ p, s.store.Expires (s.store.now + ms) p → Unused s (s.store.now + ms) p 0 :=
      fun p => hc p (mem_allPeriods p)
    refine h.of_store rfl (h.store.advance (by omega) hunused) h.pending
      (fun _ => Nat.le_refl _) (fun read hr hopen v hv => ?_)
    show (if s.store.Expires (s.store.now + ms) read.period ∧ v = 0 then _ else _) = _
    rw [if_neg]
    rintro ⟨hexp, rfl⟩
    exact (hunused _ hexp).2 read hr hopen rfl hv
  | begin request =>
    cases hstep
    have hok : ReadOk s.store ⟨request.period, request.program,
        s.store.announced request.period, [], 0⟩ :=
      ⟨s.store.announced request.period, Nat.le_refl _, fun _ _ => safe_program request _⟩
    refine h.set_read h.store rfl rfl rfl hok fun r hr => ?_
    rcases List.mem_append.mp hr with hr | hr
    · exact .inr hr
    · exact .inl (List.mem_singleton.mp hr)
  | go i path =>
    simp only [Leaderboard.step] at hstep
    split at hstep
    · cases hstep
    · rename_i read hread
      obtain ⟨⟨c, rest⟩, hnext, rfl⟩ := Option.map_eq_some_iff.mp hstep
      have hmem : read ∈ s.reads := List.mem_of_getElem? hread
      have hopen : read.program.done?.isNone = true := by
        cases hdone : read.program.done? with
        | none => rfl
        | some x =>
          rw [Async.next_of_done hdone] at hnext
          cases hnext
      have hfresh : read.findsFresh s.store c = true := by
        simpa [Upheld, hread, hnext] using hc
      obtain ⟨hst, hok⟩ := (h.reads read hmem hopen).perform h.store hnext hfresh
      obtain ⟨hann, hlevel⟩ := perform_frame s.store c
      refine h.set_read hst ?_ hann hlevel hok fun r hr => ?_
      · cases c with
        | lock key =>
          simp only [perform]
          split <;> rfl
        | _ => rfl
      · rcases List.mem_or_eq_of_mem_set hr with hr | rfl
        · exact .inr hr
        · exact .inl rfl

/-- **Leaderboard reads are fresh.** In every run of XP commits, version bumps, passing time and
reads in which no version number is taken up, by a bump or by the expiry of the counter, while
something is stored under it or a read in progress has read it, and in which no lookup of `nextRankXp`
finds a value older than the version of the position it goes into, a read that began after the bump
of a commit answers with nothing computed from a state before that commit. -/
theorem reads_fresh_while_upheld (db : Database) (now : Int) (actions : List Action) (s : State)
    (h : exec step (.initial db now) actions = some s)
    (hc : Along step Upheld (.initial db now) actions) : Fresh s :=
  (hc.invariant (I := Invariant) (fun _ _ _ hs hcs hst => hs.step hcs hst) h
    (.initial db now)).fresh

def noXp : Database :=
  { users := fun _ => some ⟨0, none⟩, ranking := Table.empty _, history := Table.empty _ }

def commitAndBump (n : Nat) (userId : String) (amount : Int) : List Action :=
  .commit ⟨userId, amount, 0⟩ :: allPeriods.map (.bump n ·)

/-- The position of the second user, with so many commands for `nextRankXp`. -/
def readPosition (i nextRankXp : Nat) : List Action :=
  .begin (.userPosition "01900000-0000-7000-8000-000000000002" .allTime) ::
    (replicate 6 [] ++ [[false]] ++ replicate 6 [true, false] ++
      replicate nextRankXp [true, true] ++ replicate 2 []).map (.go i ·)

def firstPosition : List Action :=
  commitAndBump 1 "01900000-0000-7000-8000-000000000001" 100 ++
    commitAndBump 2 "01900000-0000-7000-8000-000000000002" 50 ++ readPosition 0 5

def State.answers (s : State) : List (Nat × Option Nat) :=
  s.reads.map fun read => (read.floor, read.program.done?.map (·.asOf))

/-- A read from the cache, another hundred XP, and an hour later a read that computes all anew. -/
def anHourApart : List Action :=
  firstPosition ++
    [Action.begin (.userPosition "01900000-0000-7000-8000-000000000002" .allTime), .go 1 [],
      .go 1 []] ++
    commitAndBump 3 "01900000-0000-7000-8000-000000000001" 100 ++ [Action.wait 3600000] ++
    readPosition 2 5

theorem reads_fresh_an_hour_apart :
    ∃ s, exec step (.initial noXp 0) anHourApart = some s ∧
      s.answers = [(2, some 2), (2, some 2), (3, some 3)] ∧ Fresh s := by
  refine exists_of_read (fun s => s.answers) [(2, some 2), (2, some 2), (3, some 3)]
    (by decide +kernel) fun s hs hread => ?_
  exact ⟨hread, reads_fresh_while_upheld _ _ _ s hs (by decide +kernel)⟩

theorem not_fresh_of_answers {floor asOf : Nat} (h : (floor, some asOf) ∈ s.answers)
    (hlt : asOf < floor) : ¬ Fresh s := by
  intro hfresh
  obtain ⟨read, hread, hpair⟩ := List.mem_map.mp h
  rw [Prod.mk.injEq] at hpair
  obtain ⟨x, hx, rfl⟩ := Option.map_eq_some_iff.mp hpair.2
  have hle := hfresh read hread x hx
  omega

/-- Another hundred XP, and at once a read that finds the `nextRankXp` from before. -/
def atOnce : List Action :=
  firstPosition ++ commitAndBump 3 "01900000-0000-7000-8000-000000000001" 100 ++ readPosition 1 1

/-- A page of the leaderboard at the end of the counter's day, and one after the next commit: the
version is `1` both times. -/
def aDayLater : List Action :=
  commitAndBump 1 "01900000-0000-7000-8000-000000000001" 100 ++
    [Action.wait 86399000] ++
    Action.begin (.globalLeaderboard .allTime 100 0 none) :: replicate 12 (.go 0 []) ++
    [Action.wait 2000] ++ commitAndBump 2 "01900000-0000-7000-8000-000000000002" 50 ++
    Action.begin (.globalLeaderboard .allTime 100 0 none) :: replicate 2 (.go 1 [])

/-- A read that begins after the bump of a commit is told what was so before the commit: the XP of
the next rank, and, when the counter has started again, a page of the leaderboard. -/
theorem stale_reads :
    (∃ s, exec step (.initial noXp 0) atOnce = some s ∧
      s.answers = [(2, some 2), (3, some 2)] ∧ ¬ Fresh s) ∧
    ∃ s, exec step (.initial noXp 0) aDayLater = some s ∧
      s.answers = [(1, some 1), (2, some 1)] ∧ ¬ Fresh s := by
  constructor
  · obtain ⟨s, hs, hread⟩ : ∃ s, exec step (.initial noXp 0) atOnce = some s ∧
        s.answers = [(2, some 2), (3, some 2)] := Option.map_eq_some_iff.mp (by decide +kernel)
    refine ⟨s, hs, hread, not_fresh_of_answers (show (3, some 2) ∈ s.answers from ?_) (by decide)⟩
    rw [hread]
    decide
  · refine exists_of_read (fun s => s.answers) [(1, some 1), (2, some 1)] (by decide +kernel)
      fun s hs hread => ?_
    refine ⟨hread, not_fresh_of_answers (show (2, some 1) ∈ s.answers from ?_) (by decide)⟩
    rw [hread]
    decide

end QuizBackend.Ranking.Leaderboard
