import QuizBackend.Auth.Passwords

/-!
# The password history

A change should not set a password that the user has, or is among the last ones the user had; and
`password_history` should hold just these, the newest first.

What is checked is what `changePassword` has read. It reads the credentials and the history before
it has the lock, and archives the hash it has read, not the one it replaces. A reset replaces the
password without archiving it. And the hash of a registration is archived at once, while it is
current.

* The first change archives the hash of the registration a second time.
* After a reset the history lacks the password that was replaced, unless it was that of the
  registration, so it can be set again.
* Of two changes that overlap, the second archives the hash that the first one has replaced. It is
  there twice then, the hash between them is not there at all, and the second may set what the first
  has set.

Where whoever replaces a hash sees to it that it is archived once, both hold, and nowhere else
(`recent_passwords_kept`): a reset must find it archived, and a change must find the hash that it
has read and find it not archived, or have room for one entry only. A hash is current at most once,
since each has a salt of its own, so whoever still finds the hash that it has read knows that nobody
has set a password in between.
-/

namespace QuizBackend.Auth

open Lib Table PasswordSystem
open Option (bind_eq_some_iff map_eq_some_iff)

/-! ## What should hold -/

namespace PasswordSystem

/-- The hashes of the user that were replaced, the latest first. -/
def formerHashes (s : PasswordSystem) (userId : String) : List PasswordHash :=
  (s.former.filter fun entry => decide (entry.1 = userId)).map (·.2)

def archived (s : PasswordSystem) (userId : String) : List PasswordHash :=
  (entriesOf s.db userId).map (·.passwordHash)

/-- The user's hash is still the one that the change has read. -/
def IsCurrent (s : PasswordSystem) (c : ChangeCall) : Prop :=
  s.currentHash c.userId = some c.credentials

instance (s : PasswordSystem) (c : ChangeCall) : Decidable (s.IsCurrent c) :=
  inferInstanceAs (Decidable (_ = _))

/-- A step at a time of its own. -/
def laterStep (maxPasswordHistorySize : Nat) (s : PasswordSystem) (a : Int × PasswordAction) :
    Option PasswordSystem :=
  if s.clock < a.1 then s.step maxPasswordHistorySize a else none

end PasswordSystem

/-- Once a hash of the user has been replaced, the history is that of the last ones that were. -/
structure HistoryOk (maxPasswordHistorySize : Nat) (s : PasswordSystem) : Prop where
  recent : ∀ userId, s.formerHashes userId ≠ [] →
    s.archived userId = (s.formerHashes userId).take maxPasswordHistorySize
  once : ∀ userId, s.formerHashes userId ≠ [] → (s.archived userId).Nodup

/-- A change that commits sets a password that is neither the one it replaces nor one of the last
ones before that. -/
def ChangeOk (maxPasswordHistorySize : Nat) (s : PasswordSystem) (a : Int × PasswordAction)
    (s' : PasswordSystem) : Prop :=
  ∀ callId, a.2 = .changeCommit callId → ∀ c, s.changes.find? callId = some c →
    ∀ hash, s.currentHash c.userId = some hash → ∀ hash', s'.currentHash c.userId = some hash' →
      hash'.password ≠ hash.password ∧
        ∀ former ∈ (s.formerHashes c.userId).take maxPasswordHistorySize,
          hash'.password ≠ former.password

/-- Where it does: a reset replaces a hash that is archived, and a change the one that it has read,
which is not, or takes the only place there is. -/
def ReplacesOnce (maxPasswordHistorySize : Nat) (s : PasswordSystem) (a : Int × PasswordAction) :
    Prop :=
  match a.2 with
  | .resetCommit callId => ∀ c, s.resets.find? callId = some c →
    ∀ userId, c.phase.lock = some userId →
      ∀ hash, s.currentHash userId = some hash → hash ∈ s.archived userId
  | .changeCommit callId => ∀ c, s.changes.find? callId = some c →
    s.IsCurrent c ∧ (maxPasswordHistorySize = 1 ∨ c.credentials ∉ s.archived c.userId)
  | _ => True

instance (maxPasswordHistorySize : Nat) (s : PasswordSystem) (a : Int × PasswordAction) :
    Decidable (ReplacesOnce maxPasswordHistorySize s a) :=
  match a with
  | (_, .resetCommit callId) =>
    let _ := fun userId => decidableOfFind (s.currentHash userId) fun hash =>
      hash ∈ s.archived userId
    let _ := fun c : ResetCall => decidableOfFind c.phase.lock fun userId =>
      ∀ hash, s.currentHash userId = some hash → hash ∈ s.archived userId
    decidableOfFind (s.resets.find? callId) fun c => ∀ userId, c.phase.lock = some userId →
      ∀ hash, s.currentHash userId = some hash → hash ∈ s.archived userId
  | (_, .changeCommit callId) => decidableOfFind (s.changes.find? callId) fun c =>
    s.IsCurrent c ∧ (maxPasswordHistorySize = 1 ∨ c.credentials ∉ s.archived c.userId)
  | (_, .requestBegin ..) | (_, .requestUpdate _) | (_, .requestCommit _) | (_, .resetBegin ..)
  | (_, .resetFind ..) | (_, .resetLocate _) | (_, .resetValidate _) | (_, .resetAbort _)
  | (_, .changeBegin ..) | (_, .changeCheck _) | (_, .changePrepare ..) | (_, .login _) =>
    .isTrue trivial

/-! ## Entries -/

variable {entry : PasswordHistoryEntry} {db' : PasswordDb} {nowIso : Int} {hash : PasswordHash}
  {salts : List String} {c : ResetCall}

theorem mem_entriesOf {db : PasswordDb} {userId : String} :
    entry ∈ entriesOf db userId ↔ entry ∈ db.history.rows ∧ entry.userId = userId := by
  unfold entriesOf
  rw [mem_newestFirst, List.mem_filter, decide_eq_true_eq]

theorem entriesOf_keys (db : PasswordDb) (userId : String) :
    ((db.history.rows.filter fun entry => decide (entry.userId = userId)).map
      (·.historyId)).Nodup :=
  (List.filter_sublist.map _).nodup db.history.nodup

theorem entriesOf_strict {db : PasswordDb}
    (hstamps : ∀ entry ∈ db.history.rows, ∀ other ∈ db.history.rows,
      entry.userId = other.userId → entry.createdAt = other.createdAt → entry = other)
    (userId : String) :
    (entriesOf db userId).Pairwise fun entry other => other.createdAt < entry.createdAt := by
  refine newestFirst_strict (entriesOf_keys db userId).of_map ?_
  intro entry hentry other hother
  obtain ⟨hentry, huser⟩ := List.mem_filter.mp hentry
  obtain ⟨hother, huser'⟩ := List.mem_filter.mp hother
  exact hstamps entry hentry other hother
    ((of_decide_eq_true huser).trans (of_decide_eq_true huser').symm)

theorem entriesOf_archive {db : PasswordDb} (h : archive db entry = some db')
    (hstrict : (entriesOf db entry.userId).Pairwise fun x other => other.createdAt < x.createdAt)
    (hnewer : ∀ other ∈ entriesOf db entry.userId, other.createdAt < entry.createdAt) :
    entriesOf db' entry.userId = entry :: entriesOf db entry.userId := by
  obtain ⟨history, hinsert, rfl⟩ := map_eq_some_iff.mp h
  have hnew : [entry].filter (fun x => decide (x.userId = entry.userId)) = [entry] := by simp
  have hrows := rows_of_insert? hinsert
  unfold entriesOf at hstrict hnewer ⊢
  rw [hrows, List.filter_append, hnew]
  exact newestFirst_append hstrict fun other hother => hnewer other (mem_newestFirst.mpr hother)

theorem entriesOf_archive_of_ne {db : PasswordDb} (h : archive db entry = some db')
    {userId : String} (hne : userId ≠ entry.userId) :
    entriesOf db' userId = entriesOf db userId := by
  obtain ⟨history, hinsert, rfl⟩ := map_eq_some_iff.mp h
  have hnew : [entry].filter (fun x => decide (x.userId = userId)) = [] :=
    List.filter_cons_of_neg (by simpa using hne.symm)
  have hrows := rows_of_insert? hinsert
  unfold entriesOf
  rw [hrows, List.filter_append, hnew, List.append_nil]

theorem entriesOf_prune {db : PasswordDb} {userId : String}
    (hstrict : (entriesOf db userId).Pairwise fun x other => other.createdAt < x.createdAt)
    (maxHistorySize : Nat) :
    entriesOf (prune db userId maxHistorySize) userId =
      (entriesOf db userId).take maxHistorySize := by
  have htake := newestFirst_filter_notMem_drop (entriesOf_keys db userId) hstrict maxHistorySize
  refine Eq.trans ?_ htake
  unfold prune entriesOf deleteWhere
  simp only [List.filter_filter, Bool.and_comm, decide_not]

theorem entriesOf_prune_of_ne (db : PasswordDb) {userId other : String} (hne : other ≠ userId)
    (maxHistorySize : Nat) :
    entriesOf (prune db userId maxHistorySize) other = entriesOf db other := by
  have hkept : ∀ entry ∈ db.history.rows, entry.userId = other →
      entry.historyId ∉ ((entriesOf db userId).drop maxHistorySize).map (·.historyId) := by
    intro entry hentry huser hmem
    obtain ⟨dropped, hdropped, hid⟩ := List.mem_map.mp hmem
    obtain ⟨hmem', huser'⟩ := mem_entriesOf.mp (List.mem_of_mem_drop hdropped)
    rw [eq_of_key_eq hmem' hentry hid, huser] at huser'
    exact hne huser'
  unfold prune entriesOf deleteWhere
  rw [List.filter_filter]
  congr 1
  refine List.filter_congr fun entry hentry => ?_
  by_cases huser : entry.userId = other
  · have hkeep := decide_eq_false (hkept entry hentry huser)
    show (_ && !decide (entry.historyId ∈ ((entriesOf db userId).drop maxHistorySize).map _)) = _
    rw [hkeep, Bool.not_false, Bool.and_true]
  · rw [decide_eq_false huser, Bool.false_and]

theorem changePassword_spec {db : PasswordDb} {historyId userId : String}
    {passwordHash previousPasswordHash : PasswordHash} {currentSessionId : String}
    {maxHistorySize : Nat}
    (h : changePasswordAndRevokeOtherSessions db historyId userId passwordHash previousPasswordHash
      currentSessionId nowIso maxHistorySize = some db') :
    db'.users = setPassword db.users userId passwordHash nowIso ∧
      (∀ entry ∈ db'.history.rows, entry ∈ db.history.rows ∨
        entry = ⟨historyId, userId, previousPasswordHash, nowIso⟩) ∧
      (∀ other, other ≠ userId → entriesOf db' other = entriesOf db other) ∧
      ((entriesOf db userId).Pairwise (fun x other => other.createdAt < x.createdAt) →
        (∀ entry ∈ entriesOf db userId, entry.createdAt < nowIso) →
        entriesOf db' userId =
          (⟨historyId, userId, previousPasswordHash, nowIso⟩ :: entriesOf db userId).take
            maxHistorySize) := by
  obtain ⟨archived, harchive, rfl⟩ := map_eq_some_iff.mp h
  refine ⟨?_, ?_, ?_, ?_⟩
  · obtain ⟨history, -, rfl⟩ := map_eq_some_iff.mp harchive
    rfl
  · intro entry hentry
    have hmem := (mem_deleteWhere.mp hentry).1
    obtain ⟨history, hinsert, rfl⟩ := map_eq_some_iff.mp harchive
    have hrows := rows_of_insert? hinsert
    rw [hrows] at hmem
    exact (List.mem_append.mp hmem).imp_right List.mem_singleton.mp
  · intro other hne
    exact (entriesOf_prune_of_ne archived hne maxHistorySize).trans
      (entriesOf_archive_of_ne harchive hne)
  · intro hstrict hnewer
    have harchived := entriesOf_archive harchive hstrict hnewer
    have hstrict' : (entriesOf archived userId).Pairwise
        fun x other => other.createdAt < x.createdAt := by
      rw [harchived]
      exact List.pairwise_cons.mpr ⟨hnewer, hstrict⟩
    rw [← harchived]
    exact entriesOf_prune hstrict' maxHistorySize

/-! ## Whose hash it is

A hash is drawn for one call, with a salt of its own. Once it is set it is the current one of its
user, and when that is over it is a former one for good. -/

def ResetPhase.hash? : ResetPhase → Option PasswordHash
  | .begun => none
  | .found hash | .located hash _ | .validated hash _ => some hash

def ChangePhase.hash? : ChangePhase → Option PasswordHash
  | .read | .checked => none
  | .prepared _ hash => some hash

inductive HashOwner where
  | reset (callId : String)
  | change (callId : String)

namespace PasswordSystem

def Holds (s : PasswordSystem) : HashOwner → PasswordHash → Prop
  | .reset callId, hash => ∃ c ∈ s.resets.rows, c.callId = callId ∧ c.phase.hash? = some hash
  | .change callId, hash => ∃ c ∈ s.changes.rows, c.callId = callId ∧ c.phase.hash? = some hash

/-- The salt is that of a hash that has been set. -/
def IsSettled (s : PasswordSystem) (salt : String) : Prop :=
  (∃ userId hash, s.currentHash userId = some hash ∧ hash.salt = salt) ∨
    (∃ entry ∈ s.former, entry.2.salt = salt) ∨ ∃ c ∈ s.changes.rows, c.credentials.salt = salt

theorem mem_formerHashes {s : PasswordSystem} {userId : String} :
    hash ∈ s.formerHashes userId ↔ (userId, hash) ∈ s.former := by
  unfold formerHashes
  rw [List.mem_map]
  constructor
  · rintro ⟨⟨user, former⟩, hmem, rfl⟩
    obtain ⟨hformer, huser⟩ := List.mem_filter.mp hmem
    obtain rfl : user = userId := of_decide_eq_true huser
    exact hformer
  · intro hmem
    exact ⟨(userId, hash), List.mem_filter.mpr ⟨hmem, decide_eq_true rfl⟩, rfl⟩

theorem IsSettled.of_former {s : PasswordSystem} {userId : String}
    (h : hash ∈ s.formerHashes userId) : s.IsSettled hash.salt :=
  .inr (.inl ⟨_, mem_formerHashes.mp h, rfl⟩)

theorem formerHashes_replaced {s s' : PasswordSystem} {userId : String}
    (h : s'.former = s.replaced userId ++ s.former) (other : String) :
    s'.formerHashes other =
      if other = userId then (s.currentHash userId).toList ++ s.formerHashes userId
      else s.formerHashes other := by
  unfold formerHashes replaced at *
  rw [h, List.filter_append, List.map_append]
  cases s.currentHash userId with
  | none =>
    split
    · next hsame => rw [hsame]; rfl
    · rfl
  | some hash =>
    split
    · next hsame => simp [hsame]
    · next hne => simp [Ne.symm hne]

theorem currentHash_set {s s' : PasswordSystem} {userId : String}
    (h : s'.db.users = setPassword s.db.users userId hash nowIso) (other : String) :
    s'.currentHash other =
      if other = userId then (s.db.users.find? userId).map fun _ => hash
      else s.currentHash other := by
  unfold currentHash
  rw [h, setPassword, find?_modify]
  split
  · cases s.db.users.find? userId <;> rfl
  · rfl

theorem currentHash_congr {s s' : PasswordSystem} (h : s'.db.users = s.db.users) (userId : String) :
    s'.currentHash userId = s.currentHash userId := by
  unfold currentHash
  rw [h]

theorem archived_congr {s s' : PasswordSystem} (h : s'.db.history = s.db.history)
    (userId : String) : s'.archived userId = s.archived userId := by
  unfold archived entriesOf
  rw [h]

end PasswordSystem

/-- Every hash has a salt of its own, and is drawn, current and former in this order. -/
structure HashInv (s : PasswordSystem) : Prop where
  drawn : ∀ owner hash, s.Holds owner hash → hash.salt ∈ s.salts ∧ ¬ s.IsSettled hash.salt
  settled : ∀ salt, s.IsSettled salt → salt ∈ s.salts
  own : ∀ owner owner' hash hash', s.Holds owner hash → s.Holds owner' hash' →
    hash.salt = hash'.salt → owner = owner'
  current : ∀ userId hash, s.currentHash userId = some hash →
    ∀ former ∈ s.formerHashes userId, former.salt ≠ hash.salt
  once : ∀ userId, ((s.formerHashes userId).map (·.salt)).Nodup

variable {owner : HashOwner}

/-- An account that was registered has its hash archived before it is replaced. -/
theorem PasswordSystem.archived_start (users : Table String UserCredentials (·.userId))
    (userId : String) :
    (start users).archived userId = ((start users).currentHash userId).toList := by
  have hfilter : (registrationEntries users.rows).filter (fun entry => decide (entry.userId = userId)) =
      registrationEntries (users.rows.filter fun user => decide (user.userId = userId)) := by
    unfold registrationEntries
    rw [List.filter_filterMap, List.filterMap_filter]
    refine List.filterMap_congr fun user _ => ?_
    cases hhash : user.passwordHash with
    | none => simp
    | some hash =>
      rw [Option.map_some, Option.filter_some]
  change (newestFirst _ ((registrationEntries users.rows).filter _)).map _ =
    ((users.find? userId).bind _).toList
  rw [hfilter, filter_key_eq]
  cases users.find? userId with
  | none => rfl
  | some user => cases hhash : user.passwordHash <;> simp [registrationEntries, newestFirst, hhash]

namespace HashInv

variable {s s' : PasswordSystem}

theorem start (users : Table String UserCredentials (·.userId)) :
    HashInv (start users) where
  drawn owner hash h := by
    cases owner <;> obtain ⟨c, hc, -⟩ := h <;> exact absurd hc List.not_mem_nil
  settled salt h := by
    rcases h with ⟨userId, hash, hcurrent, rfl⟩ | ⟨entry, hentry, -⟩ | ⟨c, hc, -⟩
    · have harchived : hash ∈ (PasswordSystem.start users).archived userId := by
        rw [archived_start, hcurrent]
        exact List.mem_singleton_self hash
      obtain ⟨entry, hentry, rfl⟩ := List.mem_map.mp harchived
      exact List.mem_map_of_mem (mem_entriesOf.mp hentry).1
    · exact absurd hentry List.not_mem_nil
    · exact absurd hc List.not_mem_nil
  own owner _ hash _ h := by
    cases owner <;> obtain ⟨c, hc, -⟩ := h <;> exact absurd hc List.not_mem_nil
  current _ _ _ _ h := absurd h List.not_mem_nil
  once _ := List.nodup_nil

section

variable (h : HashInv s)
include h

theorem grow (owner : HashOwner) (husers : s'.db.users = s.db.users)
    (hformer : s'.former = s.former) (hsalts : ∀ salt ∈ s.salts, salt ∈ s'.salts)
    (hholds : ∀ o hash, s'.Holds o hash → s.Holds o hash ∨
      o = owner ∧ hash.salt ∉ s.salts ∧ hash.salt ∈ s'.salts)
    (hcredentials : ∀ c ∈ s'.changes.rows, s.IsSettled c.credentials.salt) : HashInv s' := by
  have hsettled : ∀ salt, s'.IsSettled salt → s.IsSettled salt := by
    rintro salt (⟨userId, hash, hcurrent, rfl⟩ | hs | ⟨c, hc, rfl⟩)
    · exact .inl ⟨userId, hash, (currentHash_congr husers userId).symm.trans hcurrent, rfl⟩
    · exact .inr (.inl (hformer ▸ hs))
    · exact hcredentials c hc
  refine ⟨?_, ?_, ?_, ?_, ?_⟩
  · intro o hash hheld
    rcases hholds o hash hheld with hheld | ⟨-, hnew, hin⟩
    · exact ⟨hsalts _ (h.drawn o hash hheld).1, fun hs => (h.drawn o hash hheld).2 (hsettled _ hs)⟩
    · exact ⟨hin, fun hs => hnew (h.settled _ (hsettled _ hs))⟩
  · exact fun salt hs => hsalts _ (h.settled _ (hsettled _ hs))
  · intro o o' hash hash' hheld hheld' hsame
    rcases hholds o hash hheld with hheld | ⟨ho, hnew, -⟩
    · rcases hholds o' hash' hheld' with hheld' | ⟨-, hnew', -⟩
      · exact h.own o o' hash hash' hheld hheld' hsame
      · exact absurd (hsame ▸ (h.drawn o hash hheld).1) hnew'
    · rcases hholds o' hash' hheld' with hheld' | ⟨ho', -, -⟩
      · exact absurd (hsame ▸ (h.drawn o' hash' hheld').1) hnew
      · exact ho.trans ho'.symm
  · intro userId hash hcurrent
    unfold formerHashes
    rw [hformer]
    exact h.current userId hash ((currentHash_congr husers userId).symm.trans hcurrent)
  · unfold formerHashes
    rw [hformer]
    exact h.once

theorem commit (hheld : s.Holds owner hash) {userId : String}
    (husers : s'.db.users = setPassword s.db.users userId hash nowIso)
    (hformer : s'.former = s.replaced userId ++ s.former) (hsalts : s'.salts = s.salts)
    (hholds : ∀ o x, s'.Holds o x → s.Holds o x ∧ o ≠ owner)
    (hchanges : ∀ c ∈ s'.changes.rows, c ∈ s.changes.rows) : HashInv s' := by
  have hformerSettled : ∀ other, ∀ x ∈ s'.formerHashes other, s.IsSettled x.salt := by
    intro other x hx
    rw [formerHashes_replaced hformer] at hx
    split at hx
    · rcases List.mem_append.mp hx with hx | hx
      · exact .inl ⟨userId, x, Option.mem_toList.mp hx, rfl⟩
      · exact .of_former hx
    · exact .of_former hx
  have hcurrent : ∀ other x, s'.currentHash other = some x →
      x = hash ∨ other ≠ userId ∧ s.currentHash other = some x := by
    intro other x hx
    rw [currentHash_set husers] at hx
    split at hx
    · obtain ⟨user, -, rfl⟩ := map_eq_some_iff.mp hx
      exact .inl rfl
    · next hne => exact .inr ⟨hne, hx⟩
  have hsettled : ∀ salt, s'.IsSettled salt → s.IsSettled salt ∨ salt = hash.salt := by
    rintro salt (⟨other, x, hx, rfl⟩ | ⟨⟨other, x⟩, hmem, rfl⟩ | ⟨c, hc, rfl⟩)
    · rcases hcurrent other x hx with rfl | ⟨-, hx⟩
      · exact .inr rfl
      · exact .inl (.inl ⟨other, x, hx, rfl⟩)
    · exact .inl (hformerSettled other x (mem_formerHashes.mpr hmem))
    · exact .inl (.inr (.inr ⟨c, hchanges c hc, rfl⟩))
  refine ⟨?_, ?_, ?_, ?_, ?_⟩
  · intro o x hx
    obtain ⟨hx, hne⟩ := hholds o x hx
    refine ⟨hsalts ▸ (h.drawn o x hx).1, fun hs => ?_⟩
    rcases hsettled _ hs with hs | hs
    · exact (h.drawn o x hx).2 hs
    · exact hne (h.own o owner x hash hx hheld hs)
  · intro salt hs
    rw [hsalts]
    rcases hsettled salt hs with hs | rfl
    · exact h.settled salt hs
    · exact (h.drawn owner hash hheld).1
  · intro o o' x x' hx hx'
    exact h.own o o' x x' (hholds o x hx).1 (hholds o' x' hx').1
  · intro other x hx former hmem hsame
    rcases hcurrent other x hx with rfl | ⟨hne, hx⟩
    · exact (h.drawn owner x hheld).2 (hsame ▸ hformerSettled _ former hmem)
    · rw [formerHashes_replaced hformer, if_neg hne] at hmem
      exact h.current other x hx former hmem hsame
  · intro other
    rw [formerHashes_replaced hformer]
    split
    · cases hreplaced : s.currentHash userId with
      | none => exact h.once userId
      | some x =>
        refine List.nodup_cons.mpr ⟨fun hmem => ?_, h.once userId⟩
        obtain ⟨former, hmem, hsame⟩ := List.mem_map.mp hmem
        exact h.current userId x hreplaced former hmem hsame
    · exact h.once other

theorem aside (husers : s'.db.users = s.db.users) (hformer : s'.former = s.former)
    (hresets : s'.resets = s.resets) (hchanges : s'.changes = s.changes)
    (hsalts : s'.salts = s.salts) : HashInv s' := by
  refine h.grow (.reset "") husers hformer (fun _ hs => hsalts ▸ hs) ?_ ?_
  · intro o hash hheld
    cases o with
    | reset id => exact .inl (by unfold Holds at hheld ⊢; rwa [hresets] at hheld)
    | change id => exact .inl (by unfold Holds at hheld ⊢; rwa [hchanges] at hheld)
  · intro c hc
    rw [hchanges] at hc
    exact .inr (.inr ⟨c, hc, rfl⟩)

theorem withResets (callId : String) {resets : Table String ResetCall (·.callId)}
    (hsalts : ∀ salt ∈ s.salts, salt ∈ salts)
    (hresets : ∀ c ∈ resets.rows, c ∈ s.resets.rows ∨ c.callId = callId ∧ ∀ hash,
      c.phase.hash? = some hash → s.Holds (.reset callId) hash ∨ hash.salt ∉ s.salts ∧
      hash.salt ∈ salts) :
    HashInv { s with resets, salts } := by
  refine h.grow (.reset callId) rfl rfl hsalts ?_ fun c hc => .inr (.inr ⟨c, hc, rfl⟩)
  intro o hash hheld
  cases o with
  | change id => exact .inl hheld
  | reset id =>
    obtain ⟨c, hc, rfl, hhash⟩ := hheld
    rcases hresets c hc with hc | ⟨hid, hnew⟩
    · exact .inl ⟨c, hc, rfl, hhash⟩
    · rw [hid]
      exact (hnew hash hhash).imp_right fun hdrawn => ⟨rfl, hdrawn⟩

theorem withChanges (callId : String) {changes : Table String ChangeCall (·.callId)}
    (hsalts : ∀ salt ∈ s.salts, salt ∈ salts)
    (hchanges : ∀ c ∈ changes.rows, c ∈ s.changes.rows ∨ c.callId = callId ∧
      s.IsSettled c.credentials.salt ∧ ∀ hash, c.phase.hash? = some hash →
      s.Holds (.change callId) hash ∨ hash.salt ∉ s.salts ∧ hash.salt ∈ salts) :
    HashInv { s with changes, salts } := by
  refine h.grow (.change callId) rfl rfl hsalts ?_ ?_
  · intro o hash hheld
    cases o with
    | reset id => exact .inl hheld
    | change id =>
      obtain ⟨c, hc, rfl, hhash⟩ := hheld
      rcases hchanges c hc with hc | ⟨hid, -, hnew⟩
      · exact .inl ⟨c, hc, rfl, hhash⟩
      · rw [hid]
        exact (hnew hash hhash).imp_right fun hdrawn => ⟨rfl, hdrawn⟩
  · intro c hc
    rcases hchanges c hc with hc | ⟨-, hsettled, -⟩
    · exact .inr (.inr ⟨c, hc, rfl⟩)
    · exact hsettled

section

variable (hc : c ∈ s.resets.rows)
include hc

theorem advanceReset {phase : Option ResetPhase}
    (hphase : ∀ p, phase = some p → p.hash? = c.phase.hash?) :
    HashInv (s.advanceReset c.callId phase) := by
  obtain ⟨resets, hadvance, hresets⟩ := advanceReset_spec hc phase
  rw [hadvance]
  refine h.withResets c.callId (fun _ hsalt => hsalt) fun c' hc' => ?_
  rcases hresets c' hc' with ⟨hc', -⟩ | ⟨p, hp, rfl⟩
  · exact .inl hc'
  · exact .inr ⟨rfl, fun hash hhash => .inl ⟨c, hc, rfl, (hphase p hp).symm.trans hhash⟩⟩

theorem resetFind {salt : String}
    (hstep : s.resetFind c salt = some s') : HashInv s' := by
  unfold PasswordSystem.resetFind at hstep
  split at hstep
  · split at hstep
    · split at hstep
      · cases hstep
      · next hsalt =>
        cases hstep
        obtain ⟨resets, hadvance, hresets⟩ :=
          advanceReset_spec hc (some (.found ⟨c.newPassword, salt⟩))
        rw [hadvance]
        refine h.withResets c.callId (fun _ hs => List.mem_append_left _ hs) fun c' hc' => ?_
        rcases hresets c' hc' with ⟨hc', -⟩ | ⟨p, hp, rfl⟩
        · exact .inl hc'
        · cases hp
          refine .inr ⟨rfl, fun hash hhash => .inr ?_⟩
          cases hhash
          exact ⟨hsalt, List.mem_append_right _ (List.mem_singleton_self salt)⟩
    · cases hstep
      exact h.advanceReset hc fun p hp => nomatch hp
  · cases hstep

theorem resetLocate (hstep : s.resetLocate c = some s') :
    HashInv s' := by
  unfold PasswordSystem.resetLocate at hstep
  split at hstep
  · next hash hphase =>
    cases hstep
    refine h.advanceReset hc fun p hp => ?_
    obtain ⟨userId, -, rfl⟩ := map_eq_some_iff.mp hp
    rw [hphase]
    rfl
  · cases hstep

theorem resetValidate (hstep : s.resetValidate c = some s') :
    HashInv s' := by
  unfold PasswordSystem.resetValidate at hstep
  split at hstep
  · next hash userId hphase =>
    split at hstep
    · cases hstep
    · cases hstep
      refine h.advanceReset hc fun p hp => ?_
      split at hp
      · cases hp
        rw [hphase]
        rfl
      · cases hp
  · cases hstep

theorem resetCommit (hstep : s.resetCommit c = some s') :
    HashInv s' := by
  unfold PasswordSystem.resetCommit at hstep
  split at hstep
  · next hash userId hphase =>
    cases hstep
    have hheld : s.Holds (.reset c.callId) hash := ⟨c, hc, rfl, by rw [hphase]; rfl⟩
    refine h.commit hheld rfl rfl rfl ?_ fun c hc => hc
    intro o x hx
    cases o with
    | change id => exact ⟨hx, nofun⟩
    | reset id =>
      obtain ⟨c', hc', rfl, hhash⟩ := hx
      obtain ⟨hmem, hne⟩ := mem_erase.mp hc'
      exact ⟨⟨c', hmem, rfl, hhash⟩, fun he => hne (HashOwner.reset.inj he)⟩
  · cases hstep

end

end

end HashInv

/-! ## What a change in flight rests on -/

/-- What a change has made sure of. That the new password is not in the history, and that no entry
is as late as the change, lasts only as long as nobody sets a password in between. -/
structure ChangeCall.Ok (maxPasswordHistorySize : Nat) (s : PasswordSystem) (c : ChangeCall) :
    Prop where
  user : (s.currentHash c.userId).isSome = true
  read : s.IsCurrent c ∨ c.credentials ∈ s.formerHashes c.userId
  differs : c.newPassword ≠ c.credentials.password
  checked : c.phase ≠ .read → s.IsCurrent c →
    isInHistory s.db c.userId c.newPassword maxPasswordHistorySize = false
  prepared : ∀ nowIso hash, c.phase = .prepared nowIso hash →
    hash.password = c.newPassword ∧ nowIso ≤ s.clock ∧
      (∀ entry ∈ s.db.history.rows, entry.createdAt ≠ nowIso) ∧
      (s.IsCurrent c → ∀ entry ∈ entriesOf s.db c.userId, entry.createdAt < nowIso)

/-- Stamps tell the entries of a user apart and the changes in flight, and until a hash of a user is
replaced there is at most that of the registration in the history. -/
structure HistoryInv (maxPasswordHistorySize : Nat) (s : PasswordSystem) : Prop where
  hashes : HashInv s
  stamps : ∀ entry ∈ s.db.history.rows, entry.createdAt ≤ s.clock
  distinct : ∀ entry ∈ s.db.history.rows, ∀ other ∈ s.db.history.rows,
    entry.userId = other.userId → entry.createdAt = other.createdAt → entry = other
  first : ∀ userId, s.formerHashes userId = [] →
    s.archived userId = [] ∨ s.archived userId = (s.currentHash userId).toList
  calls : ∀ c ∈ s.changes.rows, c.Ok maxPasswordHistorySize s
  alone : ∀ c ∈ s.changes.rows, ∀ c' ∈ s.changes.rows, ∀ nowIso hash hash',
    c.phase = .prepared nowIso hash → c'.phase = .prepared nowIso hash' → c = c'

theorem PasswordSystem.changeCommit_spec {maxPasswordHistorySize : Nat} {s s' : PasswordSystem}
    {c : ChangeCall} (hstep : s.changeCommit maxPasswordHistorySize c = some s') :
    ∃ nowIso hash db, c.phase = .prepared nowIso hash ∧
      changePasswordAndRevokeOtherSessions s.db c.callId c.userId hash c.credentials
        c.currentSessionId nowIso maxPasswordHistorySize = some db ∧
      s' = { s with
        db
        changes := s.changes.erase c.callId
        former := s.replaced c.userId ++ s.former } := by
  unfold changeCommit at hstep
  split at hstep
  · next nowIso hash hphase =>
    split at hstep
    · cases hstep
    · obtain ⟨db, hdb, rfl⟩ := map_eq_some_iff.mp hstep
      exact ⟨nowIso, hash, db, hphase, hdb, rfl⟩
  · cases hstep

theorem PasswordSystem.isCurrent_of_commit {s s' : PasswordSystem} (h : HashInv s)
    (hheld : s.Holds owner hash) {userId : String}
    (husers : s'.db.users = setPassword s.db.users userId hash nowIso) {c : ChangeCall}
    (hc : c ∈ s.changes.rows) (hcurrent : s'.IsCurrent c) : c.userId ≠ userId ∧ s.IsCurrent c := by
  unfold IsCurrent at hcurrent ⊢
  rw [currentHash_set husers] at hcurrent
  split at hcurrent
  · obtain ⟨user, -, rfl⟩ := map_eq_some_iff.mp hcurrent
    exact absurd (.inr (.inr ⟨c, hc, rfl⟩)) (h.drawn owner c.credentials hheld).2
  · next hne => exact ⟨hne, hcurrent⟩

theorem ChangeCall.Ok.commit {maxPasswordHistorySize : Nat} {s s' : PasswordSystem} {c : ChangeCall}
    (hok : c.Ok maxPasswordHistorySize s) (h : HashInv s) (hheld : s.Holds owner hash)
    {userId : String} (husers : s'.db.users = setPassword s.db.users userId hash nowIso)
    (hformer : s'.former = s.replaced userId ++ s.former)
    (hc : c ∈ s.changes.rows) (hclock : s'.clock = s.clock)
    (hentries : ∀ other, other ≠ userId → entriesOf s'.db other = entriesOf s.db other)
    (hstamps : ∀ preparedAt hash', c.phase = .prepared preparedAt hash' →
      ∀ entry ∈ s'.db.history.rows, entry.createdAt ≠ preparedAt) :
    c.Ok maxPasswordHistorySize s' := by
  refine ⟨?_, ?_, hok.differs, ?_, ?_⟩
  · rw [currentHash_set husers]
    split
    · next hsame =>
      obtain ⟨x, hx⟩ := Option.isSome_iff_exists.mp hok.user
      obtain ⟨user, huser, -⟩ := bind_eq_some_iff.mp hx
      rw [← hsame, huser]
      rfl
    · exact hok.user
  · -- the hash that is replaced is a former one from now on
    unfold IsCurrent
    rw [currentHash_set husers, formerHashes_replaced hformer]
    split
    · next hsame =>
      rw [← hsame]
      refine .inr (List.mem_append.mpr (hok.read.imp_left fun hcurrent => ?_))
      exact Option.mem_toList.mpr hcurrent
    · exact hok.read
  · intro hread hcurrent
    obtain ⟨hne, hcurrent⟩ := isCurrent_of_commit h hheld husers hc hcurrent
    unfold isInHistory getRecentPasswordHashes
    rw [hentries c.userId hne]
    exact hok.checked hread hcurrent
  · intro preparedAt hash' hphase
    obtain ⟨hpassword, hle, -, hnewer⟩ := hok.prepared preparedAt hash' hphase
    refine ⟨hpassword, hclock ▸ hle, hstamps preparedAt hash' hphase, ?_⟩
    intro hcurrent
    obtain ⟨hne, hcurrent⟩ := isCurrent_of_commit h hheld husers hc hcurrent
    rw [hentries c.userId hne]
    exact hnewer hcurrent

namespace HistoryInv

variable {maxPasswordHistorySize : Nat} {s s' : PasswordSystem}

theorem start (maxPasswordHistorySize : Nat) (users : Table String UserCredentials (·.userId)) :
    HistoryInv maxPasswordHistorySize (start users) where
  hashes := HashInv.start users
  stamps entry h := by
    obtain ⟨user, -, hentry⟩ := List.mem_filterMap.mp h
    obtain ⟨hash, -, rfl⟩ := map_eq_some_iff.mp hentry
    exact Int.le_refl 0
  distinct entry h other h' huser _ := by
    refine eq_of_key_eq h h' ?_
    obtain ⟨user, -, hentry⟩ := List.mem_filterMap.mp h
    obtain ⟨user', -, hentry'⟩ := List.mem_filterMap.mp h'
    obtain ⟨hash, -, rfl⟩ := map_eq_some_iff.mp hentry
    obtain ⟨hash', -, rfl⟩ := map_eq_some_iff.mp hentry'
    exact huser
  first userId _ := .inr (archived_start users userId)
  calls _ h := absurd h List.not_mem_nil
  alone _ h := absurd h List.not_mem_nil

section

variable (h : HistoryInv maxPasswordHistorySize s)
include h

theorem frame (hhashes : HashInv s')
    (husers : s'.db.users = s.db.users) (hhistory : s'.db.history = s.db.history)
    (hformer : s'.former = s.former) (hchanges : s'.changes = s.changes)
    (hclock : s.clock ≤ s'.clock) : HistoryInv maxPasswordHistorySize s' := by
  refine ⟨hhashes, ?_, ?_, ?_, ?_, ?_⟩
  · intro entry hentry
    exact Int.le_trans (h.stamps entry (hhistory ▸ hentry)) hclock
  · rw [hhistory]
    exact h.distinct
  · intro userId
    rw [archived_congr hhistory, currentHash_congr husers, formerHashes, hformer]
    exact h.first userId
  · intro c hc
    rw [hchanges] at hc
    have hok := h.calls c hc
    have hcurrent : s'.IsCurrent c ↔ s.IsCurrent c := by
      unfold IsCurrent
      rw [currentHash_congr husers]
    have hentries : entriesOf s'.db c.userId = entriesOf s.db c.userId := by
      unfold entriesOf
      rw [hhistory]
    refine ⟨?_, ?_, hok.differs, ?_, ?_⟩
    · rw [currentHash_congr husers]
      exact hok.user
    · rw [hcurrent, formerHashes, hformer]
      exact hok.read
    · intro hread hc'
      unfold isInHistory getRecentPasswordHashes
      rw [hentries]
      exact hok.checked hread (hcurrent.mp hc')
    · intro nowIso hash hphase
      obtain ⟨hpassword, hle, hne, hnewer⟩ := hok.prepared nowIso hash hphase
      rw [hhistory, hentries]
      exact ⟨hpassword, Int.le_trans hle hclock, hne, fun hc' => hnewer (hcurrent.mp hc')⟩
  · rw [hchanges]
    exact h.alone

theorem withChanges (callId : String)
    {changes : Table String ChangeCall (·.callId)} (hhashes : HashInv { s with changes, salts })
    (hchanges : ∀ c ∈ changes.rows, c ∈ s.changes.rows ∨ c.callId = callId ∧
      c.Ok maxPasswordHistorySize s ∧ ∀ nowIso hash, c.phase = .prepared nowIso hash →
      ∀ other ∈ s.changes.rows, ∀ hash', other.phase ≠ .prepared nowIso hash') :
    HistoryInv maxPasswordHistorySize { s with changes, salts } := by
  refine ⟨hhashes, h.stamps, h.distinct, h.first, ?_, ?_⟩
  · intro c hc
    have hok : c.Ok maxPasswordHistorySize s := by
      rcases hchanges c hc with hc | ⟨-, hok, -⟩
      · exact h.calls c hc
      · exact hok
    exact ⟨hok.user, hok.read, hok.differs, hok.checked, hok.prepared⟩
  · intro c hc c' hc' nowIso hash hash' hphase hphase'
    rcases hchanges c hc with hold | ⟨hid, -, hnew⟩
    · rcases hchanges c' hc' with hold' | ⟨-, -, hnew'⟩
      · exact h.alone c hold c' hold' nowIso hash hash' hphase hphase'
      · exact absurd hphase (hnew' nowIso hash' hphase' c hold hash)
    · rcases hchanges c' hc' with hold' | ⟨hid', -, -⟩
      · exact absurd hphase' (hnew nowIso hash hphase c' hold' hash')
      · exact eq_of_key_eq hc hc' (hid.trans hid'.symm)

theorem changeBegin {callId userId currentPassword newPassword currentSessionId : String}
    (hstep : s.changeBegin callId userId currentPassword newPassword currentSessionId = some s') :
    HistoryInv maxPasswordHistorySize s' := by
  unfold PasswordSystem.changeBegin at hstep
  split at hstep
  · next hash hcurrent =>
    split at hstep
    · next hverified =>
      obtain ⟨changes, hinsert, rfl⟩ := map_eq_some_iff.mp hstep
      have hchanges : ∀ c ∈ changes.rows, c ∈ s.changes.rows ∨
          c = ⟨callId, userId, newPassword, currentSessionId, hash, .read⟩ := by
        intro c hc
        rw [rows_of_insert? hinsert] at hc
        exact (List.mem_append.mp hc).imp_right List.mem_singleton.mp
      have hhashes : HashInv { s with changes } := by
        refine h.hashes.withChanges callId (fun _ hs => hs) fun c hc => ?_
        rcases hchanges c hc with hc | rfl
        · exact .inl hc
        · exact .inr ⟨rfl, .inl ⟨userId, hash, hcurrent, rfl⟩, nofun⟩
      refine h.withChanges callId hhashes fun c hc => ?_
      rcases hchanges c hc with hc | rfl
      · exact .inl hc
      · refine .inr ⟨rfl, ⟨?_, .inl hcurrent, ?_, fun hread => absurd rfl hread, nofun⟩, nofun⟩
        · rw [hcurrent]
          rfl
        · intro hsame
          exact hverified.2 (decide_eq_true hsame.symm)
    · cases hstep
      exact h
  · cases hstep
    exact h

theorem changeCheck {c : ChangeCall}
    (hc : c ∈ s.changes.rows) (hstep : s.changeCheck maxPasswordHistorySize c = some s') :
    HistoryInv maxPasswordHistorySize s' := by
  unfold PasswordSystem.changeCheck at hstep
  split at hstep
  · cases hstep
    obtain ⟨changes, hadvance, hchanges⟩ := advanceChange_spec hc
      (if isInHistory s.db c.userId c.newPassword maxPasswordHistorySize then none
        else some .checked)
    rw [hadvance]
    have hchanges' : ∀ c' ∈ changes.rows, c' ∈ s.changes.rows ∨
        isInHistory s.db c.userId c.newPassword maxPasswordHistorySize = false ∧
          c' = { c with phase := .checked } := by
      intro c' hc'
      rcases hchanges c' hc' with ⟨hc', -⟩ | ⟨p, hp, rfl⟩
      · exact .inl hc'
      · split at hp
        · cases hp
        · next hunused =>
          cases hp
          exact .inr ⟨Bool.not_eq_true _ ▸ hunused, rfl⟩
    have hok := h.calls c hc
    have hhashes : HashInv { s with changes } := by
      refine h.hashes.withChanges c.callId (fun _ hs => hs) fun c' hc' => ?_
      rcases hchanges' c' hc' with hc' | ⟨-, rfl⟩
      · exact .inl hc'
      · exact .inr ⟨rfl, .inr (.inr ⟨c, hc, rfl⟩), nofun⟩
    refine h.withChanges c.callId hhashes fun c' hc' => ?_
    rcases hchanges' c' hc' with hc' | ⟨hunused, rfl⟩
    · exact .inl hc'
    · exact .inr ⟨rfl, ⟨hok.user, hok.read, hok.differs, fun _ _ => hunused, nofun⟩, nofun⟩
  · cases hstep

/-- The time of a change is later than whatever was archived, and than that of any other change. -/
theorem changePrepare (hentries : ∀ entry ∈ s.db.history.rows, entry.createdAt < s.clock)
    (hothers : ∀ c ∈ s.changes.rows, ∀ nowIso hash, c.phase = .prepared nowIso hash →
      nowIso < s.clock)
    {c : ChangeCall} (hc : c ∈ s.changes.rows) {salt : String}
    (hstep : s.changePrepare c salt = some s') : HistoryInv maxPasswordHistorySize s' := by
  unfold PasswordSystem.changePrepare at hstep
  split at hstep
  · next hphase =>
    split at hstep
    · cases hstep
    · next hsalt =>
      cases hstep
      obtain ⟨changes, hadvance, hchanges⟩ := advanceChange_spec hc
        (some (.prepared s.clock ⟨c.newPassword, salt⟩))
      rw [hadvance]
      have hchanges' : ∀ c' ∈ changes.rows, c' ∈ s.changes.rows ∨
          c' = { c with phase := .prepared s.clock ⟨c.newPassword, salt⟩ } := by
        intro c' hc'
        rcases hchanges c' hc' with ⟨hc', -⟩ | ⟨p, hp, rfl⟩
        · exact .inl hc'
        · cases hp
          exact .inr rfl
      have hok := h.calls c hc
      have hhashes : HashInv { s with changes, salts := s.salts ++ [salt] } := by
        refine h.hashes.withChanges c.callId (fun _ hs => List.mem_append_left _ hs)
          fun c' hc' => ?_
        rcases hchanges' c' hc' with hc' | rfl
        · exact .inl hc'
        · refine .inr ⟨rfl, .inr (.inr ⟨c, hc, rfl⟩), fun hash hhash => .inr ?_⟩
          cases hhash
          exact ⟨hsalt, List.mem_append_right _ (List.mem_singleton_self salt)⟩
      refine h.withChanges c.callId hhashes fun c' hc' => ?_
      rcases hchanges' c' hc' with hc' | rfl
      · exact .inl hc'
      · refine .inr ⟨rfl, ⟨hok.user, hok.read, hok.differs, ?_, ?_⟩, ?_⟩
        · intro _ hcurrent
          exact hok.checked (by rw [hphase]; exact nofun) hcurrent
        · rintro nowIso hash ⟨⟩
          refine ⟨rfl, Int.le_refl _, fun entry hentry => Int.ne_of_lt (hentries entry hentry), ?_⟩
          exact fun _ entry hentry => hentries entry (mem_entriesOf.mp hentry).1
        · rintro nowIso hash ⟨⟩ other hother hash' hphase'
          exact absurd (hothers other hother _ hash' hphase') (Int.lt_irrefl _)
  · cases hstep

theorem changeCommit {c : ChangeCall}
    (hc : c ∈ s.changes.rows) (hstep : s.changeCommit maxPasswordHistorySize c = some s') :
    HistoryInv maxPasswordHistorySize s' := by
  obtain ⟨nowIso, hash, db, hphase, hdb, rfl⟩ := changeCommit_spec hstep
  obtain ⟨husers, hrows, hentries, -⟩ := changePassword_spec hdb
  have hheld : s.Holds (.change c.callId) hash := ⟨c, hc, rfl, by rw [hphase]; rfl⟩
  obtain ⟨-, hle, hne, -⟩ := (h.calls c hc).prepared nowIso hash hphase
  have hformer := @formerHashes_replaced s { s with
    db
    changes := s.changes.erase c.callId
    former := s.replaced c.userId ++ s.former } c.userId rfl
  refine ⟨?_, ?_, ?_, ?_, ?_, ?_⟩
  · refine h.hashes.commit hheld husers rfl rfl ?_ fun c' hc' => (mem_erase.mp hc').1
    intro o x hx
    cases o with
    | reset id => exact ⟨hx, nofun⟩
    | change id =>
      obtain ⟨c', hc', rfl, hhash⟩ := hx
      obtain ⟨hmem, hother⟩ := mem_erase.mp hc'
      exact ⟨⟨c', hmem, rfl, hhash⟩, fun he => hother (HashOwner.change.inj he)⟩
  · intro entry hentry
    rcases hrows entry hentry with hentry | rfl
    · exact h.stamps entry hentry
    · exact hle
  · intro entry hentry other hother huser hsame
    rcases hrows entry hentry with hentry | rfl
    · rcases hrows other hother with hother | rfl
      · exact h.distinct entry hentry other hother huser hsame
      · exact absurd hsame (hne entry hentry)
    · rcases hrows other hother with hother | rfl
      · exact absurd hsame.symm (hne other hother)
      · rfl
  · intro userId hnone
    rw [hformer] at hnone
    split at hnone
    · -- the change has replaced a hash
      obtain ⟨x, hx⟩ := Option.isSome_iff_exists.mp (h.calls c hc).user
      rw [hx] at hnone
      cases hnone
    · next hother =>
      have hfirst := h.first userId hnone
      rw [currentHash_set (s := s) husers, if_neg hother]
      rw [archived, ← hentries userId hother] at hfirst
      exact hfirst
  · intro c' hc'
    obtain ⟨hmem, hother⟩ := mem_erase.mp hc'
    refine (h.calls c' hmem).commit h.hashes hheld husers rfl hmem rfl hentries ?_
    intro preparedAt hash' hphase' entry hentry hsame
    rcases hrows entry hentry with hentry | rfl
    · exact ((h.calls c' hmem).prepared preparedAt hash' hphase').2.2.1 entry hentry hsame
    · obtain rfl : nowIso = preparedAt := hsame
      rw [h.alone c hc c' hmem nowIso hash hash' hphase hphase'] at hother
      exact hother rfl
  · intro c₁ hc₁ c₂ hc₂
    exact h.alone c₁ (mem_erase.mp hc₁).1 c₂ (mem_erase.mp hc₂).1

theorem resetCommit (hc : c ∈ s.resets.rows)
    (hstep : s.resetCommit c = some s') : HistoryInv maxPasswordHistorySize s' := by
  have hhashes := h.hashes.resetCommit hc hstep
  unfold PasswordSystem.resetCommit at hstep
  split at hstep
  · next hash userId hphase =>
    cases hstep
    have hheld : s.Holds (.reset c.callId) hash := ⟨c, hc, rfl, by rw [hphase]; rfl⟩
    refine ⟨hhashes, h.stamps, h.distinct, ?_, ?_, h.alone⟩
    · intro other hnone
      rw [formerHashes_replaced rfl] at hnone
      rw [currentHash_set rfl]
      split at hnone
      · next hsame =>
        -- there was no hash to replace, and nothing is archived
        obtain ⟨hreplaced, hnone⟩ := List.append_eq_nil_iff.mp hnone
        have hfirst := h.first userId hnone
        rw [hreplaced, or_self] at hfirst
        exact .inl (hsame ▸ hfirst)
      · next hne =>
        rw [if_neg hne]
        exact h.first other hnone
    · intro c' hc'
      refine (h.calls c' hc').commit h.hashes hheld rfl rfl hc' rfl (fun _ _ => rfl) ?_
      intro preparedAt hash' hphase'
      exact ((h.calls c' hc').prepared preparedAt hash' hphase').2.2.1
  · cases hstep

theorem run (hentries : ∀ entry ∈ s.db.history.rows, entry.createdAt < s.clock)
    (hothers : ∀ c ∈ s.changes.rows, ∀ nowIso hash, c.phase = .prepared nowIso hash →
      nowIso < s.clock)
    {a : PasswordAction} (hstep : s.run maxPasswordHistorySize a = some s') :
    HistoryInv maxPasswordHistorySize s' := by
  cases a with
  | requestBegin userId tokenHash expiresAt =>
    simp only [PasswordSystem.run, PasswordSystem.requestBegin] at hstep
    split at hstep
    · obtain ⟨requests, -, rfl⟩ := map_eq_some_iff.mp hstep
      exact h.frame (h.hashes.aside rfl rfl rfl rfl rfl) rfl rfl rfl rfl (Int.le_refl _)
    · cases hstep
  | requestUpdate tokenHash =>
    obtain ⟨r, -, hnext⟩ := bind_eq_some_iff.mp hstep
    unfold requestUpdate at hnext
    split at hnext
    · cases hnext
      exact h.frame (h.hashes.aside rfl rfl rfl rfl rfl) rfl rfl rfl rfl (Int.le_refl _)
    · cases hnext
  | requestCommit tokenHash =>
    obtain ⟨r, -, hnext⟩ := bind_eq_some_iff.mp hstep
    obtain ⟨tokens, rfl⟩ := requestCommit_eq hnext
    exact h.frame (h.hashes.aside rfl rfl rfl rfl rfl) rfl rfl rfl rfl (Int.le_refl _)
  | resetBegin callId tokenHash newPassword =>
    obtain ⟨resets, hinsert, rfl⟩ := map_eq_some_iff.mp hstep
    have hhashes : HashInv { s with resets } := by
      refine h.hashes.withResets callId (fun _ hs => hs) fun c hc => ?_
      rw [rows_of_insert? hinsert] at hc
      rcases List.mem_append.mp hc with hc | hc
      · exact .inl hc
      · rw [List.mem_singleton.mp hc]
        refine .inr ⟨rfl, ?_⟩
        intro hash hphase
        cases hphase
    exact h.frame hhashes rfl rfl rfl rfl (Int.le_refl _)
  | resetFind callId salt =>
    obtain ⟨c, hc, hnext⟩ := bind_eq_some_iff.mp hstep
    have hhashes := h.hashes.resetFind (mem_of_find? hc) hnext
    obtain ⟨resets, salts, rfl⟩ := resetFind_eq hnext
    exact h.frame hhashes rfl rfl rfl rfl (Int.le_refl _)
  | resetLocate callId =>
    obtain ⟨c, hc, hnext⟩ := bind_eq_some_iff.mp hstep
    have hhashes := h.hashes.resetLocate (mem_of_find? hc) hnext
    obtain ⟨resets, salts, rfl⟩ := resetLocate_eq hnext
    exact h.frame hhashes rfl rfl rfl rfl (Int.le_refl _)
  | resetValidate callId =>
    obtain ⟨c, hc, hnext⟩ := bind_eq_some_iff.mp hstep
    have hhashes := h.hashes.resetValidate (mem_of_find? hc) hnext
    obtain ⟨resets, salts, rfl⟩ := resetValidate_eq hnext
    exact h.frame hhashes rfl rfl rfl rfl (Int.le_refl _)
  | resetCommit callId =>
    obtain ⟨c, hc, hnext⟩ := bind_eq_some_iff.mp hstep
    exact h.resetCommit (mem_of_find? hc) hnext
  | resetAbort callId =>
    cases hstep
    have hhashes : HashInv { s with resets := s.resets.erase callId } :=
      h.hashes.withResets callId (fun _ hs => hs) fun c hc => .inl (mem_erase.mp hc).1
    exact h.frame hhashes rfl rfl rfl rfl (Int.le_refl _)
  | changeBegin callId userId currentPassword newPassword currentSessionId =>
    exact h.changeBegin hstep
  | changeCheck callId =>
    obtain ⟨c, hc, hnext⟩ := bind_eq_some_iff.mp hstep
    exact h.changeCheck (mem_of_find? hc) hnext
  | changePrepare callId salt =>
    obtain ⟨c, hc, hnext⟩ := bind_eq_some_iff.mp hstep
    exact h.changePrepare hentries hothers (mem_of_find? hc) hnext
  | changeCommit callId =>
    obtain ⟨c, hc, hnext⟩ := bind_eq_some_iff.mp hstep
    exact h.changeCommit (mem_of_find? hc) hnext
  | login row =>
    simp only [PasswordSystem.run] at hstep
    split at hstep
    · cases hstep
    · obtain ⟨sessions, -, rfl⟩ := map_eq_some_iff.mp hstep
      exact h.frame (h.hashes.aside rfl rfl rfl rfl rfl) rfl rfl rfl rfl (Int.le_refl _)

theorem laterStep {a : Int × PasswordAction}
    (hstep : s.laterStep maxPasswordHistorySize a = some s') :
    HistoryInv maxPasswordHistorySize s' := by
  unfold PasswordSystem.laterStep PasswordSystem.step at hstep
  split at hstep
  · next hlater =>
    split at hstep
    · have htick : HistoryInv maxPasswordHistorySize { s with clock := a.1 } :=
        h.frame (h.hashes.aside rfl rfl rfl rfl rfl) rfl rfl rfl rfl (Int.le_of_lt hlater)
      refine htick.run ?_ ?_ hstep
      · exact fun entry hentry => Int.lt_of_le_of_lt (h.stamps entry hentry) hlater
      · intro c hc nowIso hash hphase
        exact Int.lt_of_le_of_lt ((h.calls c hc).prepared nowIso hash hphase).2.1 hlater
    · cases hstep
  · cases hstep

end

end HistoryInv

/-! ## Every run -/

section Step

variable {maxPasswordHistorySize : Nat} {s s' : PasswordSystem}

theorem HashInv.current_notMem (h : HashInv s) {userId : String} {hash : PasswordHash}
    (hcurrent : s.currentHash userId = some hash) (n : Nat) :
    hash ∉ (s.formerHashes userId).take n :=
  fun hmem => h.current userId hash hcurrent hash (List.mem_of_mem_take hmem) rfl

theorem HistoryOk.of_recent (h : HashInv s)
    (hrecent : ∀ userId, s.formerHashes userId ≠ [] →
      s.archived userId = (s.formerHashes userId).take maxPasswordHistorySize) :
    HistoryOk maxPasswordHistorySize s := by
  refine ⟨hrecent, fun userId hsome => ?_⟩
  rw [hrecent userId hsome]
  exact (List.take_sublist _ _).nodup (h.once userId).of_map

theorem HistoryOk.of_same (hok : HistoryOk maxPasswordHistorySize s)
    (hhistory : s'.db.history = s.db.history) (hformer : s'.former = s.former) :
    HistoryOk maxPasswordHistorySize s' := by
  have hsame : ∀ userId, s'.formerHashes userId = s.formerHashes userId := by
    intro userId
    rw [formerHashes, hformer]
    rfl
  refine ⟨fun userId => ?_, fun userId => ?_⟩
  · rw [hsame, archived_congr hhistory]
    exact hok.recent userId
  · rw [hsame, archived_congr hhistory]
    exact hok.once userId

theorem mem_take_cons {hash : PasswordHash} {rest : List PasswordHash} {n : Nat} (hn : 0 < n) :
    hash ∈ (hash :: rest).take n := by
  obtain ⟨n, rfl⟩ := Nat.exists_eq_add_of_lt hn
  rw [Nat.zero_add]
  exact List.mem_cons_self

/-- A change that finds its hash keeps the history right just when the hash is not there yet, or
when there is room for no other. -/
theorem take_archived_iff (hinv : HistoryInv maxPasswordHistorySize s)
    (hok : HistoryOk maxPasswordHistorySize s) (hmax : 0 < maxPasswordHistorySize)
    {userId : String} {hash : PasswordHash} (hcurrent : s.currentHash userId = some hash) :
    (hash :: s.archived userId).take maxPasswordHistorySize =
        (hash :: s.formerHashes userId).take maxPasswordHistorySize ↔
      maxPasswordHistorySize = 1 ∨ hash ∉ s.archived userId := by
  by_cases hnone : s.formerHashes userId = []
  · rcases hinv.first userId hnone with hfirst | hfirst
    · rw [hfirst, hnone]
      exact iff_of_true rfl (.inr List.not_mem_nil)
    · rw [hfirst, hnone, hcurrent, Option.toList_some]
      match maxPasswordHistorySize, hmax with
      | 1, _ => simp
      | n + 2, _ => simp
  · have hrecent := hok.recent userId hnone
    refine iff_of_true ?_ (.inr ?_)
    · rw [hrecent]
      exact take_cons_take hash (s.formerHashes userId) maxPasswordHistorySize
    · rw [hrecent]
      exact hinv.hashes.current_notMem hcurrent maxPasswordHistorySize

/-- A change whose outcome is good has found the hash that it has read. -/
theorem isCurrent_of_recent (hinv : HistoryInv maxPasswordHistorySize s)
    (hok : HistoryOk maxPasswordHistorySize s) (hmax : 0 < maxPasswordHistorySize) {c : ChangeCall}
    (hc : c ∈ s.changes.rows) {hash : PasswordHash} (hcurrent : s.currentHash c.userId = some hash)
    {db : PasswordDb}
    (hrows : ∀ entry ∈ db.history.rows, entry ∈ s.db.history.rows ∨
      entry = ⟨c.callId, c.userId, c.credentials, nowIso⟩)
    (hrecent : (entriesOf db c.userId).map (·.passwordHash) =
      (hash :: s.formerHashes c.userId).take maxPasswordHistorySize) : s.IsCurrent c := by
  by_cases hnone : s.formerHashes c.userId = []
  · -- nothing has been replaced since
    refine (hinv.calls c hc).read.resolve_right ?_
    rw [hnone]
    exact List.not_mem_nil
  · have hwas : hash ∈ (entriesOf db c.userId).map (·.passwordHash) := hrecent ▸ mem_take_cons hmax
    obtain ⟨entry, hentry, hsame⟩ := List.mem_map.mp hwas
    obtain ⟨hentry, hentryUser⟩ := mem_entriesOf.mp hentry
    rcases hrows entry hentry with hold | rfl
    · -- it cannot have been archived before
      have hbefore : hash ∈ s.archived c.userId :=
        hsame ▸ List.mem_map_of_mem (mem_entriesOf.mpr ⟨hold, hentryUser⟩)
      rw [hok.recent c.userId hnone] at hbefore
      exact absurd hbefore (hinv.hashes.current_notMem hcurrent _)
    · exact hcurrent.trans (congrArg some hsame.symm)

/-- A change archives what it replaces, and sets what was not there, if and only if it still finds
the hash that it has read, and finds it not archived or has room for no other. -/
theorem changeCommit_iff (hinv : HistoryInv maxPasswordHistorySize s)
    (hok : HistoryOk maxPasswordHistorySize s) (hmax : 0 < maxPasswordHistorySize)
    {callId : String} {c : ChangeCall} (hc : s.changes.find? callId = some c)
    (hstep : s.changeCommit maxPasswordHistorySize c = some s') :
    (s.IsCurrent c ∧ (maxPasswordHistorySize = 1 ∨ c.credentials ∉ s.archived c.userId)) ↔
      HistoryOk maxPasswordHistorySize s' ∧
        ChangeOk maxPasswordHistorySize s (s.clock, .changeCommit callId) s' := by
  have hmem := mem_of_find? hc
  have hcall := hinv.calls c hmem
  have hhashes := (hinv.changeCommit hmem hstep).hashes
  obtain ⟨hash, hcurrent⟩ := Option.isSome_iff_exists.mp hcall.user
  obtain ⟨nowIso, newHash, db, hphase, hdb, hs'⟩ := changeCommit_spec hstep
  obtain ⟨husers, hrows, hothers, hown⟩ := changePassword_spec hdb
  obtain ⟨hpassword, -, -, hnewer⟩ := hcall.prepared nowIso newHash hphase
  have hdb' : s'.db = db := by rw [hs']
  have hreplaced : s'.former = s.replaced c.userId ++ s.former := by rw [hs']
  have hformer := formerHashes_replaced hreplaced
  rw [hcurrent, Option.toList_some, List.singleton_append] at hformer
  have harchived : s.IsCurrent c → s'.archived c.userId =
      (c.credentials :: s.archived c.userId).take maxPasswordHistorySize := by
    intro hread
    rw [archived, hdb', hown (entriesOf_strict hinv.distinct c.userId) (hnewer hread),
      List.map_take, List.map_cons]
    rfl
  constructor
  · rintro ⟨hread, honce⟩
    obtain rfl := Option.some.inj (hcurrent.symm.trans hread)
    refine ⟨HistoryOk.of_recent hhashes fun userId => ?_, ?_⟩
    · rw [hformer]
      split
      · next hsame =>
        rw [hsame, harchived hread]
        exact fun _ => (take_archived_iff hinv hok hmax hread).mpr honce
      · next hne =>
        rw [archived, hdb', hothers userId hne]
        exact hok.recent userId
    · intro callId' haction c' hc' before hbefore after hafter
      cases haction
      obtain rfl := Option.some.inj (hc.symm.trans hc')
      obtain rfl := Option.some.inj (hcurrent.symm.trans hbefore)
      obtain ⟨user, -, rfl⟩ : ∃ user, s.db.users.find? c.userId = some user ∧ newHash = after := by
        rw [currentHash_set (hdb' ▸ husers), if_pos rfl] at hafter
        exact map_eq_some_iff.mp hafter
      rw [hpassword]
      refine ⟨hcall.differs, ?_⟩
      intro former hformerMem hsame
      have hunused := hcall.checked (by rw [hphase]; exact nofun) hread
      unfold isInHistory getRecentPasswordHashes at hunused
      have hrecent : ((entriesOf s.db c.userId).take maxPasswordHistorySize).map (·.passwordHash) =
          (s.formerHashes c.userId).take maxPasswordHistorySize := by
        rw [List.map_take]
        have hall := hok.recent c.userId (List.ne_nil_of_mem (List.mem_of_mem_take hformerMem))
        rw [archived] at hall
        rw [hall, List.take_take, Nat.min_self]
      rw [hrecent] at hunused
      exact List.any_eq_false.mp hunused former hformerMem (decide_eq_true hsame.symm)
  · rintro ⟨hgood, -⟩
    have hrecent := hgood.recent c.userId
    rw [hformer, if_pos rfl] at hrecent
    have hrecent := hrecent (List.cons_ne_nil _ _)
    have hread := isCurrent_of_recent hinv hok hmax hmem hcurrent hrows (hdb' ▸ hrecent)
    obtain rfl := Option.some.inj (hcurrent.symm.trans hread)
    exact ⟨hread, (take_archived_iff hinv hok hmax hread).mp ((harchived hread).symm.trans hrecent)⟩

theorem historyOk_resetCommit_iff (hinv : HistoryInv maxPasswordHistorySize s)
    (hok : HistoryOk maxPasswordHistorySize s) (hmax : 0 < maxPasswordHistorySize)
    (hc : c ∈ s.resets.rows) (hstep : s.resetCommit c = some s') :
    (∀ userId, c.phase.lock = some userId →
        ∀ hash, s.currentHash userId = some hash → hash ∈ s.archived userId) ↔
      HistoryOk maxPasswordHistorySize s' := by
  have hhashes := hinv.hashes.resetCommit hc hstep
  cases hphase : c.phase with
  | begun | found _ | located _ _ =>
    unfold resetCommit at hstep
    rw [hphase] at hstep
    cases hstep
  | validated newHash userId =>
    have hreplaced : s'.former = s.replaced userId ++ s.former ∧
        ∀ other, s'.archived other = s.archived other := by
      unfold resetCommit at hstep
      rw [hphase] at hstep
      cases hstep
      exact ⟨rfl, fun _ => rfl⟩
    have hformer := formerHashes_replaced hreplaced.1
    constructor
    · intro hthere
      refine HistoryOk.of_recent hhashes fun other => ?_
      rw [hformer, hreplaced.2]
      split
      · next hsame =>
        subst hsame
        cases hcurrent : s.currentHash other with
        | none => exact hok.recent other
        | some hash =>
          -- only the hash of the registration is archived before it is replaced
          have hmem := hthere other rfl hash hcurrent
          have hnone : s.formerHashes other = [] := by
            by_contra hsome
            rw [hok.recent other hsome] at hmem
            exact hinv.hashes.current_notMem hcurrent _ hmem
          rcases hinv.first other hnone with hfirst | hfirst
          · rw [hfirst] at hmem
            cases hmem
          · intro _
            rw [hfirst, hnone, hcurrent]
            exact (List.take_of_length_le hmax).symm
      · exact hok.recent other
    · rintro hgood _ ⟨⟩ hash hcurrent
      have hrecent := hgood.recent userId
      rw [hformer, if_pos rfl, hcurrent, hreplaced.2] at hrecent
      rw [hrecent (List.cons_ne_nil _ _)]
      exact mem_take_cons hmax

theorem replacesOnce_iff (hmax : 0 < maxPasswordHistorySize)
    (hinv : HistoryInv maxPasswordHistorySize s) (hok : HistoryOk maxPasswordHistorySize s)
    {a : Int × PasswordAction} (hstep : s.laterStep maxPasswordHistorySize a = some s') :
    ReplacesOnce maxPasswordHistorySize s a ↔
      HistoryOk maxPasswordHistorySize s' ∧ ChangeOk maxPasswordHistorySize s a s' := by
  obtain ⟨now, action⟩ := a
  unfold laterStep step at hstep
  split at hstep
  · next hlater =>
    split at hstep
    · have hinv' : HistoryInv maxPasswordHistorySize { s with clock := now } :=
        hinv.frame (hinv.hashes.aside rfl rfl rfl rfl rfl) rfl rfl rfl rfl (Int.le_of_lt hlater)
      have hok' : HistoryOk maxPasswordHistorySize { s with clock := now } := hok.of_same rfl rfl
      cases action with
      | requestCommit tokenHash =>
        obtain ⟨r, -, hnext⟩ := bind_eq_some_iff.mp hstep
        obtain ⟨tokens, rfl⟩ := requestCommit_eq hnext
        exact iff_of_true trivial ⟨hok.of_same rfl rfl, nofun⟩
      | resetCommit callId =>
        obtain ⟨c, hc, hnext⟩ := bind_eq_some_iff.mp hstep
        have hiff := historyOk_resetCommit_iff hinv' hok' hmax (mem_of_find? hc) hnext
        constructor
        · intro hgone
          exact ⟨hiff.mp (hgone c hc), nofun⟩
        · rintro ⟨hgood, -⟩ c' hc'
          obtain rfl := Option.some.inj (hc.symm.trans hc')
          exact hiff.mpr hgood
      | changeCommit callId =>
        obtain ⟨c, hc, hnext⟩ := bind_eq_some_iff.mp hstep
        have hiff := changeCommit_iff hinv' hok' hmax hc hnext
        constructor
        · intro hcurrent
          exact hiff.mp (hcurrent c hc)
        · intro hgood c' hc'
          obtain rfl := Option.some.inj (hc.symm.trans hc')
          exact hiff.mpr hgood
      | _ =>
        obtain ⟨sessions, requests, resets, changes, salts, rfl⟩ :=
          quiet_run hstep nofun nofun nofun
        exact iff_of_true trivial ⟨hok.of_same rfl rfl, nofun⟩
    · cases hstep
  · cases hstep

end Step

/-- **Recent passwords are kept exactly where each is archived once.** In every interleaving at
increasing times that goes through, from accounts as registration leaves them: once a password of a
user has been replaced, the user's history is the list of the last hashes that were, each once, and
no change sets a password that it replaces or that is among the last ones before — if and only if
every reset replaces a hash that is archived (that of the registration), and every change the hash
that it has read, which is not archived yet unless there is room for one only.
`PASSWORD_HISTORY_SIZE` is positive, or the program does not start. -/
theorem recent_passwords_kept (maxPasswordHistorySize : Nat) (hmax : 0 < maxPasswordHistorySize)
    (users : Table String UserCredentials (·.userId)) (as : List (Int × PasswordAction))
    (s : PasswordSystem)
    (hrun : exec (PasswordSystem.laterStep maxPasswordHistorySize) (PasswordSystem.start users) as =
      some s) :
    (Always (PasswordSystem.laterStep maxPasswordHistorySize) (HistoryOk maxPasswordHistorySize)
          (PasswordSystem.start users) as ∧
        EachStep (PasswordSystem.laterStep maxPasswordHistorySize)
          (ChangeOk maxPasswordHistorySize) (PasswordSystem.start users) as) ↔
      Along (PasswordSystem.laterStep maxPasswordHistorySize) (ReplacesOnce maxPasswordHistorySize)
        (PasswordSystem.start users) as := by
  have hstart : HistoryOk maxPasswordHistorySize (PasswordSystem.start users) :=
    ⟨fun _ h => absurd rfl h, fun _ h => absurd rfl h⟩
  exact along_iff_good (fun _ _ _ h hstep => HistoryInv.laterStep h hstep)
    (fun _ _ _ hinv hok hstep => replacesOnce_iff hmax hinv hok hstep) hrun
    (HistoryInv.start maxPasswordHistorySize users) hstart

def adasChange (now : Int) (callId currentPassword newPassword salt : String) :
    List (Int × PasswordAction) :=
  [(now, .changeBegin callId "ada" currentPassword newPassword "s1"),
    (now + 1, .changeCheck callId), (now + 2, .changePrepare callId salt),
    (now + 3, .changeCommit callId)]

def resetByAda (now : Int) (tokenHash callId newPassword salt : String) :
    List (Int × PasswordAction) :=
  [(now, .requestBegin "ada" tokenHash 900), (now + 1, .requestUpdate tokenHash),
    (now + 2, .requestCommit tokenHash), (now + 3, .resetBegin callId tokenHash newPassword),
    (now + 4, .resetFind callId salt), (now + 5, .resetLocate callId),
    (now + 6, .resetValidate callId), (now + 7, .resetCommit callId)]

/-- Ada's first password goes with a reset, and two changes follow. -/
theorem recent_passwords_kept_reset :
    let as : List (Int × PasswordAction) :=
      resetByAda 1 "t1" "c1" "second" "pepper" ++ adasChange 9 "c2" "second" "third" "sugar" ++
        adasChange 13 "c3" "third" "fourth" "mint"
    Always (PasswordSystem.laterStep 5) (HistoryOk 5) (PasswordSystem.start adasUsers) as ∧
      EachStep (PasswordSystem.laterStep 5) (ChangeOk 5) (PasswordSystem.start adasUsers) as := by
  intro as
  obtain ⟨s, hrun⟩ : ∃ s, exec (PasswordSystem.laterStep 5) (PasswordSystem.start adasUsers) as =
    some s := Option.isSome_iff_exists.mp (by decide +kernel)
  exact (recent_passwords_kept 5 (by decide) adasUsers as s hrun).mpr (by decide +kernel)

/-- Ada changes her first password, and it is archived a second time. And she resets her password
twice, and changes it back to the second one. -/
theorem recent_passwords_lost :
    ¬ Always (PasswordSystem.laterStep 5) (HistoryOk 5) (PasswordSystem.start adasUsers)
        (adasChange 1 "c1" "first" "second" "pepper") ∧
      ¬ EachStep (PasswordSystem.laterStep 5) (ChangeOk 5) (PasswordSystem.start adasUsers)
        (resetByAda 1 "t1" "c1" "second" "pepper" ++ resetByAda 9 "t2" "c2" "third" "sugar" ++
          adasChange 17 "c3" "third" "second" "mint") := by
  constructor
  · intro h
    obtain ⟨t, hok, hread⟩ := h.read (fun t => (t.archived "ada", t.formerHashes "ada"))
      ([⟨"first", "salt"⟩, ⟨"first", "salt"⟩], [⟨"first", "salt"⟩]) (by decide +kernel)
    obtain ⟨htwice, hformer⟩ := Prod.mk.inj hread
    have honce := hok.once "ada" (by rw [hformer]; decide)
    rw [htwice] at honce
    exact absurd honce (by decide)
  · intro h
    obtain ⟨m, t, hok, hread, hafter⟩ := h.read
      (resetByAda 1 "t1" "c1" "second" "pepper" ++ resetByAda 9 "t2" "c2" "third" "sugar" ++
        [(17, .changeBegin "c3" "ada" "third" "second" "s1"), (18, .changeCheck "c3"),
          (19, .changePrepare "c3" "mint")]) (20, .changeCommit "c3") (List.prefix_refl _)
      (fun m => (m.changes.find? "c3", m.currentHash "ada", m.formerHashes "ada"))
      (some ⟨"c3", "ada", "second", "s1", ⟨"third", "sugar"⟩, .prepared 19 ⟨"second", "mint"⟩⟩,
        some ⟨"third", "sugar"⟩, [⟨"second", "pepper"⟩, ⟨"first", "salt"⟩])
      (fun t => t.currentHash "ada") (some ⟨"second", "mint"⟩)
      (by decide +kernel) (by decide +kernel)
    obtain ⟨hcall, hread⟩ := Prod.mk.inj hread
    obtain ⟨hbefore, hformer⟩ := Prod.mk.inj hread
    have hunused := (hok "c3" rfl _ hcall _ hbefore _ hafter).2
    rw [hformer] at hunused
    exact absurd rfl (hunused ⟨"second", "pepper"⟩ (by decide))

end QuizBackend.Auth
