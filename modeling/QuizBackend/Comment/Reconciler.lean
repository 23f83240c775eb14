import QuizBackend.Comment.Threads
import QuizBackend.Lib.Extension
import Mathlib.Data.List.Dedup

/-!
# The reconciler of the reply counters

`reconcileCounters` of `comment.repository.ts` is one `UPDATE comments … FROM` the number of replies of
each parent. The numbers are those of the snapshot the statement begins with, and so is the choice of
the rows; each row is then locked in turn, and updated if its counter still differs from the number.

The numbers are grouped by parent, so a comment without replies has none, and its counter is never
repaired: alone, the reconciler makes all counters right just if those of the comments without replies
are 0. A counter that is right is not chosen, so whatever the requests do meanwhile, it stays right
(`reconcileCounters_repairs`).
-/

namespace QuizBackend.Comment.Reconciler

open Lib Comment.Threads Table Contract Store

/-! ## The statement -/

/-- `SELECT parent_comment_id, COUNT(*) … GROUP BY parent_comment_id`. -/
def counts (s : Store) : List (Uuid × Int) :=
  let parents := (s.comments.rows.filter CommentRow.notDeleted).filterMap
    CommentRow.parentCommentId
  parents.dedup.map fun p => (p, (parents.count p : Int))

def drifted (s : Store) : List (Uuid × Int) :=
  (counts s).filter fun g => (s.comments.find? g.1).any fun row => row.repliesCount ≠ g.2

/-- `SET replies_count = counts.cnt, updated_at = NOW()`. -/
def withCount (row : CommentRow) (cnt now : Int) : CommentRow :=
  { row with repliesCount := cnt, updatedAt := now }

inductive Part where
  | select
  | update (commentId : Uuid) (cnt now : Int)

abbrev Part.Reply : Part → Type
  | select => List (Uuid × Int)
  | update .. => Bool

def execPart (s : Store) : (q : Part) → Option (Effect RowLock Write q.Reply)
  | .select => some ⟨drifted s, [], []⟩
  | .update commentId cnt now =>
    match s.comments.find? commentId with
    | none => some ⟨false, [], []⟩
    | some row =>
      if row.repliesCount = cnt then some ⟨false, [.comment commentId], []⟩
      else some ⟨true, [.comment commentId], [.comment (withCount row cnt now)]⟩

abbrev parts (rejectsNullableLock : Bool) : Extension (commentEngine rejectsNullableLock) where
  Ask := Part
  Reply := Part.Reply
  exec := execPart

abbrev reconcilerEngine (rejectsNullableLock : Bool) : Engine :=
  (commentEngine rejectsNullableLock).extend (parts rejectsNullableLock)

instance (rejectsNullableLock : Bool) : DecidableEq (reconcilerEngine rejectsNullableLock).Lock :=
  inferInstanceAs (DecidableEq RowLock)

structure Plan where
  order : List (Uuid × Int) → List (Uuid × Int)
  perm : ∀ l, (order l).Perm l

section Programs

variable {rejectsNullableLock : Bool}

def ask (q : Part) : Program (reconcilerEngine rejectsNullableLock) Thrown q.Reply :=
  Program.askMore (parts rejectsNullableLock) .tx q

/-- The rows one after another; how many are returned. -/
def updateRows (now : Int) :
    List (Uuid × Int) → Program (reconcilerEngine rejectsNullableLock) Thrown Nat
  | [] => pure 0
  | g :: rest => do
    let updated ← ask (.update g.1 g.2 now)
    let n ← updateRows now rest
    pure (n + updated.toNat)

def reconcileCounters (plan : Plan) (now : Int) :
    Program (reconcilerEngine rejectsNullableLock) Thrown Nat :=
  .transactionally do
    let selected ← ask .select
    updateRows now (plan.order selected)

end Programs

inductive Job where
  | request (request : Request)
  | reconcileCounters (plan : Plan) (now : Int)

inductive Result where
  | request (value : Value)
  | reconciled (replies : Nat)

def Job.program (rejectsNullableLock : Bool) :
    Job → Program (reconcilerEngine rejectsNullableLock) Thrown Result
  | .request r => do
    let value ← (r.program rejectsNullableLock).lift (parts rejectsNullableLock)
    pure (.request value)
  | .reconcileCounters plan now => do
    let replies ← Reconciler.reconcileCounters plan now
    pure (.reconciled replies)

abbrev System (rejectsNullableLock : Bool) : Type :=
  TxSystem (reconcilerEngine rejectsNullableLock) Thrown Result

abbrev System.step (rejectsNullableLock : Bool) :
    System rejectsNullableLock → TxAction Job Outside → Option (System rejectsNullableLock) :=
  TxSystem.step (Job.program rejectsNullableLock) Outside.apply

/-! ## Which rows are chosen -/

variable {g : Uuid × Int} {row : CommentRow}

section Chosen

variable {s : Store}

theorem count_parents (p : Uuid) :
    ((s.comments.rows.filter CommentRow.notDeleted).filterMap CommentRow.parentCommentId).count p
      = s.replies p := by
  rw [List.count_filterMap, List.countP_filter, replies]
  rfl

theorem mem_counts : g ∈ counts s ↔ g.2 = s.replies g.1 ∧ 0 < s.replies g.1 := by
  simp only [counts, List.mem_map, List.mem_dedup, count_parents]
  constructor
  · rintro ⟨p, hp, rfl⟩
    exact ⟨rfl, count_parents p ▸ List.count_pos_iff.mpr hp⟩
  · rintro ⟨hcount, hpos⟩
    exact ⟨g.1, List.count_pos_iff.mp ((count_parents g.1).symm ▸ hpos), by rw [← hcount]⟩

theorem mem_drifted : g ∈ drifted s ↔ g.2 = s.replies g.1 ∧ 0 < s.replies g.1 ∧
    ∃ row, s.comments.find? g.1 = some row ∧ row.repliesCount ≠ s.replies g.1 := by
  rw [drifted, List.mem_filter, mem_counts, and_assoc]
  refine and_congr_right fun hcount => and_congr_right fun _ => ?_
  simp [Option.any_eq_true, hcount]

theorem nodup_drifted : ((drifted s).map Prod.fst).Nodup := by
  refine List.Nodup.sublist (List.Sublist.map Prod.fst List.filter_sublist) ?_
  rw [counts, List.map_map]
  exact (List.map_id _).symm ▸ List.nodup_dedup _

end Chosen

/-! ## What is written -/

section Written

variable {touched : Uuid → Prop} {s t : Store}

structure Repaired (touched : Uuid → Prop) (s t : Store) : Prop where
  row : ∀ id, t.comments.find? id = s.comments.find? id ∨ touched id ∧
    ∃ row cnt now, s.comments.find? id = some row ∧
      t.comments.find? id = some (withCount row cnt now)
  replies : ∀ id, t.replies id = s.replies id
  rest : { t with comments := s.comments } = s

theorem Repaired.refl : Repaired touched s s := ⟨fun _ => .inl rfl, fun _ => rfl, rfl⟩

section

variable (h : Repaired touched s t)
include h

theorem Repaired.old {id : Uuid} (hrow : t.comments.find? id = some row) :
    ∃ old, s.comments.find? id = some old ∧ row.parentCommentId = old.parentCommentId ∧
      row.notDeleted = old.notDeleted ∧ ∀ cnt now, withCount row cnt now = withCount old cnt now := by
  rcases h.row id with heq | ⟨-, old, cnt, now, hold, hnew⟩
  · exact ⟨row, heq ▸ hrow, rfl, rfl, fun _ _ => rfl⟩
  · obtain rfl := Option.some.inj (hrow.symm.trans hnew)
    exact ⟨old, hold, rfl, rfl, fun _ _ => rfl⟩

theorem Repaired.isSome {id : Uuid} :
    (t.comments.find? id).isSome = (s.comments.find? id).isSome := by
  rcases h.row id with heq | ⟨-, old, cnt, now, hold, hnew⟩
  · rw [heq]
  · rw [hold, hnew]
    rfl

theorem Repaired.write {cnt now : Int}
    (hrow : s.comments.find? row.commentId = some row) (htouched : touched row.commentId) :
    Repaired touched s (t.write (.comment (withCount row cnt now))) := by
  have hsome := @Repaired.isSome _ _ _ h row.commentId
  rw [hrow] at hsome
  obtain ⟨current, hcurrent⟩ := Option.isSome_iff_exists.mp hsome
  obtain ⟨old, hold, hparent, hdeleted, -⟩ := h.old hcurrent
  obtain rfl := Option.some.inj (hrow.symm.trans hold)
  refine ⟨fun id => ?_, fun id => ?_, h.rest⟩
  · rw [find?_write_comment]
    split
    · next heq =>
      subst heq
      exact .inr ⟨htouched, row, cnt, now, hrow, rfl⟩
    · exact h.row id
  · have hfind : t.comments.find? (withCount row cnt now).commentId = some current := hcurrent
    have hreplies := replies_write_comment hfind id
    have hweight : replyWeight (withCount row cnt now) id = replyWeight current id :=
      replyWeight_congr hparent.symm hdeleted.symm id
    rw [hweight] at hreplies
    have hsame := h.replies id
    omega

theorem Repaired.trans_write {ws : List Write}
    (hws : ∀ w ∈ ws, ∃ row cnt now, w = .comment (withCount row cnt now) ∧
      s.comments.find? row.commentId = some row ∧ touched row.commentId) :
    Repaired touched s (ws.foldl Store.write t) := by
  induction ws generalizing t with
  | nil => exact h
  | cons w ws ih =>
    obtain ⟨row, cnt, now, rfl, hrow, htouched⟩ := hws w List.mem_cons_self
    exact ih (h.write hrow htouched) fun w' hw' => hws w' (List.mem_cons_of_mem _ hw')

theorem Repaired.parented (hs : Parented s) : Parented t := by
  intro row hrow p hp
  obtain ⟨old, hold, hparent, -⟩ := h.old (find?_of_mem hrow)
  rw [h.isSome]
  exact hs old (mem_of_find? hold) p (hparent ▸ hp)

theorem Repaired.countedOff {id : Uuid} {k : Int} (hid : ¬ touched id)
    (hs : CountedOff id k s) : CountedOff id k t := by
  intro row hrow
  rw [h.replies]
  refine hs row ?_
  rcases h.row id with heq | ⟨htouched, -⟩
  · exact heq ▸ hrow
  · exact absurd htouched hid

end

end Written

/-! ## A right counter stays right -/

def counterContract (rejectsNullableLock : Bool) (p : Uuid) :
    Contract (commentEngine rejectsNullableLock) where
  Slice := Option CommentRow × Nat
  slice := fun l s =>
    match l with
    | .comment commentId => thread s commentId
    | .vote _ | .report _ => (none, 0)
  inv := fun s => Parented s ∧ CountedOff p 0 s
  due := fun _ _ => True

section Keep

variable {rejectsNullableLock : Bool} {p : Uuid}

theorem counterContract_keepsThreads : KeepsThreads (counterContract rejectsNullableLock p) where
  due _ _ := trivial
  slice_eq_iff {l s t} := by
    cases l with
    | comment commentId => simp [counterContract]
    | vote pair => simp [counterContract]
    | report reportId => simp [counterContract]
  congr {s t} hinv hcomments := by
    obtain ⟨hparented, hcounted⟩ := hinv
    refine ⟨?_, fun row hrow => ?_⟩
    · rw [Parented, hcomments]
      exact hparented
    · rw [replies, hcomments]
      exact hcounted row (hcomments ▸ hrow)
  parent {s row q} hinv hrow hq :=
    Option.isSome_iff_exists.mp (hinv.1 row (mem_of_find? hrow) q hq)
  update {s row old} hinv hold hparent _ hdeleted hcount :=
    ⟨hinv.1.update hold hparent,
      hinv.2.update hold (replyWeight_congr hparent hdeleted p) hcount⟩
  deleteTop {s row} now hinv hrow htop := by
    have hfind : s.comments.find? (row.withDeleted now).commentId = some row := hrow
    refine ⟨hinv.1.update hfind rfl, hinv.2.update hfind ?_ rfl⟩
    exact (replyWeight_deleted rfl p).trans (replyWeight_top htop p).symm
  deleteReply {s row parent q now} hinv hrow hq hdeleted hparent := by
    have hfind : s.comments.find? (row.withDeleted now).commentId = some row := hrow
    obtain rfl := key_of_find? hparent
    have hcounted : CountedOff p (if p = parent.commentId then -1 else 0)
        (s.write (.comment (row.withDeleted now))) := by
      refine (hinv.2.write_comment hfind).congr ?_
      rw [replyWeight_reply hq hdeleted, replyWeight_deleted rfl]
      show _ + _ - _ + (if p = row.commentId then row.repliesCount - row.repliesCount else 0) = _
      rw [sub_self, ite_self]
      split <;> omega
    exact ⟨(hinv.1.update hfind rfl).update hparent rfl, hcounted.withReplies hparent⟩
  insertTop {s commentId} quizId authorId body now hinv hnone :=
    ⟨hinv.1.write_comment fun _ h => (by cases h),
      (hinv.2.insert hinv.1 hnone rfl).congr (replyWeight_top rfl p)⟩
  insertReply {s parent commentId quizId authorId q body now} hinv hnone htakes hparent := by
    obtain rfl := key_of_find? hparent
    obtain ⟨old, hold, -⟩ := htakes.row
    refine ⟨Parented.update (hinv.1.write_comment fun q' hq' => ?_) hparent rfl, ?_⟩
    · obtain rfl : parent.commentId = q' := Option.some.inj hq'
      exact Option.isSome_of_eq_some hold
    · exact ((hinv.2.insert hinv.1 hnone rfl).congr (replyWeight_reply rfl rfl p)).withReplies hparent

def Repairs (p : Uuid) (locks : List RowLock) (writes : List Write) (s : Store) : Prop :=
  ∀ w ∈ writes, ∃ row cnt now, w = .comment (withCount row cnt now) ∧
    s.comments.find? row.commentId = some row ∧
    (RowLock.comment row.commentId ∈ locks ∧ row.commentId ≠ p)

section Repairs

variable {locks : List RowLock} {writes : List Write} {s t : Store}

section

variable (h : Repairs p locks writes s)
include h

theorem Repairs.repaired :
    Repaired (fun id => RowLock.comment id ∈ locks ∧ id ≠ p) s (writes.foldl Store.write s) :=
  Repaired.refl.trans_write h

theorem Repairs.of_agree (hagree : (counterContract rejectsNullableLock p).Agree locks s t) :
    Repairs p locks writes t := by
  intro w hw
  obtain ⟨row, cnt, now, rfl, hrow, hlock, hne⟩ := h w hw
  have hsame := counterContract_keepsThreads.find? hagree hlock
  exact ⟨row, cnt, now, rfl, hsame.trans hrow, hlock, hne⟩

theorem Repairs.keeps (hinv : (counterContract rejectsNullableLock p).inv s) :
    (counterContract rejectsNullableLock p).Keeps locks s (writes.foldl write s) := by
  have hrepaired := h.repaired
  refine counterContract_keepsThreads.keeps
    ⟨hrepaired.parented hinv.1, hrepaired.countedOff (fun htouched => htouched.2 rfl) hinv.2⟩
    fun id hl => ?_
  rcases hrepaired.row id with heq | ⟨htouched, -⟩
  · rw [thread, thread, heq, hrepaired.replies]
  · exact absurd htouched.1 hl

theorem Repairs.update {now : Int} (hne : g.1 ≠ p)
    {e : Effect RowLock Write Bool}
    (he : execPart (writes.foldl write s) (.update g.1 g.2 now) = some e) :
    Repairs p (locks ++ e.locks) (writes ++ e.writes) s := by
  have hmore : ∀ more, Repairs p (locks ++ more) writes s := fun more w hw => by
    obtain ⟨row, cnt, now, rfl, hrow, hlock, hne⟩ := h w hw
    exact ⟨row, cnt, now, rfl, hrow, List.mem_append_left _ hlock, hne⟩
  simp only [execPart] at he
  split at he
  · obtain rfl := Option.some.inj he
    show Repairs p (locks ++ []) (writes ++ []) s
    rw [List.append_nil writes]
    exact hmore []
  · next row hrow =>
    split at he
    · obtain rfl := Option.some.inj he
      show Repairs p (locks ++ _) (writes ++ []) s
      rw [List.append_nil]
      exact hmore _
    · obtain rfl := Option.some.inj he
      obtain ⟨old, hold, -, -, hcount⟩ := h.repaired.old hrow
      have hkey : old.commentId = g.1 := key_of_find? hold
      intro w hw
      rcases List.mem_append.mp hw with hw | hw
      · exact hmore _ w hw
      · refine ⟨old, g.2, now, ?_, hkey ▸ hold, ?_, hkey ▸ hne⟩
        · rw [List.mem_singleton.mp hw, hcount]
        · rw [hkey]
          exact List.mem_append_right _ (List.mem_singleton.mpr rfl)

end

theorem wp_updateRows {now : Int} {gs : List (Uuid × Int)} (hgs : ∀ g ∈ gs, g.1 ≠ p)
    {Q : Nat → List RowLock → List Write → Store → Prop}
    (hQ : ∀ n locks writes s, Repairs p locks writes s → Q n locks writes s)
    (h : Repairs p locks writes s) :
    ((counterContract rejectsNullableLock p).extend (parts rejectsNullableLock)).wp
      (updateRows now gs) Q locks writes s := by
  induction gs generalizing locks writes s Q with
  | nil => exact hQ 0 _ _ _ h
  | cons g gs ih =>
    rw [updateRows, wp_bind]
    refine wp_askMore.mpr fun s' hagree _ e he => ?_
    rw [wp_bind]
    refine ih (fun g' hg' => hgs g' (List.mem_cons_of_mem _ hg')) (fun n _ _ _ hn => ?_)
      ((h.of_agree hagree).update (hgs g List.mem_cons_self) he)
    exact hQ _ _ _ _ hn

end Repairs

theorem safe_reconcileCounters (plan : Plan) (now : Int) (s : Store) :
    ((counterContract rejectsNullableLock p).extend (parts rejectsNullableLock)).Safe
      (Job.program rejectsNullableLock (.reconcileCounters plan now)) [] [] s := by
  refine wp_bind.mpr ?_
  rw [reconcileCounters, wp_transactionally, wp_bind]
  refine wp_askMore.mpr fun s' _ hinv e he => ?_
  obtain rfl := Option.some.inj he
  refine wp_updateRows (fun g hg heq => ?_) (fun n locks writes t hrepairs t' hagree hinv' => ?_)
    (fun w hw => absurd hw List.not_mem_nil)
  · obtain ⟨-, -, row, hrow, hdiffers⟩ := mem_drifted.mp ((plan.perm _).mem_iff.mp hg)
    subst heq
    have hwrong : row.repliesCount ≠ replies s' g.1 := hdiffers
    have hright := hinv.2 row hrow
    omega
  · exact ⟨(hrepairs.of_agree hagree).keeps hinv', trivial⟩

theorem counter_kept : ((counterContract rejectsNullableLock p).extend
    (parts rejectsNullableLock)).Kept (Job.program rejectsNullableLock) Outside.apply := by
  refine ⟨fun job s hinv => ?_, fun o s hs => ?_⟩
  · cases job with
    | request r =>
      refine wp_bind.mpr (wp_lift.mpr ?_)
      exact safe_program counterContract_keepsThreads r s
    | reconcileCounters plan now => exact safe_reconcileCounters plan now s
  · cases o with
    | setQuizzes quizzes => exact counterContract_keepsThreads.of_eq (.refl hs) rfl
    | setUsers users => exact counterContract_keepsThreads.of_eq (.refl hs) rfl

end Keep

/-! ## Alone -/

def repair (now : Int) (s : Store) (row : CommentRow) : CommentRow :=
  if 0 < s.replies row.commentId ∧ row.repliesCount ≠ s.replies row.commentId then
    withCount row (s.replies row.commentId) now
  else row

def repairs (now : Int) (s : Store) (gs : List (Uuid × Int)) : List Write :=
  gs.filterMap fun g => (s.comments.find? g.1).map fun row => .comment (withCount row g.2 now)

section Alone

variable {s t : Store} {now : Int} {gs : List (Uuid × Int)}

@[simp] theorem commentId_repair (row : CommentRow) : (repair now s row).commentId = row.commentId := by
  rw [repair]
  split <;> rfl

theorem repairs_cons (h : s.comments.find? g.1 = some row) :
    repairs now s (g :: gs) = .comment (withCount row g.2 now) :: repairs now s gs := by
  rw [repairs, List.filterMap_cons, h, Option.map_some]
  rfl

theorem find?_repairs_of_not_mem {id : Uuid} (h : id ∉ gs.map Prod.fst) :
    ((repairs now s gs).foldl write t).comments.find? id = t.comments.find? id := by
  induction gs generalizing t with
  | nil => rfl
  | cons g gs ih =>
    rw [List.map_cons, List.mem_cons, not_or] at h
    cases hrow : s.comments.find? g.1 with
    | none =>
      rw [repairs, List.filterMap_cons, hrow]
      exact ih h.2
    | some row =>
      have hkey : row.commentId = g.1 := key_of_find? hrow
      rw [repairs_cons hrow, List.foldl_cons, ih h.2, find?_write_comment, if_neg]
      exact fun heq => h.1 (heq.trans hkey)

theorem find?_repairs_of_mem {id : Uuid} (hrow : s.comments.find? id = some row)
    (hcounts : ∀ g ∈ gs, g.2 = s.replies g.1) (h : id ∈ gs.map Prod.fst) :
    ((repairs now s gs).foldl write t).comments.find? id
      = some (withCount row (s.replies id) now) := by
  induction gs generalizing t with
  | nil => exact absurd h List.not_mem_nil
  | cons g gs ih =>
    have hrest : ∀ g' ∈ gs, g'.2 = s.replies g'.1 := fun g' hg' =>
      hcounts g' (List.mem_cons_of_mem g hg')
    by_cases hlater : id ∈ gs.map Prod.fst
    · rw [repairs, List.filterMap_cons]
      split
      · exact ih hrest hlater
      · exact ih hrest hlater
    · obtain rfl : id = g.1 := (List.mem_cons.mp h).resolve_right hlater
      have hkey : g.1 = (withCount row g.2 now).commentId := (key_of_find? hrow).symm
      rw [repairs_cons hrow, List.foldl_cons, find?_repairs_of_not_mem hlater, find?_write_comment,
        if_pos hkey, hcounts g List.mem_cons_self]

variable {rejectsNullableLock : Bool}

theorem alone_updateRows (now : Int) (done : List (Uuid × Int)) (hnodup : ((done ++ gs).map Prod.fst).Nodup)
    (hgs : ∀ g ∈ gs, ∃ row, s.comments.find? g.1 = some row ∧ row.repliesCount ≠ g.2)
    (locks : List RowLock)
    (k : Nat → Program (reconcilerEngine rejectsNullableLock) Thrown Result) :
    ∃ locks', ((updateRows now gs).bind k).alone locks (repairs now s done) s
      = (k gs.length).alone locks' (repairs now s (done ++ gs)) s := by
  induction gs generalizing done locks k with
  | nil =>
    rw [List.append_nil]
    exact ⟨locks, rfl⟩
  | cons g gs ih =>
    obtain ⟨row, hrow, hdiffers⟩ := hgs g List.mem_cons_self
    have hassoc : done ++ g :: gs = done ++ [g] ++ gs := by simp
    have hnew : g.1 ∉ done.map Prod.fst := by
      rw [List.map_append, List.map_cons, List.nodup_append] at hnodup
      exact fun hmem => hnodup.2.2 _ hmem _ List.mem_cons_self rfl
    -- the row is as it was: what has been written so far are other rows
    have hview : ((repairs now s done).foldl write s).comments.find? g.1 = some row :=
      (find?_repairs_of_not_mem hnew).trans hrow
    have hexec : execPart ((repairs now s done).foldl write s) (.update g.1 g.2 now)
        = some ⟨true, [.comment g.1], [.comment (withCount row g.2 now)]⟩ := by
      simp only [execPart, hview, if_neg hdiffers]
    have hwrites : repairs now s done ++ [.comment (withCount row g.2 now)]
        = repairs now s (done ++ [g]) := by
      rw [repairs, repairs, List.filterMap_append, List.filterMap_cons, hrow]
      rfl
    obtain ⟨locks', hrest⟩ := ih (done ++ [g]) (hassoc ▸ hnodup)
      (fun g' hg' => hgs g' (List.mem_cons_of_mem g hg')) (locks ++ [.comment g.1])
      fun n => k (n + 1)
    refine ⟨locks', ?_⟩
    have hstep : ((updateRows now (g :: gs)).bind k).alone locks (repairs now s done) s
        = (((updateRows now gs).bind fun n => pure (n + 1)).bind k).alone
            (locks ++ [.comment g.1])
            (repairs now s done ++ [.comment (withCount row g.2 now)]) s :=
      Program.alone_tx (E := reconcilerEngine rejectsNullableLock)
        (q := .inr (.update g.1 g.2 now)) (repairs now s done) s hexec
    rw [hstep, Program.bind_assoc, hwrites, hassoc]
    exact hrest

def reconciled (plan : Plan) (now : Int) (s : Store) : Store :=
  (repairs now s (plan.order (drifted s))).foldl write s

theorem mem_order {plan : Plan} : g ∈ plan.order (drifted s) ↔ g ∈ drifted s :=
  (plan.perm _).mem_iff

theorem alone_reconcileCounters (rejectsNullableLock : Bool) (plan : Plan) (now : Int) (s : Store) :
    (Job.program rejectsNullableLock (.reconcileCounters plan now)).alone [] [] s
      = .result (.ok (.reconciled (drifted s).length)) (reconciled plan now s) := by
  have hnodup : (([] ++ plan.order (drifted s)).map Prod.fst).Nodup :=
    ((plan.perm _).map Prod.fst).nodup_iff.mpr nodup_drifted
  have hgs : ∀ g ∈ plan.order (drifted s), ∃ row,
      s.comments.find? g.1 = some row ∧ row.repliesCount ≠ g.2 := fun g hg => by
    obtain ⟨hcount, -, row, hrow, hdiffers⟩ := mem_drifted.mp (mem_order.mp hg)
    exact ⟨row, hrow, hcount ▸ hdiffers⟩
  let k : Nat → Program (reconcilerEngine rejectsNullableLock) Thrown Result := fun n =>
    .commit (pure (.reconciled n))
  obtain ⟨locks', hrows⟩ := alone_updateRows now [] hnodup hgs [] k
  have hassoc : Job.program rejectsNullableLock (.reconcileCounters plan now)
      = (ask .select).bind fun selected => (updateRows now (plan.order selected)).bind k := by
    show Program.bind (Program.bind (Program.bind _ _) _) _ = _
    rw [Program.bind_assoc, Program.bind_assoc]
    rfl
  rw [hassoc]
  refine hrows.trans ?_
  rw [(plan.perm _).length_eq]
  rfl

theorem repaired_reconciled (plan : Plan) (now : Int) (s : Store) :
    Repaired (fun _ => True) s (reconciled plan now s) := by
  refine Repaired.refl.trans_write fun w hw => ?_
  obtain ⟨g, -, hw⟩ := List.mem_filterMap.mp hw
  obtain ⟨row, hrow, rfl⟩ := Option.map_eq_some_iff.mp hw
  exact ⟨row, g.2, now, rfl, key_of_find? hrow ▸ hrow, trivial⟩

theorem find?_reconciled (plan : Plan) (now : Int) (s : Store) (id : Uuid) :
    (reconciled plan now s).comments.find? id = (s.comments.find? id).map (repair now s) := by
  have hkeys : id ∈ (plan.order (drifted s)).map Prod.fst ↔ ∃ row,
      s.comments.find? id = some row ∧ 0 < s.replies id ∧ row.repliesCount ≠ s.replies id := by
    constructor
    · intro h
      obtain ⟨g, hg, rfl⟩ := List.mem_map.mp h
      obtain ⟨-, hpos, row, hrow, hdiffers⟩ := mem_drifted.mp (mem_order.mp hg)
      exact ⟨row, hrow, hpos, hdiffers⟩
    · rintro ⟨row, hrow, hpos, hdiffers⟩
      have hg : (id, (s.replies id : Int)) ∈ drifted s :=
        mem_drifted.mpr ⟨rfl, hpos, row, hrow, hdiffers⟩
      exact List.mem_map.mpr ⟨_, mem_order.mpr hg, rfl⟩
  cases hrow : s.comments.find? id with
  | none =>
    have hnot : id ∉ (plan.order (drifted s)).map Prod.fst := by
      rw [hkeys, hrow]
      rintro ⟨row, h, -⟩
      cases h
    rw [reconciled, find?_repairs_of_not_mem hnot, hrow]
    rfl
  | some row =>
    obtain rfl : row.commentId = id := key_of_find? hrow
    by_cases hchosen : 0 < s.replies row.commentId ∧ row.repliesCount ≠ s.replies row.commentId
    · rw [reconciled, find?_repairs_of_mem hrow (fun g hg => (mem_drifted.mp (mem_order.mp hg)).1)
        (hkeys.mpr ⟨row, hrow, hchosen⟩), Option.map_some, repair, if_pos hchosen]
    · have hnot : row.commentId ∉ (plan.order (drifted s)).map Prod.fst := by
        rw [hkeys, hrow]
        rintro ⟨row', h, hchosen'⟩
        obtain rfl := Option.some.inj h
        exact hchosen hchosen'
      rw [reconciled, find?_repairs_of_not_mem hnot, hrow, Option.map_some, repair, if_neg hchosen]

/-- Every comment counts its replies. -/
def AllCounted (s : Store) : Prop :=
  ∀ row ∈ s.comments.rows, row.repliesCount = s.replies row.commentId

theorem allCounted_reconciled_iff (plan : Plan) (now : Int) (s : Store) :
    AllCounted (reconciled plan now s) ↔
      ∀ row ∈ s.comments.rows, s.replies row.commentId = 0 → row.repliesCount = 0 := by
  have hreplies := (repaired_reconciled plan now s).replies
  have hrows : AllCounted (reconciled plan now s) ↔ ∀ row ∈ s.comments.rows,
      (repair now s row).repliesCount = s.replies row.commentId := by
    constructor
    · intro h row hrow
      have hfind := find?_reconciled plan now s row.commentId
      rw [find?_of_mem hrow, Option.map_some] at hfind
      have hright := h _ (mem_of_find? hfind)
      rwa [hreplies, commentId_repair] at hright
    · intro h row' hrow'
      have hfind := find?_reconciled plan now s row'.commentId
      rw [find?_of_mem hrow'] at hfind
      obtain ⟨row, hrow, rfl⟩ := Option.map_eq_some_iff.mp hfind.symm
      rw [hreplies, commentId_repair]
      exact h row (mem_of_find? hrow)
  rw [hrows]
  refine forall₂_congr fun row _ => ?_
  rw [repair]
  split
  · next h =>
    have hpos := h.1
    exact iff_of_true rfl fun hzero => absurd hzero (by omega)
  · next h =>
    rw [not_and_or, not_lt, not_ne_iff] at h
    omega

end Alone

/-! ## The reconciler and the requests -/

/-- **What the reconciler does.** Alone it replaces the counters that differ from a number of replies
other than 0 and touches nothing else, so it makes all counters right just if those of the comments
without replies are 0. Beside the requests and beside itself, a counter that is right stays right. -/
theorem reconcileCounters_repairs (rejectsNullableLock : Bool) (plan : Plan) (now : Int)
    (sessionId : String) {db : Store} (hdb : Parented db) :
    (∃ (σ : System rejectsNullableLock) (n : Nat) (t : Store),
      System.step rejectsNullableLock (TxSystem.start db)
        (.begin sessionId (.reconcileCounters plan now)) = some σ ∧
      TxSystem.Answered (Job.program rejectsNullableLock) Outside.apply σ sessionId
        (.ok (.reconciled n)) t ∧
      { t with comments := db.comments } = db ∧
      (∀ id, t.comments.find? id = (db.comments.find? id).map (repair now db)) ∧
      (AllCounted t ↔
        ∀ row ∈ db.comments.rows, db.replies row.commentId = 0 → row.repliesCount = 0)) ∧
    ∀ p, (∀ row, db.comments.find? p = some row → row.repliesCount = db.replies p) →
      ∀ as (s : System rejectsNullableLock),
        exec (System.step rejectsNullableLock) (TxSystem.start db) as = some s →
          ∀ row, (s.store : Store).comments.find? p = some row →
            row.repliesCount = Store.replies s.store p := by
  constructor
  · obtain ⟨σ, hbegin, rfl, hrows⟩ := TxSystem.start_begin (Job.program rejectsNullableLock)
      Outside.apply db sessionId (.reconcileCounters plan now)
    have halone := alone_reconcileCounters rejectsNullableLock plan now σ.store
    exact ⟨σ, _, _, hbegin, (TxSystem.answered_iff hrows _ _).mpr halone,
      (repaired_reconciled plan now σ.store).rest, find?_reconciled plan now σ.store,
      allCounted_reconciled_iff plan now σ.store⟩
  · intro p hright as s hrun row hrow
    have hcounted : CountedOff p 0 db := fun row hrow => (add_zero _).trans (hright row hrow)
    have hstart : ((counterContract rejectsNullableLock p).extend (parts rejectsNullableLock)).Inv
        (TxSystem.start db : System rejectsNullableLock) := .start ⟨hdb, hcounted⟩
    have hend := (hstart.exec counter_kept hrun).inv.2 row hrow
    omega

def drifting : Store where
  comments := ⟨[{ newComment 20 7 1 none "Nice one" 5 with repliesCount := 3 }], by decide⟩
  votes := empty _
  reports := empty _
  users := [1]
  quizzes := [7]
  audit := []

def Plan.inOrder : Plan := ⟨id, fun _ => List.Perm.refl _⟩

/-- The reconciler leaves it. -/
theorem drifting_stays : ∃ σ s : System false,
    System.step false (TxSystem.start drifting) (.begin "r" (.reconcileCounters .inOrder 9)) = some σ ∧
      exec (System.step false) σ (List.replicate 3 (.proceed "r")) = some s ∧
      s.ended = [("r", .result (.ok (.reconciled 0)))] ∧
      ∃ row, (s.store : Store).comments.find? 20 = some row ∧ row.repliesCount = 3 ∧
        Store.replies s.store 20 = 0 :=
  ⟨_, _, rfl, rfl, rfl, _, rfl, rfl, rfl⟩

def halfRight : Store where
  comments := ⟨[{ newComment 20 7 1 none "Nice one" 5 with repliesCount := 1 },
    newComment 21 7 2 (some 20) "It is" 6, { newComment 30 7 1 none "Next" 7 with repliesCount := 5 },
    newComment 31 7 2 (some 30) "Well" 8], by decide⟩
  votes := empty _
  reports := empty _
  users := [1, 2, 3]
  quizzes := [7]
  audit := []

theorem parented_halfRight : Parented halfRight := by
  have hall : ∀ row ∈ halfRight.comments.rows,
      row.parentCommentId.all fun p => (halfRight.comments.find? p).isSome := by decide
  intro row hrow p hp
  have hparent := hall row hrow
  rw [hp] at hparent
  exact hparent

def nightly : List (TxAction Job Outside) :=
  (.begin "r" (.reconcileCounters .inOrder 9) :: .proceed "r" ::
    .begin "c" (.request (.createComment 22 7 3 (some 20) "Really" 9)) ::
    List.replicate 8 (.proceed "c") : List (TxAction Job Outside)) ++
  (List.replicate 3 (.proceed "r") : List (TxAction Job Outside))

/-- Both counters are right in the end. -/
theorem reconcileCounters_repairs_nightly : ∃ s : System false,
    exec (System.step false) (TxSystem.start halfRight) nightly = some s ∧
      ((s.store : Store).comments.find? 20).map CommentRow.repliesCount = some 2 ∧
      ((s.store : Store).comments.find? 30).map CommentRow.repliesCount = some 1 ∧
      ∀ row, (s.store : Store).comments.find? 20 = some row →
        row.repliesCount = Store.replies s.store 20 := by
  refine exists_of_read
    (fun s => (((s.store : Store).comments.find? 20).map CommentRow.repliesCount,
      ((s.store : Store).comments.find? 30).map CommentRow.repliesCount))
    (some 2, some 1) (by decide +kernel) fun s hs hread => ?_
  obtain ⟨hfirst, hsecond⟩ := Prod.mk.injEq .. ▸ hread
  refine ⟨hfirst, hsecond, ?_⟩
  refine (reconcileCounters_repairs false .inOrder 9 "r" parented_halfRight).2 20 ?_ nightly s hs
  intro row hrow
  obtain rfl := Option.some.inj hrow
  rfl

end QuizBackend.Comment.Reconciler
