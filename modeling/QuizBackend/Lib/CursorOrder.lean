import QuizBackend.Lib.Keyset

/-!
# A list in one order, a cursor in another

A list is read a page at a time, with one row more than fits on the page to see whether there is a next
one. A page is made of the rows that are past the cursor, in the order of the list, and the next cursor
is read off its last row. Nothing says that the rows past that cursor are the ones that come next. The
pages hold the list just when this is so at every border between two pages (`pages_iff`): a row that is
past the border although it stands before it would come again at once, and one that stands after it and
is not past it never comes.
-/

namespace QuizBackend.Lib

variable {ρ γ ε : Type}

/-- A page, where `rows` has a row more than fits on it if there are more. -/
def lookAhead (cursorOf : ρ → γ) (limit : Nat) (rows : List ρ) : List ρ × Option γ :=
  let hasNextPage := limit < rows.length
  let items := if hasNextPage then rows.take limit else rows
  (items, if hasNextPage then items.getLast?.map cursorOf else none)

/-- The rows past the cursor; all of them without one. -/
def after (past : γ → ρ → Bool) (rows : List ρ) (cursor : Option γ) : List ρ :=
  rows.filter fun r => cursor.all fun c => past c r

/-- What `n` requests bring, from a cursor on, if the last one comes to the last page. -/
def walk (fetch : Option γ → Except ε (List ρ × Option γ)) (n : Nat) (cursor : Option γ) :
    Option (List ρ) :=
  follow (fun (_ : Unit) (_ : Unit) cursor => (fetch cursor, ())) (List.replicate n ()) () cursor

/-- Whoever follows the cursors from the first page on comes to a last page, and has been given this
list. -/
def PagesInOrder (fetch : Option γ → Except ε (List ρ × Option γ)) (rows : List ρ) : Prop :=
  ∃ n, walk fetch n none = some rows

/-- **At each border between two pages** the rows that are past the last row of the page are the ones
that come after it. -/
def BordersAgree (past : γ → ρ → Bool) (cursorOf : ρ → γ) (limit : Nat) (rows : List ρ) : Prop :=
  ∀ k, k * limit + limit < rows.length → ∀ border, rows[k * limit + limit - 1]? = some border →
    rows.filter (past (cursorOf border)) = rows.drop (k * limit + limit)

section Page

variable {past : γ → ρ → Bool} {cursorOf : ρ → γ} {limit : Nat} {rows : List ρ}

@[simp] theorem after_none : after past rows none = rows :=
  List.filter_eq_self.mpr fun _ _ => rfl

theorem lookAhead_last (h : rows.length ≤ limit) :
    lookAhead cursorOf limit (rows.take (limit + 1)) = (rows, none) := by
  have hall : rows.take (limit + 1) = rows := List.take_of_length_le (Nat.le_succ_of_le h)
  simp only [lookAhead, hall, if_neg (Nat.not_lt_of_le h)]

theorem lookAhead_more (h : limit < rows.length) :
    lookAhead cursorOf limit (rows.take (limit + 1)) =
      (rows.take limit, (rows.take limit).getLast?.map cursorOf) := by
  have hlong : limit < (rows.take (limit + 1)).length := by
    rw [List.length_take]
    omega
  have hpage : (rows.take (limit + 1)).take limit = rows.take limit := by
    rw [List.take_take, Nat.min_eq_left (Nat.le_succ limit)]
  simp only [lookAhead, if_pos hlong, hpage]

theorem getLast?_take (hlimit : 0 < limit) (h : limit < rows.length) :
    (rows.take limit).getLast? = rows[limit - 1]? := by
  rw [List.getLast?_eq_getElem?, List.length_take, Nat.min_eq_left (Nat.le_of_lt h),
    List.getElem?_take_of_lt (Nat.sub_one_lt_of_lt hlimit)]

/-- What is picked from a list is a final part of it if it has all of that part and begins with it. -/
theorem filter_eq_drop {p : ρ → Bool} {m : Nat} (hnodup : rows.Nodup)
    (hhead : (rows.filter p).head? = (rows.drop m).head?) (hpart : ∀ r ∈ rows.drop m, p r = true) :
    rows.filter p = rows.drop m := by
  have hsplit : (rows.take m).filter p ++ (rows.drop m).filter p = rows.filter p := by
    rw [← List.filter_append, List.take_append_drop]
  have hlater : (rows.drop m).filter p = rows.drop m := List.filter_eq_self.mpr hpart
  rw [hlater] at hsplit
  cases hearlier : (rows.take m).filter p with
  | nil => rw [← hsplit, hearlier, List.nil_append]
  | cons r others =>
    -- it begins with a row of the first part
    rw [← hsplit, hearlier, List.cons_append, List.head?_cons] at hhead
    have hfirst : r ∈ rows.take m :=
      List.mem_of_mem_filter (hearlier ▸ List.mem_cons_self : r ∈ (rows.take m).filter p)
    have hsecond : r ∈ rows.drop m := List.mem_of_mem_head? hhead.symm
    rw [← List.take_append_drop m rows] at hnodup
    exact absurd rfl ((List.nodup_append.mp hnodup).2.2 r hfirst r hsecond)

end Page

/-! ## From page to page -/

section Walk

variable {fetch other : Option γ → Except ε (List ρ × Option γ)} {rows : List ρ}

theorem pages_of_last (h : fetch none = .ok (rows, none)) : PagesInOrder fetch rows :=
  ⟨1, follow_last (congrArg (fun page => (page, ())) h)⟩

theorem not_pages_of_dead {page : List ρ} {next : γ} (hfirst : fetch none = .ok (page, some next))
    (hdead : ∀ answer, fetch (some next) = .ok answer → answer = ([], none))
    (hmore : page.length < rows.length) : ¬ PagesInOrder fetch rows := by
  rintro ⟨n, h⟩
  cases n with
  | zero => cases h
  | succ n =>
    rw [walk, List.replicate_succ, follow_next (congrArg (fun answer => (answer, ())) hfirst)] at h
    obtain ⟨others, hothers, rfl⟩ := Option.map_eq_some_iff.mp h
    cases n with
    | zero => cases hothers
    | succ n =>
      rw [List.replicate_succ, follow] at hothers
      cases hsecond : fetch (some next) with
      | error e =>
        rw [hsecond] at hothers
        cases hothers
      | ok answer =>
        rw [hsecond, hdead answer hsecond] at hothers
        cases hothers
        rw [List.append_nil] at hmore
        exact absurd hmore (lt_irrefl _)

theorem pages_congr {P : Option γ → Prop} (hnone : P none) (hsame : ∀ c, P c → fetch c = other c)
    (hnext : ∀ c items next, other c = .ok (items, some next) → P (some next)) :
    PagesInOrder fetch rows ↔ PagesInOrder other rows := by
  have hwalk : ∀ n c, P c → walk fetch n c = walk other n c := by
    intro n
    induction n with
    | zero => exact fun _ _ => rfl
    | succ n ih =>
      intro c hc
      rw [walk, walk, List.replicate_succ, follow, follow, hsame c hc]
      cases hanswer : other c with
      | error e => rfl
      | ok answer =>
        obtain ⟨items, next⟩ := answer
        cases next with
        | none => rfl
        | some next => exact congrArg (Option.map (items ++ ·)) (ih _ (hnext c items next hanswer))
  simp only [PagesInOrder, hwalk _ none hnone]

/-- What is made of the rows pages like the rows. -/
theorem pages_map {α : Type} (f : ρ → α) (h : PagesInOrder fetch rows) :
    PagesInOrder (fun c => (fetch c).map fun page => (page.1.map f, page.2)) (rows.map f) := by
  obtain ⟨n, h⟩ := h
  refine ⟨n, ?_⟩
  have hwalk : ∀ n c, walk (fun c => (fetch c).map fun page => (page.1.map f, page.2)) n c =
      (walk fetch n c).map (List.map f) := by
    intro n
    induction n with
    | zero => exact fun _ => rfl
    | succ n ih =>
      intro c
      rw [walk, walk, List.replicate_succ, follow, follow]
      cases fetch c with
      | error e => rfl
      | ok answer =>
        obtain ⟨items, _ | next⟩ := answer
        · rfl
        · refine (congrArg (Option.map (items.map f ++ ·)) (ih (some next))).trans ?_
          simp only [Option.map_map, Function.comp_def, List.map_append]
          rfl
  rw [hwalk, h, Option.map_some]

theorem walk_of_le {n m : Nat} {cursor : Option γ} {items : List ρ} (hle : n ≤ m)
    (h : walk fetch n cursor = some items) : walk fetch m cursor = some items := by
  induction n generalizing m cursor items with
  | zero => cases h
  | succ n ih =>
    obtain ⟨m, rfl⟩ : ∃ k, m = k + 1 := ⟨m - 1, by omega⟩
    rw [walk, List.replicate_succ, follow] at h ⊢
    cases hanswer : fetch cursor with
    | error e =>
      rw [hanswer] at h
      cases h
    | ok answer =>
      obtain ⟨page, next⟩ := answer
      rw [hanswer] at h
      cases next with
      | none => exact h
      | some next =>
        obtain ⟨others, hothers, rfl⟩ := Option.map_eq_some_iff.mp h
        exact Option.map_eq_some_iff.mpr ⟨others, ih (Nat.le_of_succ_le_succ hle) hothers, rfl⟩

/-- A service that changes between the requests, and answers those it gets as one that does not. -/
theorem follow_eq_walk {τ : Type} {changing : τ → Option γ → Except ε (List ρ × Option γ)}
    {P : Option γ → Prop} {t : τ} {ts : List τ} (hfirst : changing t none = other none)
    (hsame : ∀ t ∈ ts, ∀ c, P c → changing t c = other c)
    (hnext : ∀ c items next, other c = .ok (items, some next) → P (some next)) :
    follow (fun t (_ : Unit) c => (changing t c, ())) (t :: ts) () none =
      walk other (ts.length + 1) none := by
  have hlater : ∀ c, P c →
      follow (fun t (_ : Unit) c => (changing t c, ())) ts () c = walk other ts.length c := by
    clear hfirst
    induction ts with
    | nil => exact fun _ _ => rfl
    | cons t ts ih =>
      intro c hc
      rw [List.length_cons, walk, List.replicate_succ, follow, follow,
        hsame t List.mem_cons_self c hc]
      cases hanswer : other c with
      | error e => rfl
      | ok answer =>
        obtain ⟨items, next⟩ := answer
        cases next with
        | none => rfl
        | some next =>
          have hrest := ih (fun t ht => hsame t (List.mem_cons_of_mem _ ht)) _ (hnext c items next hanswer)
          exact congrArg (Option.map (items ++ ·)) hrest
  rw [walk, List.replicate_succ, follow, follow, hfirst]
  cases hanswer : other none with
  | error e => rfl
  | ok answer =>
    obtain ⟨items, next⟩ := answer
    cases next with
    | none => rfl
    | some next => exact congrArg (Option.map (items ++ ·)) (hlater _ (hnext none items next hanswer))

end Walk

section Pages

variable {past : γ → ρ → Bool} {cursorOf : ρ → γ} {limit : Nat} {rows : List ρ}

def request (ε : Type) (past : γ → ρ → Bool) (cursorOf : ρ → γ) (limit : Nat) (rows : List ρ)
    (cursor : Option γ) : Except ε (List ρ × Option γ) :=
  .ok (lookAhead cursorOf limit ((after past rows cursor).take (limit + 1)))

theorem cursorOf_of_request {cursor : Option γ} {items : List ρ} {next : γ}
    (h : request ε past cursorOf limit rows cursor = .ok (items, some next)) :
    ∃ r ∈ rows, next = cursorOf r := by
  have hnext : (lookAhead cursorOf limit ((after past rows cursor).take (limit + 1))).2 = some next :=
    congrArg Prod.snd (Except.ok.inj h)
  simp only [lookAhead] at hnext
  split at hnext
  · obtain ⟨r, hlast, rfl⟩ := Option.map_eq_some_iff.mp hnext
    have hpage := List.mem_of_mem_take (List.mem_of_mem_take (List.mem_of_getLast? hlast))
    exact ⟨r, List.mem_of_mem_filter hpage, rfl⟩
  · cases hnext

variable {n : Nat} {cursor : Option γ} {items : List ρ}

section

variable (hlimit : 0 < limit)
include hlimit

theorem walk_request (h : walk (request ε past cursorOf limit rows) n cursor = some items) :
    ∃ m, n = m + 1 ∧
      (items = after past rows cursor ∧ (after past rows cursor).length ≤ limit ∨
        limit < (after past rows cursor).length ∧
          ∃ border others, (after past rows cursor)[limit - 1]? = some border ∧
            items = (after past rows cursor).take limit ++ others ∧
            walk (request ε past cursorOf limit rows) m (some (cursorOf border)) = some others) := by
  cases n with
  | zero => cases h
  | succ m =>
    refine ⟨m, rfl, ?_⟩
    rw [walk, List.replicate_succ] at h
    by_cases hshort : (after past rows cursor).length ≤ limit
    · have hpage : request ε past cursorOf limit rows cursor = .ok (after past rows cursor, none) :=
        congrArg Except.ok (lookAhead_last hshort)
      rw [follow_last (congrArg (fun page => (page, ())) hpage)] at h
      exact .inl ⟨(Option.some.inj h).symm, hshort⟩
    · have hlong := Nat.lt_of_not_le hshort
      have hlast := getLast?_take hlimit hlong
      obtain ⟨border, hborder⟩ : ∃ border, (after past rows cursor)[limit - 1]? = some border :=
        ⟨_, List.getElem?_eq_getElem (Nat.lt_of_le_of_lt (Nat.sub_le limit 1) hlong)⟩
      have hpage : request ε past cursorOf limit rows cursor =
          .ok ((after past rows cursor).take limit, some (cursorOf border)) := by
        rw [request, lookAhead_more hlong, hlast, hborder, Option.map_some]
      rw [follow_next (congrArg (fun page => (page, ())) hpage)] at h
      obtain ⟨others, hothers, rfl⟩ := Option.map_eq_some_iff.mp h
      exact .inr ⟨hlong, border, others, hborder, rfl, hothers⟩

theorem head?_of_walk (h : walk (request ε past cursorOf limit rows) n cursor = some items) :
    items.head? = (after past rows cursor).head? := by
  obtain ⟨m, -, ⟨rfl, -⟩ | ⟨hlong, -, others, -, rfl, -⟩⟩ := walk_request hlimit h
  · rfl
  · cases hrows : after past rows cursor with
    | nil =>
      rw [hrows] at hlong
      exact absurd hlong (Nat.not_lt_zero limit)
    | cons r rest =>
      obtain ⟨k, rfl⟩ := Nat.exists_eq_succ_of_ne_zero (Nat.ne_of_gt hlimit)
      rfl

/-- And all of them are past it, where what is past a row that is past a cursor is past the cursor. -/
theorem mem_after_of_walk
    (htrans : ∀ c, ∀ r ∈ rows, ∀ x, past c r = true → past (cursorOf r) x = true → past c x = true)
    (h : walk (request ε past cursorOf limit rows) n cursor = some items) {r : ρ}
    (hr : r ∈ items) : r ∈ after past rows cursor := by
  induction n generalizing cursor items with
  | zero => cases h
  | succ n ih =>
    obtain ⟨m, hm, ⟨rfl, -⟩ | ⟨-, border, others, hborder, rfl, hothers⟩⟩ := walk_request hlimit h
    · exact hr
    · cases hm
      rcases List.mem_append.mp hr with hpage | hlater
      · exact List.mem_of_mem_take hpage
      · obtain ⟨hrow, hpast⟩ := List.mem_filter.mp (ih hothers hlater)
        refine List.mem_filter.mpr ⟨hrow, ?_⟩
        cases cursor with
        | none => rfl
        | some c =>
          obtain ⟨hmem, hfirst⟩ := List.mem_filter.mp (List.mem_of_getElem? hborder)
          exact htrans c border hmem r hfirst hpast

/-- Where the cursor leaves the rows from page `k` on, and these are the answers, the borders from there
on agree. -/
theorem agree_of_walk (hnodup : rows.Nodup)
    (htrans : ∀ c, ∀ r ∈ rows, ∀ x, past c r = true → past (cursorOf r) x = true → past c x = true) {k : Nat}
    (hleft : after past rows cursor = rows.drop (k * limit))
    (h : walk (request ε past cursorOf limit rows) n cursor = some (rows.drop (k * limit)))
    {j : Nat} (hj : k ≤ j) (hlong : j * limit + limit < rows.length) {border : ρ}
    (hborder : rows[j * limit + limit - 1]? = some border) :
    rows.filter (past (cursorOf border)) = rows.drop (j * limit + limit) := by
  induction n generalizing cursor k with
  | zero => cases h
  | succ n ih =>
    have hkj : k * limit ≤ j * limit := Nat.mul_le_mul_right limit hj
    obtain ⟨m, hm, ⟨-, hshort⟩ | ⟨-, first, others, hfirst, hitems, hothers⟩⟩ := walk_request hlimit h
    · rw [hleft, List.length_drop] at hshort
      omega
    · cases hm
      rw [hleft] at hfirst hitems
      -- the other answers are what comes after the page
      have hdrop : rows.drop (k * limit + limit) = others := by
        have hsplit := List.take_append_drop limit (rows.drop (k * limit))
        rw [List.drop_drop] at hsplit
        exact List.append_cancel_left (hsplit.trans hitems)
      subst hdrop
      have hnext : rows.filter (past (cursorOf first)) = rows.drop (k * limit + limit) := by
        refine filter_eq_drop hnodup (head?_of_walk hlimit hothers).symm fun r hr => ?_
        exact (List.mem_filter.mp (mem_after_of_walk hlimit htrans hothers hr)).2
      rw [List.getElem?_drop] at hfirst
      rcases Nat.eq_or_lt_of_le hj with rfl | hlt
      · have hindex : k * limit + (limit - 1) = k * limit + limit - 1 := by omega
        rw [hindex, hborder] at hfirst
        cases hfirst
        exact hnext
      · rw [← Nat.succ_mul] at hnext hothers
        exact @ih (some (cursorOf first)) (k + 1) hnext hothers hlt

/-- **The pages hold the list just when the cursors agree with it at the borders.** -/
theorem pages_iff_bordersAgree (hnodup : rows.Nodup)
    (htrans : ∀ c, ∀ r ∈ rows, ∀ x, past c r = true → past (cursorOf r) x = true → past c x = true) :
    PagesInOrder (request ε past cursorOf limit rows) rows ↔
      BordersAgree past cursorOf limit rows := by
  have hall : rows.drop (0 * limit) = rows := by rw [Nat.zero_mul, List.drop_zero]
  constructor
  · rintro ⟨n, hwalk⟩ j hlong border hborder
    have hfirst : after past rows none = rows.drop (0 * limit) := after_none.trans hall.symm
    exact agree_of_walk hlimit hnodup htrans hfirst (hwalk.trans (congrArg some hall.symm))
      (Nat.zero_le j) hlong hborder
  · intro hagree
    -- a cursor that leaves the rows from some page on comes with a page of these, and leaves the rest
    have hstep : ∀ (_ : Unit) (_ : Unit) cursor, (∃ k, after past rows cursor = rows.drop (k * limit)) →
        ∃ next s', (request ε past cursorOf limit rows cursor, ()) =
            (.ok ((after past rows cursor).take limit, next), s') ∧
          ((after past rows cursor).length ≤ limit → next = none) ∧
          (limit < (after past rows cursor).length → next.isSome ∧
            (∃ k, after past rows next = rows.drop (k * limit)) ∧
            after past rows next = (after past rows cursor).drop limit) := by
      rintro - - cursor ⟨k, hk⟩
      by_cases hshort : (after past rows cursor).length ≤ limit
      · refine ⟨none, (), ?_, fun _ => rfl, fun hlong => absurd hshort (Nat.not_le_of_lt hlong)⟩
        rw [request, lookAhead_last hshort, List.take_of_length_le hshort]
      · have hlong := Nat.lt_of_not_le hshort
        obtain ⟨border, hborder⟩ : ∃ border, (after past rows cursor)[limit - 1]? = some border :=
          ⟨_, List.getElem?_eq_getElem (Nat.lt_of_le_of_lt (Nat.sub_le limit 1) hlong)⟩
        have hnext : after past rows (some (cursorOf border)) = rows.drop (k * limit + limit) := by
          rw [hk, List.length_drop] at hlong
          rw [hk, List.getElem?_drop] at hborder
          have hindex : k * limit + (limit - 1) = k * limit + limit - 1 := by omega
          exact hagree k (by omega) border (hindex ▸ hborder)
        refine ⟨some (cursorOf border), (), ?_, fun h => absurd h hshort, fun _ => ⟨rfl, ?_, ?_⟩⟩
        · rw [request, lookAhead_more hlong, getLast?_take hlimit hlong, hborder, Option.map_some]
        · exact ⟨k + 1, by rw [hnext, Nat.succ_mul]⟩
        · rw [hnext, hk, List.drop_drop]
    refine ⟨rows.length + 1, ?_⟩
    have henough : (after past rows none).length ≤
        limit * (List.replicate (rows.length + 1) ()).length := by
      rw [after_none, List.length_replicate]
      exact Nat.le_trans (Nat.le_succ _) (Nat.le_mul_of_pos_left _ hlimit)
    have hlist := follow_eq hstep (List.cons_ne_nil () _) ⟨0, after_none.trans hall.symm⟩ henough ()
    rw [after_none] at hlist
    exact hlist

end

end Pages

theorem bordersAgree_of_pairwise {past : γ → ρ → Bool} {cursorOf : ρ → γ} {limit : Nat} {rows : List ρ}
    (hlimit : 0 < limit) (hself : ∀ r ∈ rows, past (cursorOf r) r = false)
    (hsorted : rows.Pairwise fun r x => past (cursorOf r) x = true ∧ past (cursorOf x) r = false) :
    BordersAgree past cursorOf limit rows := by
  intro k hlong border hborder
  have hm : k * limit + limit - 1 < rows.length := Nat.lt_of_le_of_lt (Nat.sub_le _ 1) hlong
  have hsucc : k * limit + limit = k * limit + limit - 1 + 1 := by omega
  have hsplit : rows = rows.take (k * limit + limit - 1) ++ border :: rows.drop (k * limit + limit) := by
    rw [List.getElem?_eq_getElem hm, Option.some.injEq] at hborder
    have hdrop := List.drop_eq_getElem_cons hm
    rw [hborder, ← hsucc] at hdrop
    rw [← hdrop, List.take_append_drop]
  generalize rows.take (k * limit + limit - 1) = before at hsplit
  generalize rows.drop (k * limit + limit) = later at hsplit ⊢
  subst hsplit
  obtain ⟨-, hlater, hbefore⟩ := List.pairwise_append.mp hsorted
  have hnone : before.filter (past (cursorOf border)) = [] := by
    refine List.filter_eq_nil_iff.mpr fun r hr => ?_
    rw [(hbefore r hr border List.mem_cons_self).2]
    exact Bool.false_ne_true
  have hrest : later.filter (past (cursorOf border)) = later :=
    List.filter_eq_self.mpr fun r hr => ((List.pairwise_cons.mp hlater).1 r hr).1
  rw [List.filter_append, hnone, List.filter_cons,
    hself border (List.mem_append_right _ List.mem_cons_self), if_neg Bool.false_ne_true, hrest,
    List.nil_append]

theorem pages_iff_of_keys {κ κ' : Type} [LinearOrder κ] [LinearOrder κ'] {order : ρ → κ} {key : ρ → κ'}
    {keyOf : γ → κ'} {cursorOf : ρ → γ} {limit : Nat} {rows : List ρ} (hlimit : 0 < limit)
    (hkey : ∀ r ∈ rows, keyOf (cursorOf r) = key r) (hnodup : (rows.map order).Nodup) :
    PagesInOrder
        (request ε (fun c r => decide (key r < keyOf c)) cursorOf limit (descending order rows))
        (descending order rows) ↔
      BordersAgree (fun c r => decide (key r < keyOf c)) cursorOf limit (descending order rows) := by
  have hrows : (descending order rows).Nodup :=
    (descending_perm order rows).nodup_iff.mpr (List.Nodup.of_map _ hnodup)
  refine pages_iff_bordersAgree hlimit hrows fun c r hmem x hr hx => ?_
  rw [decide_eq_true_iff] at hr hx ⊢
  exact (hkey r (mem_descending.mp hmem) ▸ hx).trans hr

theorem bordersAgree_descending {κ : Type} [LinearOrder κ] {key : ρ → κ} {keyOf : γ → κ}
    {cursorOf : ρ → γ} {limit : Nat} {rows : List ρ} (hlimit : 0 < limit)
    (hkey : ∀ r ∈ rows, keyOf (cursorOf r) = key r) (hnodup : (rows.map key).Nodup) :
    BordersAgree (fun c r => decide (key r < keyOf c)) cursorOf limit (descending key rows) := by
  refine bordersAgree_of_pairwise hlimit (fun r hr => ?_)
    ((strict_descending hnodup).imp_of_mem fun {r x} hr hx hlt => ?_)
  · rw [hkey r (mem_descending.mp hr)]
    exact decide_eq_false (lt_irrefl _)
  · rw [hkey r (mem_descending.mp hr), hkey x (mem_descending.mp hx)]
    exact ⟨decide_eq_true hlt, decide_eq_false (lt_asymm hlt)⟩

theorem pages_descending {κ : Type} [LinearOrder κ] {key : ρ → κ} {keyOf : γ → κ} {cursorOf : ρ → γ}
    {limit : Nat} {rows : List ρ} (hlimit : 0 < limit) (hkey : ∀ r ∈ rows, keyOf (cursorOf r) = key r)
    (hnodup : (rows.map key).Nodup) :
    PagesInOrder (request ε (fun c r => decide (key r < keyOf c)) cursorOf limit (descending key rows))
      (descending key rows) :=
  (pages_iff_of_keys hlimit hkey hnodup).mpr (bordersAgree_descending hlimit hkey hnodup)

end QuizBackend.Lib
