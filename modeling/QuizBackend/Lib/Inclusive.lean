import QuizBackend.Lib.Keyset

/-!
# Inclusive cursors

A list is asked for in the descending order of a key that rows may share, a page at a time. The database
is free in how it orders rows with the same key, and may do it differently each time (`OrderBy`). Where
the cursor is the key of the last row of a page and the next page begins with the rows that are *not
after* it, the rows from the cursor on all come (`mem_of_follow`), among them the row the cursor is taken
from, which has been listed already. So the pages hold every row once exactly when there is one page
(`pages_iff`).
-/

namespace QuizBackend.Lib

variable {ρ κ : Type} [LinearOrder κ] {key : ρ → κ}

structure OrderBy (key : ρ → κ) where
  sort : List ρ → List ρ
  perm : ∀ rows, (sort rows).Perm rows
  sorted : ∀ rows, (sort rows).Pairwise fun r other => key other ≤ key r

def OrderBy.stable (key : ρ → κ) : OrderBy key :=
  ⟨descending key, descending_perm key, pairwise_descending key⟩

/-- The rows from the cursor on, its own among them. -/
def upTo (key : ρ → κ) (rows : List ρ) (cursor : Option κ) : List ρ :=
  rows.filter fun r => cursor.all fun last => decide (key r ≤ last)

@[simp] theorem upTo_none (key : ρ → κ) (rows : List ρ) : upTo key rows none = rows :=
  List.filter_eq_self.mpr fun _ _ => rfl

def OrderBy.select (o : OrderBy key) (rows : List ρ) (cursor : Option κ) (n : Nat) : List ρ :=
  (o.sort (upTo key rows cursor)).take n

/-- The page made of what has been selected, with the cursor of the next one if there is more. -/
def inclusivePage (key : ρ → κ) (limit : Nat) (items : List ρ) : List ρ × Option κ :=
  let hasNextPage := limit < items.length
  let pageItems := if hasNextPage then items.take limit else items
  (pageItems, if hasNextPage then pageItems.getLast?.map key else none)

/-- One request, with `slack` rows more than the limit asked of the database. -/
def inclusiveFetch (key : ρ → κ) (rows : List ρ) (limit slack : Nat) (o : OrderBy key) (_ : Unit)
    (cursor : Option κ) : Except Empty (List ρ × Option κ) × Unit :=
  (.ok (inclusivePage key limit (o.select rows cursor (limit + slack))), ())

section Page

variable {rows : List ρ} {limit slack : Nat} {o : OrderBy key} {cursor : Option κ}

theorem length_select : (o.select rows cursor (limit + slack)).length =
    min (limit + slack) (upTo key rows cursor).length := by
  rw [OrderBy.select, List.length_take, (o.perm _).length_eq]

theorem inclusivePage_last (hslack : 0 < slack) (h : (upTo key rows cursor).length ≤ limit) :
    inclusivePage key limit (o.select rows cursor (limit + slack)) =
      (o.sort (upTo key rows cursor), none) := by
  have hall : o.select rows cursor (limit + slack) = o.sort (upTo key rows cursor) := by
    refine List.take_of_length_le ?_
    rw [(o.perm _).length_eq]
    omega
  have hshort : ¬ limit < (o.sort (upTo key rows cursor)).length := by
    rw [(o.perm _).length_eq]
    omega
  rw [hall]
  simp only [inclusivePage, if_neg hshort]

/-- Any other page ends with a row, whose key is the cursor; what is not on it is not before that
row. -/
theorem inclusivePage_more (hlimit : 0 < limit) (hslack : 0 < slack)
    (h : limit < (upTo key rows cursor).length) :
    ∃ items last, inclusivePage key limit (o.select rows cursor (limit + slack)) =
        (items, some (key last)) ∧ last ∈ items ∧ last ∈ rows ∧
      ∀ r ∈ upTo key rows cursor, r ∈ items ∨ key r ≤ key last := by
  have hlong : limit < (o.select rows cursor (limit + slack)).length := by
    rw [length_select]
    omega
  have hpage : (o.select rows cursor (limit + slack)).take limit =
      (o.sort (upTo key rows cursor)).take limit := by
    rw [OrderBy.select, List.take_take, Nat.min_eq_left (Nat.le_add_right ..)]
  have hne : (o.sort (upTo key rows cursor)).take limit ≠ [] := by
    refine List.ne_nil_of_length_pos ?_
    rw [List.length_take, (o.perm _).length_eq]
    omega
  refine ⟨(o.sort (upTo key rows cursor)).take limit, List.getLast _ hne, ?_, List.getLast_mem hne, ?_,
    ?_⟩
  · simp only [inclusivePage, if_pos hlong, hpage, List.getLast?_eq_getLast_of_ne_nil hne,
      Option.map_some]
  · have hmem := (o.perm _).subset (List.mem_of_mem_take (List.getLast_mem hne))
    exact List.mem_of_mem_filter hmem
  · intro r hr
    have hsplit := List.take_append_drop limit (o.sort (upTo key rows cursor))
    have hmem := (o.perm _).symm.subset hr
    rw [← hsplit] at hmem
    rcases List.mem_append.mp hmem with hitem | hlater
    · exact .inl hitem
    · have hsorted := o.sorted (upTo key rows cursor)
      rw [← hsplit] at hsorted
      exact .inr ((List.pairwise_append.mp hsorted).2.2 _ (List.getLast_mem hne) r hlater)

end Page

/-! ## From page to page -/

variable {rows : List ρ} {limit slack : Nat}

/-- **From the cursor on nothing is missed.** -/
theorem mem_of_follow (hlimit : 0 < limit) (hslack : 0 < slack) {orders : List (OrderBy key)}
    {cursor : Option κ} {items : List ρ}
    (h : follow (inclusiveFetch key rows limit slack) orders () cursor = some items) {r : ρ}
    (hr : r ∈ upTo key rows cursor) : r ∈ items := by
  induction orders generalizing cursor items with
  | nil => cases h
  | cons o orders ih =>
    by_cases hlong : limit < (upTo key rows cursor).length
    · obtain ⟨page, last, hpage, -, -, hrest⟩ :=
        inclusivePage_more (o := o) hlimit hslack hlong
      rw [follow_next (congrArg (fun page => (Except.ok page, ())) hpage)] at h
      obtain ⟨others, hothers, rfl⟩ := Option.map_eq_some_iff.mp h
      rcases hrest r hr with hitem | hle
      · exact List.mem_append_left _ hitem
      · refine List.mem_append_right _ (ih hothers ?_)
        exact List.mem_filter.mpr ⟨List.mem_of_mem_filter hr, decide_eq_true hle⟩
    · have hpage := inclusivePage_last (o := o) hslack (Nat.le_of_not_lt hlong)
      rw [follow_last (congrArg (fun page => (Except.ok page, ())) hpage)] at h
      cases h
      exact (o.perm _).symm.subset hr

/-- **The pages hold every row once exactly when there is one page**, however the database orders rows
with the same key at each request. -/
theorem pages_iff (hlimit : 0 < limit) (hslack : 0 < slack) (hnodup : rows.Nodup)
    (orders : Nat → OrderBy key) :
    (∃ n items, follow (inclusiveFetch key rows limit slack) ((List.range n).map orders) () none =
        some items ∧ items.Perm rows) ↔ rows.length ≤ limit := by
  have hall : upTo key rows none = rows := upTo_none key rows
  constructor
  · rintro ⟨n, items, hfollow, hperm⟩
    by_contra hlong
    have hmore : limit < (upTo key rows none).length := hall.symm ▸ Nat.lt_of_not_le hlong
    cases n with
    | zero => cases hfollow
    | succ n =>
      rw [List.range_succ_eq_map, List.map_cons] at hfollow
      obtain ⟨page, last, hpage, hitem, hlast, -⟩ :=
        inclusivePage_more (o := orders 0) hlimit hslack hmore
      rw [follow_next (congrArg (fun page => (Except.ok page, ())) hpage)] at hfollow
      obtain ⟨others, hothers, rfl⟩ := Option.map_eq_some_iff.mp hfollow
      -- the row the cursor is taken from comes again
      have hagain : last ∈ others := mem_of_follow hlimit hslack hothers
        (List.mem_filter.mpr ⟨hlast, decide_eq_true (le_refl (key last))⟩)
      exact (List.nodup_append.mp (hperm.nodup_iff.mpr hnodup)).2.2 last hitem last hagain rfl
  · intro hshort
    refine ⟨1, (orders 0).sort (upTo key rows none), ?_, ((orders 0).perm _).trans (.of_eq hall)⟩
    exact follow_last (congrArg (fun page => (Except.ok page, ()))
      (inclusivePage_last hslack (hall.symm ▸ hshort)))

end QuizBackend.Lib
