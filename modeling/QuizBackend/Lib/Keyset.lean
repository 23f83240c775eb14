import Mathlib.Data.List.Nodup
import Mathlib.Data.List.Sort
import Mathlib.Order.Defs.LinearOrder

/-!
# Keyset pagination

Rows are listed in the descending order of their keys, a page at a time. Where a page ends, the key of
its last row is the cursor, and the next page is taken from the rows that are past it: as the order is
strict, these are the ones that are left. Two cursors lead to the same first row
only if no row lies between them (`past_eq_of_head?`).

Whoever lists the rows asks for a page, and asks again with the cursor that came with it, until none
does (`follow`). That this ends, and with every row, is a matter of what each answer leaves to be
listed (`follow_eq`); it does not end while every answer has a cursor (`follow_eq_none`).
-/

namespace QuizBackend.Lib

/-! ## Rows past a cursor -/

section Rows

variable {ρ κ : Type} [LinearOrder κ] {key : ρ → κ} {rows : List ρ}

def descending (key : ρ → κ) (rows : List ρ) : List ρ :=
  rows.insertionSort fun r other => key other ≤ key r

/-- `k < cursor`; true without one. -/
def past (cursor : Option κ) (k : κ) : Bool := cursor.all fun last => decide (k < last)

/-- What is to be listed after the cursor. -/
def rest (key : ρ → κ) (rows : List ρ) (cursor : Option κ) : List ρ :=
  descending key (rows.filter fun r => past cursor (key r))

theorem descending_perm (key : ρ → κ) (rows : List ρ) : (descending key rows).Perm rows :=
  List.perm_insertionSort _ rows

theorem mem_descending {r : ρ} : r ∈ descending key rows ↔ r ∈ rows := List.mem_insertionSort _

theorem pairwise_descending (key : ρ → κ) (rows : List ρ) :
    (descending key rows).Pairwise fun r other => key other ≤ key r := by
  have : Std.Total fun r other : ρ => key other ≤ key r :=
    ⟨fun r other => le_total (key other) (key r)⟩
  have : IsTrans ρ fun r other => key other ≤ key r := ⟨fun _ _ _ h h' => le_trans h' h⟩
  exact List.pairwise_insertionSort _ rows

theorem strict_descending (hkeys : (rows.map key).Nodup) :
    (descending key rows).Pairwise fun r other => key other < key r := by
  have hne : ((descending key rows).map key).Nodup :=
    ((descending_perm key rows).map key).nodup_iff.mpr hkeys
  have hboth := (pairwise_descending key rows).and (List.pairwise_map.mp hne)
  exact hboth.imp fun h => lt_of_le_of_ne h.1 fun hsame => h.2 hsame.symm

omit [LinearOrder κ] in
theorem nodup_of_determines {ι : Type} {id : ρ → ι} (hid : (rows.map id).Nodup)
    (h : ∀ r x, key r = key x → id r = id x) : (rows.map key).Nodup := by
  rw [List.Nodup, List.pairwise_map] at hid ⊢
  exact hid.imp fun {r x} hne hsame => hne (h r x hsame)

theorem map_descending {σ : Type} (key : σ → κ) (f : ρ → σ) (rows : List ρ) :
    (descending (fun r => key (f r)) rows).map f = descending key (rows.map f) :=
  List.map_insertionSort _ _ f rows fun _ _ _ _ => Iff.rfl

theorem descending_filter (hkeys : (rows.map key).Nodup) (p : ρ → Bool) :
    descending key (rows.filter p) = (descending key rows).filter p := by
  have hperm : (descending key (rows.filter p)).Perm ((descending key rows).filter p) :=
    (descending_perm key _).trans ((descending_perm key rows).symm.filter p)
  have hpicked : ((rows.filter p).map key).Nodup := hkeys.sublist (List.filter_sublist.map key)
  refine List.Perm.eq_of_pairwise ?_ (strict_descending hpicked)
    ((strict_descending hkeys).sublist List.filter_sublist) hperm
  intro r other _ _ hlt hlt'
  exact absurd hlt' (lt_asymm hlt)

theorem rest_none (key : ρ → κ) (rows : List ρ) : rest key rows none = descending key rows := by
  have hall : (rows.filter fun r => past none (key r)) = rows :=
    List.filter_eq_self.mpr fun _ _ => rfl
  rw [rest, hall]

theorem past_of_le {cursor : Option κ} {k k' : κ} (h : past cursor k = true) (hle : k' ≤ k) :
    past cursor k' = true := by
  cases cursor with
  | none => rfl
  | some last => exact decide_eq_true (lt_of_le_of_lt hle (of_decide_eq_true h))

theorem le_of_head? {r : ρ} (h : (descending key rows).head? = some r) :
    r ∈ rows ∧ ∀ x ∈ rows, key x ≤ key r := by
  obtain ⟨others, hothers⟩ := List.head?_eq_some_iff.mp h
  have hsorted := pairwise_descending key rows
  rw [hothers] at hsorted
  have hfirst : r ∈ descending key rows := hothers ▸ List.mem_cons_self
  refine ⟨mem_descending.mp hfirst, fun x hx => ?_⟩
  have hmem : x ∈ descending key rows := mem_descending.mpr hx
  rw [hothers] at hmem
  rcases List.mem_cons.mp hmem with rfl | hmem
  · exact le_refl _
  · exact (List.pairwise_cons.mp hsorted).1 x hmem

theorem past_of_head? {cursor other : Option κ}
    (h : (rest key rows cursor).head? = (rest key rows other).head?) {r : ρ} (hr : r ∈ rows)
    (hpast : past cursor (key r) = true) : past other (key r) = true := by
  have hmem : r ∈ rows.filter fun r => past cursor (key r) := List.mem_filter.mpr ⟨hr, hpast⟩
  cases hfirst : (rest key rows cursor).head? with
  | none =>
    have hnone := List.head?_eq_none_iff.mp hfirst
    rw [rest, List.eq_nil_iff_forall_not_mem] at hnone
    exact absurd (mem_descending.mpr hmem) (hnone r)
  | some first =>
    have hle := (le_of_head? hfirst).2 r hmem
    rw [h] at hfirst
    exact past_of_le (List.mem_filter.mp (le_of_head? hfirst).1).2 hle

/-- **Between two cursors that lead to the same row there is none.** -/
theorem past_eq_of_head? {cursor other : Option κ}
    (h : (rest key rows cursor).head? = (rest key rows other).head?) {r : ρ} (hr : r ∈ rows) :
    past cursor (key r) = past other (key r) := by
  rw [Bool.eq_iff_iff]
  exact ⟨past_of_head? h hr, past_of_head? h.symm hr⟩

theorem rest_congr {cursor other : Option κ}
    (h : ∀ r ∈ rows, past cursor (key r) = past other (key r)) :
    rest key rows cursor = rest key rows other := by
  rw [rest, rest, List.filter_congr h]

end Rows

/-! ## From page to page -/

section Follow

variable {τ σ γ ε α : Type}

/-- A page at each of these times, from the cursor that came with the one before: all the items, when
there is no further cursor. -/
def follow (fetch : τ → σ → Option γ → Except ε (List α × Option γ) × σ) :
    List τ → σ → Option γ → Option (List α)
  | [], _, _ => none
  | t :: ts, s, cursor =>
    match fetch t s cursor with
    | (.error _, _) => none
    | (.ok (items, none), _) => some items
    | (.ok (items, some next), s') => (follow fetch ts s' (some next)).map (items ++ ·)

variable {fetch : τ → σ → Option γ → Except ε (List α × Option γ) × σ}

theorem follow_last {t : τ} {ts : List τ} {s s' : σ} {cursor : Option γ} {items : List α}
    (h : fetch t s cursor = (.ok (items, none), s')) : follow fetch (t :: ts) s cursor = some items := by
  rw [follow, h]

theorem follow_next {t : τ} {ts : List τ} {s s' : σ} {cursor : Option γ} {items : List α} {next : γ}
    (h : fetch t s cursor = (.ok (items, some next), s')) :
    follow fetch (t :: ts) s cursor = (follow fetch ts s' (some next)).map (items ++ ·) := by
  rw [follow, h]

/-- **There is no end while every page comes with a cursor.** -/
theorem follow_eq_none {I : σ → Prop} {P : τ → Prop}
    (hfetch : ∀ t s cursor, P t → I s → ∃ items next s',
      fetch t s cursor = (.ok (items, some next), s') ∧ I s')
    {ts : List τ} (hts : ∀ t ∈ ts, P t) {s : σ} (hs : I s) (cursor : Option γ) :
    follow fetch ts s cursor = none := by
  induction ts generalizing s cursor with
  | nil => rfl
  | cons t ts ih =>
    obtain ⟨items, next, s', hanswer, hs'⟩ := hfetch t s cursor (hts t List.mem_cons_self) hs
    rw [follow_next hanswer, ih (fun t ht => hts t (List.mem_cons_of_mem _ ht)) hs' (some next),
      Option.map_none]

/-- **Every item is listed once**, when each page holds the next ones and its cursor leaves the rest to
be listed. `left` is what is left to be listed, `Reached` the cursors that may come. -/
theorem follow_eq {left : Option γ → List α} {Reached : Option γ → Prop} {size : Nat}
    (hfetch : ∀ t s cursor, Reached cursor → ∃ next s',
      fetch t s cursor = (.ok ((left cursor).take size, next), s') ∧
        ((left cursor).length ≤ size → next = none) ∧
        (size < (left cursor).length → next.isSome ∧ Reached next ∧
          left next = (left cursor).drop size))
    {ts : List τ} (hts : ts ≠ []) {cursor : Option γ} (hcursor : Reached cursor)
    (hlong : (left cursor).length ≤ size * ts.length) (s : σ) :
    follow fetch ts s cursor = some (left cursor) := by
  induction ts generalizing cursor s with
  | nil => exact absurd rfl hts
  | cons t ts ih =>
    obtain ⟨next, s', hanswer, hend, hon⟩ := hfetch t s cursor hcursor
    by_cases hfits : (left cursor).length ≤ size
    · rw [hend hfits, List.take_of_length_le hfits] at hanswer
      exact follow_last hanswer
    · obtain ⟨hsome, hreached, hleft⟩ := hon (Nat.lt_of_not_le hfits)
      obtain ⟨c, rfl⟩ := Option.isSome_iff_exists.mp hsome
      rw [List.length_cons, Nat.mul_succ] at hlong
      have hmore : ts ≠ [] := by
        rintro rfl
        rw [List.length_nil, Nat.mul_zero, Nat.zero_add] at hlong
        exact hfits hlong
      have hshort : (left (some c)).length ≤ size * ts.length := by
        rw [hleft, List.length_drop]
        exact Nat.sub_le_of_le_add hlong
      rw [follow_next hanswer, ih hmore hreached hshort s', Option.map_some, hleft,
        List.take_append_drop]

end Follow

end QuizBackend.Lib
