import Mathlib.Data.List.Basic
import Mathlib.Data.List.DropRight
import Mathlib.Data.List.Chain
import Mathlib.Algebra.GroupWithZero.Nat

/-!
# JavaScript strings

The length and `trim` of a string, as JavaScript has them, and `replace` by a pattern that stands for
every run of some characters. What `trim` does to white space is done to other characters as well
(`strip`). Texts that are keys often have numbers in them, which end at the first character that is no
digit (`repr_append_inj`).
-/

namespace QuizBackend.Lib

/-- White space and line terminators of ECMAScript. -/
def isWhiteSpace (c : Char) : Bool :=
  c.toNat ∈ [9, 10, 11, 12, 13, 32, 160, 5760, 8192, 8193, 8194, 8195, 8196, 8197, 8198, 8199, 8200,
    8201, 8202, 8232, 8233, 8239, 8287, 12288, 65279]

/-- `String.prototype.trim`. -/
def trim (text : String) : String :=
  String.ofList ((text.toList.dropWhile isWhiteSpace).reverse.dropWhile isWhiteSpace).reverse

/-! ## Both ends of a list -/

section Strip

variable {α : Type}

/-- A list without what `p` accepts at both ends. -/
def strip (p : α → Bool) (l : List α) : List α := ((l.dropWhile p).reverse.dropWhile p).reverse

variable {p : α → Bool} {l : List α}

/-- The ends are dropped one after the other. -/
theorem strip_eq_rdropWhile : strip p l = (l.dropWhile p).rdropWhile p := rfl

/-- What is left was there in one piece. -/
theorem infix_of_strip : strip p l <:+: l :=
  (List.rdropWhile_prefix p _).isInfix.trans (List.dropWhile_suffix p).isInfix

/-- What `p` does not accept stays. -/
theorem mem_strip {a : α} (h : a ∈ l) (ha : p a = false) : a ∈ strip p l := by
  have hkept : ∀ {l : List α}, a ∈ l → a ∈ l.dropWhile p := by
    intro l hmem
    rw [← List.takeWhile_append_dropWhile (p := p) (l := l)] at hmem
    rcases List.mem_append.mp hmem with htake | hdrop
    · rw [List.mem_takeWhile_imp htake] at ha
      cases ha
    · exact hdrop
  exact List.mem_reverse.mpr (hkept (List.mem_reverse.mpr (hkept h)))

/-- The first that is left is not accepted. -/
theorem head?_strip_not {a : α} (h : (strip p l).head? = some a) : p a = false := by
  have hfirst : (l.dropWhile p).head? = some a := by
    obtain ⟨others, hothers⟩ := List.head?_eq_some_iff.mp h
    obtain ⟨last, hlast⟩ := List.rdropWhile_prefix p (l.dropWhile p)
    rw [← hlast, ← strip_eq_rdropWhile, hothers, List.cons_append, List.head?_cons]
  have hnot := List.head?_dropWhile_not p l
  rw [hfirst] at hnot
  exact hnot

/-- The last that is left is not accepted. -/
theorem getLast?_strip_not {a : α} (h : (strip p l).getLast? = some a) : p a = false := by
  have hnot := List.head?_dropWhile_not p (l.dropWhile p).reverse
  rw [strip, List.getLast?_reverse] at h
  rw [h] at hnot
  exact hnot

/-- Where neither end is accepted, nothing is dropped. -/
theorem strip_eq_self (hfirst : ∀ a, l.head? = some a → p a = false)
    (hlast : ∀ a, l.getLast? = some a → p a = false) : strip p l = l := by
  have hdrop : l.dropWhile p = l := by
    cases l with
    | nil => rfl
    | cons a l => rw [List.dropWhile_cons_of_neg (Bool.eq_false_iff.mp (hfirst a rfl))]
  rw [strip_eq_rdropWhile, hdrop, List.rdropWhile_eq_self_iff]
  intro hl
  rw [hlast _ (List.getLast?_eq_some_getLast hl)]
  exact Bool.false_ne_true

/-- **Twice is once.** -/
theorem strip_strip : strip p (strip p l) = strip p l :=
  strip_eq_self (fun _ => head?_strip_not) fun _ => getLast?_strip_not

end Strip

/-- `trim` strips white space. -/
theorem trim_eq (text : String) : trim text = String.ofList (strip isWhiteSpace text.toList) := rfl

@[simp] theorem trim_trim (text : String) : trim (trim text) = trim text := by
  rw [trim_eq, trim_eq, String.toList_ofList, strip_strip]

/-- `length` of a string, in UTF-16 code units. -/
def utf16Length (text : String) : Nat :=
  (text.toList.map fun c => if c.toNat < 65536 then 1 else 2).sum

/-! ## Replacing every run

`text.replace(/p+/g, r)` puts one `r` for every maximal run of characters that `p` accepts.
Afterwards no two of them stand side by side (`noRuns_replaceRuns`), and if `r` is the only one there
is then nothing left to replace (`replaceRuns_of_noRuns`). -/

section Runs

variable {α : Type} {p : α → Bool} {r x : α} {l : List α} {b : Bool}

/-- The characters from here on; `inRun` where the one before was accepted. -/
def replaceRuns (p : α → Bool) (r : α) (inRun : Bool) : List α → List α
  | [] => []
  | a :: l =>
    if p a then
      if inRun then replaceRuns p r true l else r :: replaceRuns p r true l
    else a :: replaceRuns p r false l

/-- Where nothing is accepted, nothing is replaced. -/
theorem replaceRuns_of_forall_not (h : ∀ a ∈ l, p a = false) (b : Bool) :
    replaceRuns p r b l = l := by
  induction l generalizing b with
  | nil => rfl
  | cons a l ih =>
    rw [replaceRuns, h a List.mem_cons_self, if_neg Bool.false_ne_true,
      ih fun c hc => h c (.tail _ hc)]

/-- What is there afterwards was there before, or is `r`. -/
theorem mem_replaceRuns (h : x ∈ replaceRuns p r b l) : x = r ∨ x ∈ l ∧ p x = false := by
  induction l generalizing b with
  | nil => cases h
  | cons a l ih =>
    rw [replaceRuns] at h
    split at h
    · have hrest : x = r ∨ x ∈ replaceRuns p r true l := by
        split at h
        · exact .inr h
        · exact List.mem_cons.mp h
      rcases hrest with heq | hmem
      · exact .inl heq
      · exact (ih hmem).imp_right fun hx => ⟨.tail _ hx.1, hx.2⟩
    · next hp =>
      rcases List.mem_cons.mp h with rfl | hmem
      · exact .inr ⟨List.mem_cons_self, Bool.eq_false_iff.mpr hp⟩
      · exact (ih hmem).imp_right fun hx => ⟨.tail _ hx.1, hx.2⟩

/-- What is not accepted stays. -/
theorem mem_replaceRuns_of_not (h : x ∈ l) (hx : p x = false) (b : Bool) :
    x ∈ replaceRuns p r b l := by
  induction l generalizing b with
  | nil => cases h
  | cons a l ih =>
    rw [replaceRuns]
    rcases List.mem_cons.mp h with rfl | hmem
    · rw [hx, if_neg Bool.false_ne_true]
      exact List.mem_cons_self
    · split
      · split
        · exact ih hmem true
        · exact .tail _ (ih hmem true)
      · exact .tail _ (ih hmem false)

/-- No two accepted characters stand side by side. -/
def NoRuns (p : α → Bool) (l : List α) : Prop := l.IsChain fun a b => ¬ (p a = true ∧ p b = true)

/-- The first is no run with the second. -/
theorem noRuns_cons {a : α} : NoRuns p (a :: l) ↔
    (p a = true → ∀ b ∈ l.head?, p b = false) ∧ NoRuns p l := by
  cases l with
  | nil => simp [NoRuns]
  | cons b l => simp [NoRuns, List.isChain_cons_cons]

/-- **A replacement leaves no run**, also not with what stands before it. -/
theorem noRuns_replaceRuns (p : α → Bool) (r : α) (l : List α) (b : Bool) :
    NoRuns p (replaceRuns p r b l) ∧
      (b = true → ∀ a ∈ (replaceRuns p r b l).head?, p a = false) := by
  induction l generalizing b with
  | nil => exact ⟨List.isChain_nil, fun _ a ha => by cases ha⟩
  | cons a l ih =>
    rw [replaceRuns]
    by_cases ha : p a = true
    · rw [if_pos ha]
      cases b with
      | true =>
        rw [if_pos rfl]
        exact ih true
      | false =>
        rw [if_neg Bool.false_ne_true]
        exact ⟨noRuns_cons.mpr ⟨fun _ => (ih true).2 rfl, (ih true).1⟩, fun h => by cases h⟩
    · rw [if_neg ha]
      refine ⟨noRuns_cons.mpr ⟨fun h => absurd h ha, (ih false).1⟩, fun _ c hc => ?_⟩
      rw [← Option.some.inj hc]
      exact Bool.eq_false_iff.mpr ha

/-- **Where there is no run** and `r` is all that is accepted, nothing changes. -/
theorem replaceRuns_of_noRuns (hr : ∀ a, p a = true → a = r) (h : NoRuns p l)
    (hb : b = true → ∀ a ∈ l.head?, p a = false) : replaceRuns p r b l = l := by
  induction l generalizing b with
  | nil => rfl
  | cons a l ih =>
    obtain ⟨hnext, hrest⟩ := noRuns_cons.mp h
    rw [replaceRuns]
    by_cases ha : p a = true
    · rw [if_pos ha, ih hrest fun _ => hnext ha, hr a ha]
      cases b with
      | true =>
        rw [hb rfl a rfl] at ha
        cases ha
      | false => rfl
    · rw [if_neg ha, ih hrest fun h => by cases h]

end Runs

/-! ## Numbers inside keys -/

/-- A numeral is of digits. -/
theorem isDigit_of_mem_repr {n : Nat} {c : Char} (h : c ∈ n.repr.toList) : c.isDigit = true := by
  rw [Nat.toList_repr] at h
  exact Nat.isDigit_of_mem_toDigits (by decide) (by decide) h

/-- Its digits are those up to the first other character. -/
theorem takeWhile_repr_append (n : Nat) {c : Char} (hc : c.isDigit = false) (rest : List Char) :
    (n.repr.toList ++ c :: rest).takeWhile Char.isDigit = n.repr.toList := by
  rw [List.takeWhile_append_of_pos fun x hx => isDigit_of_mem_repr hx]
  simp [hc]

/-- **A numeral ends at the first character that is no digit.** -/
theorem repr_append_inj {m n : Nat} {c d : Char} (hc : c.isDigit = false) (hd : d.isDigit = false)
    {xs ys : List Char} (h : m.repr.toList ++ c :: xs = n.repr.toList ++ d :: ys) :
    m = n ∧ c :: xs = d :: ys := by
  have hdigits : m.repr.toList = n.repr.toList := by
    rw [← takeWhile_repr_append m hc xs, h, takeWhile_repr_append n hd ys]
  have hvalue : ∀ k : Nat, Nat.ofDigitChars 10 k.repr.toList 0 = k := fun k => by
    rw [Nat.toList_repr]
    exact Nat.ofDigitChars_toDigits (by decide) (by decide)
  refine ⟨by rw [← hvalue m, hdigits, hvalue n], ?_⟩
  rw [hdigits] at h
  exact List.append_cancel_left h

end QuizBackend.Lib
