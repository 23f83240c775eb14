import Mathlib.Data.List.Basic
import Mathlib.Data.Nat.Basic
import Mathlib.Algebra.Group.Nat.Defs
import Mathlib.Tactic.Ring

/-!
# UUIDs

A `uuid` column holds 128 bits. In an interpolated string a UUID stands as 32 lower-case hex
digits in groups of 8, 4, 4, 4 and 12. Keys are built by interpolation, so what matters about the
text is that it has one length and that it determines the value (`Uuid.text_injective`). The other
way round, a text that stands where a UUID is meant is read as one (`Uuid.parse`).
-/

namespace QuizBackend.Lib

/-- The lowest `k` hex digits of `n`, most significant first. -/
def hexDigits : Nat → Nat → List Char
  | 0, _ => []
  | k + 1, n => hexDigits k (n / 16) ++ [Nat.digitChar (n % 16)]

@[simp] theorem length_hexDigits (k n : Nat) : (hexDigits k n).length = k := by
  induction k generalizing n with
  | zero => rfl
  | succ k ih => simp [hexDigits, ih]

theorem digitChar_injective : ∀ i j : Fin 16, Nat.digitChar i = Nat.digitChar j → i = j := by
  decide

theorem digitChar_ne_dash : ∀ i : Fin 16, Nat.digitChar i ≠ '-' := by decide

theorem hexDigits_injective {k n m : Nat} (hn : n < 16 ^ k) (hm : m < 16 ^ k)
    (h : hexDigits k n = hexDigits k m) : n = m := by
  induction k generalizing n m with
  | zero => omega
  | succ k ih =>
    obtain ⟨hhigh, hlow⟩ := List.append_inj' h rfl
    rw [Nat.pow_succ] at hn hm
    have hdiv : n / 16 = m / 16 := ih (by omega) (by omega) hhigh
    have hmod : n % 16 = m % 16 := by
      have := digitChar_injective ⟨n % 16, by omega⟩ ⟨m % 16, by omega⟩ (List.singleton_inj.mp hlow)
      exact Fin.mk.inj_iff.mp this
    omega

theorem ne_dash_of_mem_hexDigits {k n : Nat} {c : Char} (h : c ∈ hexDigits k n) : c ≠ '-' := by
  induction k generalizing n with
  | zero => cases h
  | succ k ih =>
    rcases List.mem_append.mp h with h | h
    · exact ih h
    · rw [List.mem_singleton.mp h]
      exact digitChar_ne_dash ⟨n % 16, by omega⟩

structure Uuid where
  bits : BitVec 128
  deriving DecidableEq

open Uuid

instance (n : Nat) : OfNat Uuid n := ⟨⟨BitVec.ofNat 128 n⟩⟩

variable {u v : Uuid}

theorem Uuid.eq_of_toNat_eq (h : u.bits.toNat = v.bits.toNat) : u = v :=
  congrArg mk (BitVec.eq_of_toNat_eq h)

def Uuid.chars (u : Uuid) : List Char :=
  let h := hexDigits 32 u.bits.toNat
  h.take 8 ++ '-' :: ((h.drop 8).take 4 ++ '-' :: ((h.drop 12).take 4 ++
    '-' :: ((h.drop 16).take 4 ++ '-' :: h.drop 20)))

/-- The canonical text, in lower case with dashes. -/
def Uuid.text (u : Uuid) : String := String.ofList u.chars

theorem Uuid.length_chars (u : Uuid) : u.chars.length = 36 := by
  simp [chars]

theorem Uuid.filter_chars (u : Uuid) :
    u.chars.filter (· ≠ '-') = hexDigits 32 u.bits.toNat := by
  have hkeep : ∀ l : List Char, (∀ c ∈ l, c ∈ hexDigits 32 u.bits.toNat) → l.filter (· ≠ '-') = l :=
    fun l hl => List.filter_eq_self.mpr fun c hc => by
      simpa using ne_dash_of_mem_hexDigits (hl c hc)
  have htake : ∀ i j, ∀ c ∈ ((hexDigits 32 u.bits.toNat).drop i).take j,
      c ∈ hexDigits 32 u.bits.toNat :=
    fun i j c hc => List.mem_of_mem_drop (List.mem_of_mem_take hc)
  have hdrop : ∀ i j, (hexDigits 32 u.bits.toNat).drop i
      = ((hexDigits 32 u.bits.toNat).drop i).take j
        ++ (hexDigits 32 u.bits.toNat).drop (i + j) := fun i j => by
    rw [← List.drop_drop, List.take_append_drop]
  have hdash : ∀ l : List Char, ('-' :: l).filter (· ≠ '-') = l.filter (· ≠ '-') := fun l => by simp
  simp only [chars, List.filter_append, hdash]
  rw [hkeep _ fun c hc => List.mem_of_mem_take hc, hkeep _ (htake 8 4), hkeep _ (htake 12 4),
    hkeep _ (htake 16 4), hkeep _ fun c hc => List.mem_of_mem_drop hc, ← hdrop 16 4, ← hdrop 12 4,
    ← hdrop 8 4, List.take_append_drop]

theorem Uuid.chars_injective (h : u.chars = v.chars) : u = v := by
  have hdigits : hexDigits 32 u.bits.toNat = hexDigits 32 v.bits.toNat := by
    rw [← u.filter_chars, ← v.filter_chars, h]
  have hu : u.bits.toNat < 16 ^ 32 := by simpa using u.bits.isLt
  have hv : v.bits.toNat < 16 ^ 32 := by simpa using v.bits.isLt
  have hbits := hexDigits_injective hu hv hdigits
  cases u
  cases v
  rw [mk.injEq]
  exact BitVec.eq_of_toNat_eq hbits

theorem Uuid.text_injective {p q : String} (h : p ++ u.text = q ++ v.text) : u = v := by
  have hlist : p.toList ++ u.chars = q.toList ++ v.chars := by
    have := congrArg String.toList h
    rwa [String.toList_append, String.toList_append, text, text, String.toList_ofList,
      String.toList_ofList] at this
  have hlen : u.chars.length = v.chars.length := by rw [u.length_chars, v.length_chars]
  exact chars_injective (List.append_inj' hlist hlen).2

theorem Uuid.text_inj : u.text = v.text ↔ u = v := by
  refine ⟨?_, congrArg text⟩
  intro h
  exact text_injective (p := "") (q := "") (congrArg ("" ++ ·) h)

theorem Uuid.text_ne_empty (u : Uuid) : u.text ≠ "" := by
  intro h
  have hlength := congrArg (fun t : String => t.toList.length) h
  simp only [text, String.toList_ofList, u.length_chars] at hlength
  cases hlength

theorem Uuid.eq_of_prefix {p x y : List Char} (h : p ++ (u.chars ++ x) <+: p ++ (v.chars ++ y)) :
    u = v := by
  have htail := (List.prefix_append_right_inj p).mp h
  have hchars := List.prefix_iff_eq_take.mp ((List.prefix_append u.chars x).trans htail)
  rw [u.length_chars, ← v.length_chars, List.take_left] at hchars
  exact chars_injective hchars

/-! ## The input syntax

A text that is compared with a `uuid` column is read as one first, and a text that cannot be read
is an error of the statement. The digits may be of either case, a dash may stand after every second
byte but the last, and braces may stand around it all. What has been read up to some byte is the
value without the digits still to come: this carries the proof that a UUID's own text is read back,
and read to its end. -/

def hexDigit? (c : Char) : Option Nat :=
  if '0' ≤ c ∧ c ≤ '9' then some (c.toNat - 48)
  else if 'a' ≤ c ∧ c ≤ 'f' then some (c.toNat - 87)
  else if 'A' ≤ c ∧ c ≤ 'F' then some (c.toNat - 55)
  else none

def dropDash : List Char → List Char
  | '-' :: cs => cs
  | cs => cs

/-- The loop of `string_to_uuid` with some bytes still to read: the value and the rest. -/
def readBytes : Nat → Nat → List Char → Option (Nat × List Char)
  | 0, n, cs => some (n, cs)
  | k + 1, n, c :: d :: cs =>
    match hexDigit? c, hexDigit? d with
    | some high, some low =>
      readBytes k (n * 256 + (high * 16 + low)) (if k % 2 = 0 ∧ k ≠ 0 then dropDash cs else cs)
    | _, _ => none
  | _ + 1, _, _ => none

def Uuid.endingIn (close : List Char) (read : Nat × List Char) : Option Uuid :=
  if read.2 = close then some ⟨BitVec.ofNat 128 read.1⟩ else none

/-- `uuid_in`: braces and missing dashes are accepted. -/
def Uuid.parse (text : String) : Option Uuid :=
  match text.toList with
  | '{' :: cs => (readBytes 16 0 cs).bind (endingIn ['}'])
  | cs => (readBytes 16 0 cs).bind (endingIn [])

theorem hexDigit?_digitChar : ∀ i : Fin 16, hexDigit? (Nat.digitChar i) = some (i : Nat) := by
  decide

theorem digitChar_ne_brace : ∀ i : Fin 16, Nat.digitChar i ≠ '{' := by decide

theorem hexDigits_add (j k n : Nat) :
    hexDigits (j + k) n = hexDigits j (n / 16 ^ k) ++ hexDigits k n := by
  induction k generalizing n with
  | zero => simp [hexDigits]
  | succ k ih =>
    have hdiv : n / 16 / 16 ^ k = n / 16 ^ (k + 1) := by
      rw [Nat.div_div_eq_div_mul, Nat.pow_succ']
    rw [← Nat.add_assoc, hexDigits, ih, hexDigits, hdiv, List.append_assoc]

theorem dropDash_of_ne {c : Char} {cs : List Char} (h : c ≠ '-') : dropDash (c :: cs) = c :: cs := by
  unfold dropDash
  split
  · next heq =>
    rw [List.cons.injEq] at heq
    exact absurd heq.1 h
  · rfl

theorem readBytes_byte (k n : Nat) (rest : List Char) :
    readBytes (k + 1) (n / 256 ^ (k + 1)) (hexDigits 2 (n / 256 ^ k) ++ rest)
      = readBytes k (n / 256 ^ k) (if k % 2 = 0 ∧ k ≠ 0 then dropDash rest else rest) := by
  have hhigh := hexDigit?_digitChar ⟨n / 256 ^ k / 16 % 16, by omega⟩
  have hlow := hexDigit?_digitChar ⟨n / 256 ^ k % 16, by omega⟩
  have hvalue : n / 256 ^ (k + 1) * 256 + (n / 256 ^ k / 16 % 16 * 16 + n / 256 ^ k % 16)
      = n / 256 ^ k := by
    have hdiv : n / 256 ^ (k + 1) = n / 256 ^ k / 256 := by
      rw [Nat.div_div_eq_div_mul, Nat.pow_succ]
    rw [hdiv]
    omega
  simp only [hexDigits, List.nil_append, List.cons_append, readBytes, hhigh, hlow, hvalue]

theorem readBytes_hexDigits (k m n : Nat) (rest : List Char) :
    readBytes (k + (m + 1)) (n / 256 ^ (k + (m + 1))) (hexDigits (2 * (m + 1)) (n / 256 ^ k) ++ rest)
      = readBytes k (n / 256 ^ k) (if k % 2 = 0 ∧ k ≠ 0 then dropDash rest else rest) := by
  induction m with
  | zero => exact readBytes_byte k n rest
  | succ m ih =>
    have hsplit : hexDigits (2 * (m + 1 + 1)) (n / 256 ^ k)
        = hexDigits 2 (n / 256 ^ (k + (m + 1))) ++ hexDigits (2 * (m + 1)) (n / 256 ^ k) := by
      have h16 : (16 : Nat) ^ (2 * (m + 1)) = 256 ^ (m + 1) := by rw [Nat.pow_mul]
      rw [show 2 * (m + 1 + 1) = 2 + 2 * (m + 1) by ring, hexDigits_add, h16,
        Nat.div_div_eq_div_mul, ← Nat.pow_add]
    have hnodash : dropDash (hexDigits (2 * (m + 1)) (n / 256 ^ k) ++ rest)
        = hexDigits (2 * (m + 1)) (n / 256 ^ k) ++ rest := by
      cases hdigits : hexDigits (2 * (m + 1)) (n / 256 ^ k) with
      | nil =>
        have := congrArg List.length hdigits
        simp at this
      | cons c cs =>
        refine dropDash_of_ne (ne_dash_of_mem_hexDigits (k := 2 * (m + 1)) (n := n / 256 ^ k) ?_)
        rw [hdigits]
        exact List.mem_cons_self ..
    rw [hsplit, List.append_assoc, ← Nat.add_assoc k (m + 1) 1, readBytes_byte, hnodash, ite_self]
    exact ih

section

variable (u : Uuid)

theorem Uuid.chars_eq :
    u.chars = hexDigits 8 (u.bits.toNat / 256 ^ 12) ++ '-' ::
      (hexDigits 4 (u.bits.toNat / 256 ^ 10) ++ '-' :: (hexDigits 4 (u.bits.toNat / 256 ^ 8) ++
        '-' :: (hexDigits 4 (u.bits.toNat / 256 ^ 6) ++ '-' :: hexDigits 12 u.bits.toNat))) := by
  have hdigits : hexDigits 32 u.bits.toNat = hexDigits 8 (u.bits.toNat / 256 ^ 12) ++
      (hexDigits 4 (u.bits.toNat / 256 ^ 10) ++ (hexDigits 4 (u.bits.toNat / 256 ^ 8) ++
        (hexDigits 4 (u.bits.toNat / 256 ^ 6) ++ hexDigits 12 u.bits.toNat))) := by
    have hpow : ∀ j, (16 : Nat) ^ (2 * j) = 256 ^ j := fun j => by rw [Nat.pow_mul]
    rw [show (32 : Nat) = 8 + 24 by rfl, hexDigits_add, show (24 : Nat) = 4 + 20 by rfl,
      hexDigits_add, show (20 : Nat) = 4 + 16 by rfl, hexDigits_add,
      show (16 : Nat) = 4 + 12 by rfl, hexDigits_add]
    rw [show (4 : Nat) + (4 + (4 + 12)) = 2 * 12 by rfl, show (4 : Nat) + (4 + 12) = 2 * 10 by rfl,
      show (4 : Nat) + 12 = 2 * 8 by rfl, show (12 : Nat) = 2 * 6 by rfl]
    simp only [hpow]
  simp only [chars, hdigits]
  simp [List.drop_append, List.drop_eq_nil_of_le]

theorem Uuid.readBytes_chars (rest : List Char) :
    readBytes 16 0 (u.chars ++ rest) = some (u.bits.toNat, rest) := by
  have hstart : u.bits.toNat / 256 ^ 16 = 0 := Nat.div_eq_of_lt u.bits.isLt
  have hfour := fun k => readBytes_hexDigits k 1 u.bits.toNat
  have hlast := readBytes_hexDigits 0 5 u.bits.toNat rest
  rw [u.chars_eq, ← hstart]
  simp only [List.append_assoc, List.cons_append]
  refine (readBytes_hexDigits 12 3 u.bits.toNat _).trans ?_
  refine (hfour 10 _).trans ?_
  refine (hfour 8 _).trans ?_
  refine (hfour 6 _).trans ?_
  rw [Nat.pow_zero, Nat.div_one] at hlast
  exact hlast

theorem Uuid.chars_eq_cons : ∃ (i : Fin 16) (cs : List Char),
    u.chars = Nat.digitChar i :: cs := by
  refine ⟨⟨u.bits.toNat / 256 ^ 12 / 16 ^ 7 % 16, by omega⟩, ?_⟩
  rw [u.chars_eq, show (8 : Nat) = 1 + 7 by rfl, hexDigits_add]
  exact ⟨_, rfl⟩

theorem Uuid.parse_append (rest : String) :
    parse (u.text ++ rest) = endingIn [] (u.bits.toNat, rest.toList) := by
  have hread := u.readBytes_chars rest.toList
  obtain ⟨i, cs, hchars⟩ := u.chars_eq_cons
  rw [hchars, List.cons_append] at hread
  unfold parse
  rw [String.toList_append, text, String.toList_ofList, hchars, List.cons_append]
  split
  · next heq =>
    rw [List.cons.injEq] at heq
    exact absurd heq.1 (digitChar_ne_brace i)
  · rw [hread, Option.bind_some]

/-- **A UUID's text is read back as the UUID.** -/
theorem Uuid.parse_text : parse u.text = some u := by
  have h := u.parse_append ""
  rw [String.append_empty] at h
  rw [h, endingIn, if_pos String.toList_empty]
  simp

theorem Uuid.parse_text_append {rest : String} (h : rest ≠ "") :
    parse (u.text ++ rest) = none := by
  rw [u.parse_append, endingIn, if_neg]
  intro hnil
  exact h (String.toList_injective (hnil.trans String.toList_empty.symm))

end

end QuizBackend.Lib
