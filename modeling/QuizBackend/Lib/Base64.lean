import Mathlib.Data.List.Basic
import Mathlib.Tactic.Common

/-!
# `base64url`

Three bytes are written as four characters, six bits each; one or two bytes that are left over as two
or three. There is no padding. A reader takes the characters of both alphabets and skips all others.
-/

namespace QuizBackend.Lib.Base64

open UInt8

def sextetChar (n : Nat) : Char :=
  if n < 26 then Char.ofNat (65 + n)
  else if n < 52 then Char.ofNat (97 + (n - 26))
  else if n < 62 then Char.ofNat (48 + (n - 52))
  else if n = 62 then '-' else '_'

def sextet? (c : Char) : Option Nat :=
  if 'A' ≤ c ∧ c ≤ 'Z' then some (c.toNat - 65)
  else if 'a' ≤ c ∧ c ≤ 'z' then some (c.toNat - 97 + 26)
  else if '0' ≤ c ∧ c ≤ '9' then some (c.toNat - 48 + 52)
  else if c = '-' ∨ c = '+' then some 62
  else if c = '_' ∨ c = '/' then some 63
  else none

def toSextets : List Nat → List Nat
  | a :: b :: c :: rest => a / 4 :: (a % 4 * 16 + b / 16) :: (b % 16 * 4 + c / 64) :: c % 64 :: toSextets rest
  | [a, b] => [a / 4, a % 4 * 16 + b / 16, b % 16 * 4]
  | [a] => [a / 4, a % 4 * 16]
  | [] => []

def ofSextets : List Nat → List Nat
  | p :: q :: r :: s :: rest => (p * 4 + q / 16) :: (q % 16 * 16 + r / 4) :: (r % 4 * 64 + s) :: ofSextets rest
  | [p, q, r] => [p * 4 + q / 16, q % 16 * 16 + r / 4]
  | [p, q] => [p * 4 + q / 16]
  | _ => []

/-- `Buffer.toString('base64url')`. -/
def encode (bytes : ByteArray) : String :=
  String.ofList ((toSextets (bytes.data.toList.map toNat)).map sextetChar)

/-- `Buffer.from(text, 'base64url')`; other characters are skipped. -/
def decode (text : String) : ByteArray :=
  ⟨((ofSextets (text.toList.filterMap sextet?)).map ofNat).toArray⟩

theorem sextet?_sextetChar : ∀ n : Fin 64, sextet? (sextetChar n) = some n.val := by decide

theorem lt_of_mem_toSextets {bytes : List Nat} (h : ∀ b ∈ bytes, b < 256) :
    ∀ n ∈ toSextets bytes, n < 64 := by
  induction bytes using toSextets.induct with
  | case1 a b c rest ih =>
    simp only [List.forall_mem_cons] at h
    simp only [toSextets, List.forall_mem_cons]
    exact ⟨by omega, by omega, by omega, by omega, ih h.2.2.2⟩
  | case2 a b =>
    simp only [List.forall_mem_cons] at h
    simp only [toSextets, List.forall_mem_cons]
    exact ⟨by omega, by omega, by omega, by simp⟩
  | case3 a =>
    simp only [List.forall_mem_cons] at h
    simp only [toSextets, List.forall_mem_cons]
    exact ⟨by omega, by omega, by simp⟩
  | case4 => simp [toSextets]

theorem ofSextets_toSextets {bytes : List Nat} (h : ∀ b ∈ bytes, b < 256) :
    ofSextets (toSextets bytes) = bytes := by
  induction bytes using toSextets.induct with
  | case1 a b c rest ih =>
    simp only [List.forall_mem_cons] at h
    simp only [toSextets, ofSextets, ih h.2.2.2, List.cons.injEq, and_true]
    omega
  | case2 a b =>
    simp only [List.forall_mem_cons] at h
    simp only [toSextets, ofSextets, List.cons.injEq, and_true]
    omega
  | case3 a =>
    simp only [toSextets, ofSextets, List.cons.injEq, and_true]
    omega
  | case4 => rfl

/-- **Decoding gives the bytes back.** -/
theorem decode_encode (bytes : ByteArray) : decode (encode bytes) = bytes := by
  have hbytes : ∀ b ∈ bytes.data.toList.map toNat, b < 256 := by
    simp only [List.forall_mem_map]
    exact fun b _ => b.toNat_lt
  have hread : ((toSextets (bytes.data.toList.map toNat)).map sextetChar).filterMap sextet? =
      toSextets (bytes.data.toList.map toNat) := by
    rw [List.filterMap_map]
    refine (List.filterMap_congr fun n hn => ?_).trans List.filterMap_some
    exact sextet?_sextetChar ⟨n, lt_of_mem_toSextets hbytes n hn⟩
  have hback : UInt8.ofNat ∘ UInt8.toNat = id := funext fun b => UInt8.ofNat_toNat
  rw [decode, encode, String.toList_ofList, hread, ofSextets_toSextets hbytes, List.map_map, hback,
    List.map_id]

theorem encode_ne_empty {bytes : ByteArray} (h : bytes ≠ ByteArray.empty) : encode bytes ≠ "" := by
  intro hempty
  rw [← decode_encode bytes, hempty] at h
  exact h rfl

end QuizBackend.Lib.Base64
