import Mathlib.Data.List.Basic
import Mathlib.Tactic.Common

/-!
# JSON texts

`JSON.parse`, and `JSON.stringify` of an object whose members are strings. A string of the text is read
as a list of code units, in which an escape is one and a character above the basic plane is its code
point; surrogates that come in pairs are put together afterwards. The fuel of the parser is the length of
the text, of which every call takes at least one character. A number stands as it is written.
-/

namespace QuizBackend.Lib

/-- A JSON value. Numbers are kept as their texts. -/
inductive Json
  | null
  | bool (value : Bool)
  | number (text : String)
  | str (text : String)
  | arr (items : List Json)
  | obj (members : List (String × Json))

namespace Json

/-! ## Strings -/

def hexVal (c : Char) : Option Nat :=
  if '0' ≤ c ∧ c ≤ '9' then some (c.toNat - 48)
  else if 'a' ≤ c ∧ c ≤ 'f' then some (c.toNat - 87)
  else if 'A' ≤ c ∧ c ≤ 'F' then some (c.toNat - 55)
  else none

def hex4 (a b c d : Char) : Option Nat := do
  return (((← hexVal a) * 16 + (← hexVal b)) * 16 + (← hexVal c)) * 16 + (← hexVal d)

def unescape (c : Char) : Option Char :=
  if c = '"' ∨ c = '\\' ∨ c = '/' then some c
  else if c = 'b' then some (Char.ofNat 8)
  else if c = 't' then some (Char.ofNat 9)
  else if c = 'n' then some (Char.ofNat 10)
  else if c = 'f' then some (Char.ofNat 12)
  else if c = 'r' then some (Char.ofNat 13)
  else none

def units : List Char → Option (List Nat × List Char)
  | [] => none
  | '\\' :: 'u' :: a :: b :: c :: d :: rest => do
    let unit ← hex4 a b c d
    let (others, rest) ← units rest
    return (unit :: others, rest)
  | '\\' :: e :: rest => do
    let c ← unescape e
    let (others, rest) ← units rest
    return (c.toNat :: others, rest)
  | c :: rest =>
    if c = '"' then some ([], rest)
    else if c.toNat < 32 then none
    else do
      let (others, rest) ← units rest
      return (c.toNat :: others, rest)

def isHigh (n : Nat) : Bool := 0xD800 ≤ n && n < 0xDC00

def isLow (n : Nat) : Bool := 0xDC00 ≤ n && n < 0xE000

/-- A surrogate on its own becomes U+FFFD, as it does when the string is written as UTF-8. -/
def ofUnits : List Nat → List Char
  | [] => []
  | high :: low :: rest =>
    if isHigh high && isLow low then
      Char.ofNat (0x10000 + (high - 0xD800) * 0x400 + (low - 0xDC00)) :: ofUnits rest
    else (if isHigh high || isLow high then Char.ofNat 0xFFFD else Char.ofNat high) :: ofUnits (low :: rest)
  | [unit] => [if isHigh unit || isLow unit then Char.ofNat 0xFFFD else Char.ofNat unit]

/-- A string after its opening quote, and what follows it. -/
def readString (cs : List Char) : Option (String × List Char) :=
  (units cs).map fun x => (String.ofList (ofUnits x.1), x.2)

/-! ## Values -/

def isSpace (c : Char) : Bool := c == ' ' || c == '\t' || c == '\n' || c == '\r'

def skip (cs : List Char) : List Char := cs.dropWhile isSpace

/-- One digit or more; the rest. -/
def digits : List Char → Option (List Char)
  | c :: cs => if c.isDigit then some (cs.dropWhile Char.isDigit) else none
  | [] => none

def exponent : List Char → Option (List Char)
  | e :: cs =>
    if e = 'e' ∨ e = 'E' then
      match cs with
      | sign :: more => if sign = '+' ∨ sign = '-' then digits more else digits cs
      | [] => none
    else some (e :: cs)
  | [] => some []

def readNumber (cs : List Char) : Option (Json × List Char) := do
  let unsigned := if cs.head? = some '-' then cs.tail else cs
  let whole ← if unsigned.head? = some '0' then some unsigned.tail else digits unsigned
  let fraction ← if whole.head? = some '.' then digits whole.tail else some whole
  let rest ← exponent fraction
  return (.number (String.ofList (cs.take (cs.length - rest.length))), rest)

def word (text : String) (v : Json) (cs : List Char) : Option (Json × List Char) :=
  if text.toList.isPrefixOf cs then some (v, cs.drop text.length) else none

mutual

def readValue : Nat → List Char → Option (Json × List Char)
  | 0, _ => none
  | n + 1, cs =>
    match skip cs with
    | [] => none
    | c :: rest =>
      if c = '"' then (readString rest).map fun x => (.str x.1, x.2)
      else if c = '{' then
        if (skip rest).head? = some '}' then some (.obj [], (skip rest).tail)
        else (readMembers n (skip rest)).map fun x => (.obj x.1, x.2)
      else if c = '[' then
        if (skip rest).head? = some ']' then some (.arr [], (skip rest).tail)
        else (readItems n rest).map fun x => (.arr x.1, x.2)
      else if c = 'n' then word "null" .null (c :: rest)
      else if c = 't' then word "true" (.bool true) (c :: rest)
      else if c = 'f' then word "false" (.bool false) (c :: rest)
      else readNumber (c :: rest)

def readItems : Nat → List Char → Option (List Json × List Char)
  | 0, _ => none
  | n + 1, cs => do
    let (v, rest) ← readValue n cs
    match skip rest with
    | ',' :: rest => do
      let (others, rest) ← readItems n rest
      return (v :: others, rest)
    | ']' :: rest => return ([v], rest)
    | _ => none

def readMembers : Nat → List Char → Option (List (String × Json) × List Char)
  | 0, _ => none
  | n + 1, cs =>
    match skip cs with
    | '"' :: rest => do
      let (key, rest) ← readString rest
      match skip rest with
      | ':' :: rest => do
        let (v, rest) ← readValue n rest
        match skip rest with
        | ',' :: rest => do
          let (others, rest) ← readMembers n rest
          return ((key, v) :: others, rest)
        | '}' :: rest => return ([(key, v)], rest)
        | _ => none
      | _ => none
    | _ => none

end

/-- `JSON.parse`; `none` where it throws. -/
def parse (text : String) : Option Json := do
  let (v, rest) ← readValue (text.toList.length + 1) text.toList
  if (skip rest).isEmpty then some v else none

/-- A member of an object; of several under one name, the last one. -/
def member? (name : String) : Json → Option Json
  | .obj members => members.reverse.lookup name
  | _ => none

/-! ## `JSON.stringify` -/

def hexChar (n : Nat) : Char := if n < 10 then Char.ofNat (48 + n) else Char.ofNat (87 + n)

def escape (c : Char) : List Char :=
  if c = '"' ∨ c = '\\' then ['\\', c]
  else if c.toNat = 8 then ['\\', 'b']
  else if c.toNat = 9 then ['\\', 't']
  else if c.toNat = 10 then ['\\', 'n']
  else if c.toNat = 12 then ['\\', 'f']
  else if c.toNat = 13 then ['\\', 'r']
  else if c.toNat < 32 then ['\\', 'u', '0', '0', hexChar (c.toNat / 16), hexChar (c.toNat % 16)]
  else [c]

/-- A string literal. -/
def quote (text : String) : List Char := '"' :: (text.toList.flatMap escape ++ ['"'])

def stringifyMembers : List (String × String) → List Char
  | [] => []
  | [(key, text)] => quote key ++ ':' :: quote text
  | (key, text) :: rest => quote key ++ ':' :: (quote text ++ ',' :: stringifyMembers rest)

def stringify (fields : List (String × String)) : String :=
  String.ofList ('{' :: (stringifyMembers fields ++ ['}']))

/-! ## What was written is read -/

theorem hexVal_hexChar : ∀ n : Fin 16, hexVal (hexChar n) = some n.val := by decide

theorem units_letter {c e : Char} (he : e ≠ 'u') (hc : unescape e = some c) (rest : List Char) :
    units ('\\' :: e :: rest) = (units rest).map fun x => (c.toNat :: x.1, x.2) := by
  rw [units]
  · rw [hc, Option.map_eq_bind]
    rfl
  · intro a b c d rest h
    exact absurd h he

/-- What is escaped is read as the one character it stands for. -/
theorem units_escape (c : Char) (rest : List Char) :
    units (escape c ++ rest) = (units rest).map fun x => (c.toNat :: x.1, x.2) := by
  have hletter : ∀ {n : Nat} {e : Char}, c.toNat = n → e ≠ 'u' → unescape e = some (Char.ofNat n) →
      units (['\\', e] ++ rest) = (units rest).map fun x => (c.toNat :: x.1, x.2) := by
    intro n e hn he hc
    rw [← hn, Char.ofNat_toNat] at hc
    exact units_letter he hc rest
  unfold escape
  split
  · next h =>
    refine units_letter ?_ (by rw [unescape, if_pos (h.elim .inl fun h => .inr (.inl h))]) rest
    rcases h with rfl | rfl <;> decide
  next hplain =>
  split
  · next h => exact hletter h (by decide) (by decide)
  split
  · next h => exact hletter h (by decide) (by decide)
  split
  · next h => exact hletter h (by decide) (by decide)
  split
  · next h => exact hletter h (by decide) (by decide)
  split
  · next h => exact hletter h (by decide) (by decide)
  split
  · next h =>
    have hhigh := hexVal_hexChar ⟨c.toNat / 16, by omega⟩
    have hlow := hexVal_hexChar ⟨c.toNat % 16, by omega⟩
    have hunit : hex4 '0' '0' (hexChar (c.toNat / 16)) (hexChar (c.toNat % 16)) = some c.toNat := by
      simp only [hex4, hhigh, hlow]
      show some (((0 * 16 + 0) * 16 + c.toNat / 16) * 16 + c.toNat % 16) = some c.toNat
      congr 1
      omega
    simp only [List.cons_append, List.nil_append, units, hunit, Option.map_eq_bind]
    rfl
  · next h =>
    rw [List.singleton_append, units]
    · rw [if_neg fun hc => hplain (.inl hc), if_neg h, Option.map_eq_bind]
      rfl
    · rintro a b c d rest rfl
      exact absurd (.inr rfl) hplain
    · rintro e rest rfl
      exact absurd (.inr rfl) hplain

theorem not_surrogate (c : Char) : isHigh c.toNat = false ∧ isLow c.toNat = false := by
  have hvalid : c.toNat.isValidChar := c.valid
  simp only [isHigh, isLow, Bool.and_eq_false_iff, decide_eq_false_iff_not]
  rcases hvalid with hlow | ⟨hhigh, -⟩ <;> omega

theorem ofUnits_toNat (cs : List Char) : ofUnits (cs.map Char.toNat) = cs := by
  induction cs with
  | nil => rfl
  | cons c cs ih =>
    cases cs with
    | nil => simp [ofUnits, not_surrogate c]
    | cons d cs =>
      simp only [List.map_cons] at ih ⊢
      rw [ofUnits, ih]
      simp [not_surrogate c]

theorem readString_quote (text : String) (rest : List Char) :
    readString (text.toList.flatMap escape ++ '"' :: rest) = some (text, rest) := by
  have hunits : ∀ cs : List Char,
      units (cs.flatMap escape ++ '"' :: rest) = some (cs.map Char.toNat, rest) := by
    intro cs
    induction cs with
    | nil => rfl
    | cons c cs ih => rw [List.flatMap_cons, List.append_assoc, units_escape, ih]; rfl
  rw [readString, hunits, Option.map_some, ofUnits_toNat, String.ofList_toList]

theorem readValue_quote (n : Nat) (text : String) (rest : List Char) :
    readValue (n + 1) (quote text ++ rest) = some (.str text, rest) := by
  have hquote : quote text ++ rest = '"' :: (text.toList.flatMap escape ++ '"' :: rest) := by
    simp [quote]
  have hskip : skip (quote text ++ rest) = quote text ++ rest := by
    rw [hquote]
    rfl
  rw [readValue, hskip, hquote]
  simp only [if_true, readString_quote, Option.map_some]

section Members

variable (n : Nat) (key text : String) (rest : List Char)

theorem readMembers_last :
    readMembers (n + 2) (quote key ++ ':' :: (quote text ++ '}' :: rest)) =
      some ([(key, .str text)], rest) := by
  have hkey : quote key ++ ':' :: (quote text ++ '}' :: rest) =
      '"' :: (key.toList.flatMap escape ++ '"' :: (':' :: (quote text ++ '}' :: rest))) := by
    simp [quote]
  rw [hkey, readMembers]
  simp [skip, isSpace, readString_quote, readValue_quote, bind, Option.bind]

theorem readMembers_more :
    readMembers (n + 2) (quote key ++ ':' :: (quote text ++ ',' :: rest)) =
      (readMembers (n + 1) rest).map fun x => ((key, .str text) :: x.1, x.2) := by
  have hkey : quote key ++ ':' :: (quote text ++ ',' :: rest) =
      '"' :: (key.toList.flatMap escape ++ '"' :: (':' :: (quote text ++ ',' :: rest))) := by
    simp [quote]
  rw [hkey, readMembers, Option.map_eq_bind]
  simp [skip, isSpace, readString_quote, readValue_quote, bind, Option.bind]
  rfl

end Members

theorem readMembers_stringify {fields : List (String × String)} (hne : fields ≠ []) {n : Nat}
    (hn : fields.length < n) (rest : List Char) :
    readMembers n (stringifyMembers fields ++ '}' :: rest) =
      some (fields.map fun field => (field.1, .str field.2), rest) := by
  induction fields generalizing n with
  | nil => exact absurd rfl hne
  | cons field fields ih =>
    obtain ⟨key, text⟩ := field
    obtain ⟨m, rfl⟩ : ∃ m, n = m + 2 := ⟨n - 2, by rw [List.length_cons] at hn; omega⟩
    cases fields with
    | nil =>
      rw [stringifyMembers, List.append_assoc, List.cons_append, readMembers_last]
      rfl
    | cons next fields =>
      rw [stringifyMembers, List.append_assoc, List.cons_append, List.append_assoc, List.cons_append,
        readMembers_more, ih (List.cons_ne_nil _ _) (Nat.lt_of_succ_lt_succ hn)]
      · rfl
      · exact List.cons_ne_nil _ _

theorem length_le_stringifyMembers (fields : List (String × String)) :
    fields.length ≤ (stringifyMembers fields).length := by
  induction fields with
  | nil => exact Nat.le_refl _
  | cons field fields ih =>
    cases fields with
    | nil => simp [stringifyMembers, quote]
    | cons next fields =>
      simp only [stringifyMembers, List.length_append, List.length_cons] at ih ⊢
      omega

/-- **What was stringified is parsed back.** -/
theorem parse_stringify (fields : List (String × String)) :
    parse (stringify fields) = some (.obj (fields.map fun field => (field.1, .str field.2))) := by
  rw [parse, stringify, String.toList_ofList]
  cases fields with
  | nil => rfl
  | cons field fields =>
    obtain ⟨more, hmore⟩ : ∃ more, stringifyMembers (field :: fields) ++ ['}'] = '"' :: more := by
      cases fields with
      | nil => exact ⟨_, rfl⟩
      | cons next fields => exact ⟨_, rfl⟩
    have hfuel : (field :: fields).length < ('{' :: (stringifyMembers (field :: fields) ++ ['}'])).length := by
      have hmembers := length_le_stringifyMembers (field :: fields)
      simp only [List.length_cons, List.length_append] at hmembers ⊢
      omega
    have hmembers := readMembers_stringify (List.cons_ne_nil field fields) hfuel []
    have hvalue : ∀ n, readValue (n + 1) ('{' :: '"' :: more) =
        (readMembers n ('"' :: more)).map fun x => (.obj x.1, x.2) := fun _ => rfl
    rw [hmore] at hmembers ⊢
    rw [hvalue, hmembers]
    rfl

end Json

end QuizBackend.Lib
