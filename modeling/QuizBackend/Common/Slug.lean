import QuizBackend.Lib.Text

/-!
# Slugs (`slug.util.ts`)

`buildSlug` makes a slug of a title in six replacements, `normalizeSlugOrThrow` accepts a slug that
somebody has written. What the pattern asks of a text is said as four facts about its characters
(`WellFormed`), of which the replacements establish one after the other and lose none.

`toLowerCase` is that of Unicode: the mapping of a character beyond ASCII, which may look at what
stands around it, is a parameter, but for the two characters that become ASCII letters.
-/

namespace QuizBackend.Common

open Lib

/-! ## The functions -/

def isSlugChar (c : Char) : Bool := ('a' ≤ c && c ≤ 'z') || ('0' ≤ c && c ≤ '9')

/-- The lower-case mapping of the characters beyond ASCII, given the characters before (the nearest
first) and after. -/
abbrev Mapping := List Char → Char → List Char → List Char

def lowerChar (beyond : Mapping) (before : List Char) (c : Char) (after : List Char) : List Char :=
  if c.toNat < 128 then [c.toLower]
  else if c.toNat = 0x212A then ['k']          -- the Kelvin sign
  else if c.toNat = 0x130 then ['i', '\u0307'] -- a dotted capital I
  else beyond before c after

def lowerFrom (beyond : Mapping) (before : List Char) : List Char → List Char
  | [] => []
  | c :: after => lowerChar beyond before c after ++ lowerFrom beyond (c :: before) after

def toLowerCase (beyond : Mapping) (text : String) : String :=
  String.ofList (lowerFrom beyond [] text.toList)

/-- `DEFAULT_SLUG_PATTERN`, `/^[a-z0-9]+(?:-[a-z0-9]+)*$/`; `inWord` once a word has begun. -/
def matchesFrom : Bool → List Char → Bool
  | inWord, [] => inWord
  | inWord, c :: l =>
    if isSlugChar c then matchesFrom true l else c = '-' && inWord && matchesFrom false l

def defaultSlugPattern (text : String) : Bool := matchesFrom false text.toList

/-- What `buildSlug` does after `trim` and `toLowerCase`. -/
def clean (l : List Char) : List Char :=
  let l := l.filter fun c => isSlugChar c || isWhiteSpace c || c = '-'
  let l := replaceRuns isWhiteSpace '-' false l
  let l := replaceRuns (· = '-') '-' false l
  strip (· = '-') l

def buildSlug (beyond : Mapping) (input : String) : String :=
  String.ofList (clean (toLowerCase beyond (trim input)).toList)

structure SlugOptions where
  pattern : Option (String → Bool)
  emptyMessage : Option String
  invalidMessage : Option String

def normalizeSlugOrThrow (beyond : Mapping) (input : String) (options : SlugOptions) :
    Except String String :=
  let slug := toLowerCase beyond (trim input)
  if slug = "" then .error (options.emptyMessage.getD "Slug cannot be empty")
  else if !(options.pattern.getD defaultSlugPattern) slug then
    .error (options.invalidMessage.getD
      "Slug must be lowercase and can only contain letters, numbers, and hyphens")
  else .ok slug

/-! ## The pattern -/

variable {l : List Char} {c : Char}

/-- Words and hyphens only, no two hyphens side by side, and none at either end. -/
structure WellFormed (l : List Char) : Prop where
  chars : ∀ c ∈ l, isSlugChar c ∨ c = '-'
  noRuns : NoRuns (· = '-') l
  first : ∀ c ∈ l.head?, c ≠ '-'
  last : ∀ c ∈ l.getLast?, c ≠ '-'

theorem isSlugChar_iff : isSlugChar c = true ↔
    97 ≤ c.toNat ∧ c.toNat ≤ 122 ∨ 48 ≤ c.toNat ∧ c.toNat ≤ 57 := by
  simp only [isSlugChar, Bool.or_eq_true, Bool.and_eq_true, decide_eq_true_eq, Char.le_def,
    UInt32.le_iff_toNat_le]
  exact Iff.rfl

theorem isSlugChar_hyphen : isSlugChar '-' = false := by decide

theorem ne_hyphen_of_slugChar (h : isSlugChar c = true) : c ≠ '-' := by
  rintro rfl
  rw [isSlugChar_hyphen] at h
  cases h

theorem matchesFrom_iff (b : Bool) : matchesFrom b l = true ↔
    (∀ c ∈ l, isSlugChar c ∨ c = '-') ∧ NoRuns (· = '-') l ∧ (∀ c ∈ l.getLast?, c ≠ '-') ∧
      (b = false → ∃ c ∈ l.head?, c ≠ '-') := by
  induction l generalizing b with
  | nil => cases b <;> simp [matchesFrom, NoRuns]
  | cons c l ih =>
    have hlast : (∀ d ∈ (c :: l).getLast?, d ≠ '-') ↔
        (l = [] → c ≠ '-') ∧ ∀ d ∈ l.getLast?, d ≠ '-' := by
      cases l with
      | nil => simp
      | cons d l => simp [List.getLast?_cons_cons]
    rw [matchesFrom, List.forall_mem_cons, noRuns_cons, hlast, List.head?_cons]
    by_cases hc : isSlugChar c = true
    · have hne := ne_hyphen_of_slugChar hc
      rw [if_pos hc, ih]
      simp [hc, hne]
    · rw [if_neg hc]
      by_cases hhyphen : c = '-'
      · cases b with
        | false => simp [hhyphen]
        | true =>
          simp only [hhyphen, decide_true, Bool.true_and, ih]
          cases l with
          | nil => simp
          | cons d l => simp; tauto
      · simp [hc, hhyphen]

theorem defaultSlugPattern_iff {text : String} :
    defaultSlugPattern text = true ↔ text.toList ≠ [] ∧ WellFormed text.toList := by
  rw [defaultSlugPattern, matchesFrom_iff]
  constructor
  · rintro ⟨hchars, hruns, hlast, hfirst⟩
    obtain ⟨c, hc, hne⟩ := hfirst rfl
    refine ⟨?_, hchars, hruns, fun d hd => ?_, hlast⟩
    · intro hnil
      rw [hnil] at hc
      cases hc
    · rw [Option.mem_unique hd hc]
      exact hne
  · rintro ⟨hne, hchars, hruns, hfirst, hlast⟩
    refine ⟨hchars, hruns, hlast, fun _ => ?_⟩
    obtain ⟨c, l, hl⟩ := List.exists_cons_of_ne_nil hne
    rw [hl]
    exact ⟨c, rfl, hfirst c (by rw [hl]; rfl)⟩

/-! ## What `clean` leaves -/

theorem isWhiteSpace_slugChar (h : isSlugChar c = true) : isWhiteSpace c = false := by
  rw [isSlugChar_iff] at h
  simp only [isWhiteSpace, decide_eq_false_iff_not, List.mem_cons, List.not_mem_nil, or_false,
    not_or]
  omega

theorem isWhiteSpace_of_chars (h : isSlugChar c ∨ c = '-') : isWhiteSpace c = false := by
  rcases h with hslug | rfl
  · exact isWhiteSpace_slugChar hslug
  · rfl

theorem mem_clean (h : c ∈ clean l) : c = '-' ∨ c ∈ l ∧ isSlugChar c = true := by
  rcases mem_replaceRuns (infix_of_strip.subset h) with rfl | ⟨h, hhyphen⟩
  · exact .inl rfl
  rcases mem_replaceRuns h with rfl | ⟨h, hspace⟩
  · exact .inl rfl
  obtain ⟨hmem, hkept⟩ := List.mem_filter.mp h
  rw [hspace, hhyphen, Bool.or_false, Bool.or_false] at hkept
  exact .inr ⟨hmem, hkept⟩

theorem mem_clean_of_slugChar (h : c ∈ l) (hc : isSlugChar c = true) : c ∈ clean l := by
  have hhyphen : decide (c = '-') = false := decide_eq_false (ne_hyphen_of_slugChar hc)
  have hkept : c ∈ l.filter fun c => isSlugChar c || isWhiteSpace c || c = '-' :=
    List.mem_filter.mpr ⟨h, by rw [hc]; rfl⟩
  have hspaces := mem_replaceRuns_of_not (r := '-') hkept (isWhiteSpace_slugChar hc) false
  have hhyphens := mem_replaceRuns_of_not (p := (· = '-')) (r := '-') hspaces hhyphen false
  exact mem_strip (p := (· = '-')) hhyphens hhyphen

/-- **The replacements establish the pattern.** -/
theorem wellFormed_clean (l : List Char) : WellFormed (clean l) := by
  refine ⟨fun c hc => ?_, ?_, fun c hc => ?_, fun c hc => ?_⟩
  · rcases mem_clean hc with rfl | ⟨-, hslug⟩
    · exact .inr rfl
    · exact .inl hslug
  · exact List.IsChain.infix (noRuns_replaceRuns _ _ _ _).1 infix_of_strip
  · exact of_decide_eq_false (head?_strip_not (p := (· = '-')) hc)
  · exact of_decide_eq_false (getLast?_strip_not (p := (· = '-')) hc)

/-- **They leave it alone.** -/
theorem clean_of_wellFormed (h : WellFormed l) : clean l = l := by
  obtain ⟨hchars, hruns, hfirst, hlast⟩ := h
  have hkept : l.filter (fun c => isSlugChar c || isWhiteSpace c || c = '-') = l := by
    refine List.filter_eq_self.mpr fun c hc => ?_
    rcases hchars c hc with hslug | rfl
    · rw [hslug]
      rfl
    · rfl
  have hspaces : ∀ c ∈ l, isWhiteSpace c = false :=
    fun c hc => isWhiteSpace_of_chars (hchars c hc)
  simp only [clean, hkept]
  rw [replaceRuns_of_forall_not hspaces,
    replaceRuns_of_noRuns (fun a ha => of_decide_eq_true ha) hruns fun h => by cases h]
  exact strip_eq_self (fun c hc => decide_eq_false (hfirst c hc))
    fun c hc => decide_eq_false (hlast c hc)

theorem clean_eq_nil_iff : clean l = [] ↔ ∀ c ∈ l, isSlugChar c = false := by
  constructor
  · intro hnil c hc
    by_contra hslug
    have hmem := mem_clean_of_slugChar hc (Bool.not_eq_false _ ▸ hslug)
    rw [hnil] at hmem
    cases hmem
  · intro hnone
    by_contra hne
    obtain ⟨c, cs, hcs⟩ := List.exists_cons_of_ne_nil hne
    have hfirst := (wellFormed_clean l).first c (by rw [hcs]; rfl)
    rcases mem_clean (l := l) (c := c) (by rw [hcs]; exact List.mem_cons_self) with h | ⟨h, hslug⟩
    · exact hfirst h
    · rw [hnone c h] at hslug
      cases hslug

/-! ## `trim` and `toLowerCase` -/

variable {beyond : Mapping}

def StaysBeyond (beyond : Mapping) : Prop :=
  ∀ before c after, 128 ≤ c.toNat → c.toNat ≠ 0x212A → c.toNat ≠ 0x130 →
    ∀ x ∈ beyond before c after, 128 ≤ x.toNat

def lowersToSlug (c : Char) : Bool :=
  (c.toNat < 128 && isSlugChar c.toLower) || c.toNat = 0x212A || c.toNat = 0x130

/-- A text of slug characters and hyphens is what it is lower-cased and trimmed. -/
theorem lowerFrom_of_wellFormed (h : ∀ c ∈ l, isSlugChar c ∨ c = '-') (before : List Char) :
    lowerFrom beyond before l = l := by
  induction l generalizing before with
  | nil => rfl
  | cons c l ih =>
    obtain ⟨hc, hl⟩ := List.forall_mem_cons.mp h
    have hlower : lowerChar beyond before c l = [c] := by
      have hrange : c.toNat < 128 ∧ ¬ (65 ≤ c.toNat ∧ c.toNat ≤ 90) := by
        rcases hc with hslug | rfl
        · rw [isSlugChar_iff] at hslug
          omega
        · decide
      have hsame : c.toLower = c := by
        refine dif_neg fun hupper => ?_
        simp only [ge_iff_le, UInt32.le_iff_toNat_le] at hupper
        exact hrange.2 hupper
      rw [lowerChar, if_pos hrange.1, hsame]
    rw [lowerFrom, hlower, ih hl]
    rfl

section Lower

variable (hbeyond : StaysBeyond beyond)

include hbeyond

theorem exists_slugChar_lowerChar (before : List Char) (c : Char) (after : List Char) :
    (∃ x ∈ lowerChar beyond before c after, isSlugChar x = true) ↔ lowersToSlug c = true := by
  unfold lowerChar lowersToSlug
  by_cases hascii : c.toNat < 128
  · have hother : c.toNat ≠ 0x212A ∧ c.toNat ≠ 0x130 := by omega
    simp [hascii, hother]
  by_cases hkelvin : c.toNat = 0x212A
  · have hk : isSlugChar 'k' = true := by decide
    simp [hkelvin, hk]
  by_cases hdotted : c.toNat = 0x130
  · have hi : isSlugChar 'i' = true := by decide
    simp [hdotted, hi]
  · simp only [hascii, hkelvin, hdotted, if_false, decide_false, Bool.false_and, Bool.or_false,
      Bool.false_eq_true, iff_false]
    rintro ⟨x, hx, hslug⟩
    have hx := hbeyond before c after (by omega) hkelvin hdotted x hx
    rw [isSlugChar_iff] at hslug
    omega

theorem exists_slugChar_lowerFrom (before : List Char) :
    (∃ x ∈ lowerFrom beyond before l, isSlugChar x = true) ↔
      ∃ c ∈ l, lowersToSlug c = true := by
  induction l generalizing before with
  | nil => simp [lowerFrom]
  | cons c l ih =>
    rw [lowerFrom, List.exists_mem_cons_iff, ← ih (c :: before),
      ← exists_slugChar_lowerChar hbeyond before c l]
    simp only [List.mem_append, or_and_right, exists_or]

theorem exists_slugChar_trim (text : String) :
    (∃ x ∈ (toLowerCase beyond (trim text)).toList, isSlugChar x = true) ↔
      ∃ x ∈ (toLowerCase beyond text).toList, isSlugChar x = true := by
  simp only [toLowerCase, trim_eq, String.toList_ofList, exists_slugChar_lowerFrom hbeyond]
  constructor
  · rintro ⟨c, hc, hlower⟩
    exact ⟨c, infix_of_strip.subset hc, hlower⟩
  · rintro ⟨c, hc, hlower⟩
    refine ⟨c, mem_strip hc ?_, hlower⟩
    by_contra hspace
    have hnone : ∀ n ∈ [9, 10, 11, 12, 13, 32, 160, 5760, 8192, 8193, 8194, 8195, 8196, 8197, 8198,
        8199, 8200, 8201, 8202, 8232, 8233, 8239, 8287, 12288, 65279],
        lowersToSlug (Char.ofNat n) = false := by decide +kernel
    have hmem := hnone c.toNat (of_decide_eq_true (Bool.not_eq_false _ ▸ hspace))
    rw [Char.ofNat_toNat, hlower] at hmem
    cases hmem


end Lower

/-! ## Slugs are canonical -/

/-- What a slug is to be: of the pattern, stable, empty for want of characters only, and the same
whichever function has made it. -/
structure Canonical (beyond : Mapping) (text : String) : Prop where
  wellFormed : buildSlug beyond text = "" ∨ defaultSlugPattern (buildSlug beyond text) = true
  idempotent : buildSlug beyond (buildSlug beyond text) = buildSlug beyond text
  empty_iff : buildSlug beyond text = "" ↔
    ∀ c ∈ (toLowerCase beyond text).toList, isSlugChar c = false
  accepted : ∀ options slug, options.pattern = none →
    normalizeSlugOrThrow beyond text options = .ok slug → buildSlug beyond text = slug

theorem buildSlug_of_wellFormed {text : String} (h : WellFormed text.toList) :
    buildSlug beyond text = text := by
  have htrim : trim text = text := by
    rw [trim_eq, strip_eq_self, String.ofList_toList]
    · exact fun c hc => isWhiteSpace_of_chars (h.chars c (List.mem_of_head? hc))
    · exact fun c hc => isWhiteSpace_of_chars (h.chars c (List.mem_of_getLast? hc))
  rw [buildSlug, htrim, toLowerCase, String.toList_ofList, lowerFrom_of_wellFormed h.chars,
    clean_of_wellFormed h, String.ofList_toList]

/-- **Slugs are canonical**, for every text. -/
theorem slug_canonical (hbeyond : StaysBeyond beyond) (text : String) : Canonical beyond text := by
  have hwell : WellFormed (buildSlug beyond text).toList := by
    rw [buildSlug, String.toList_ofList]
    exact wellFormed_clean _
  refine ⟨?_, buildSlug_of_wellFormed hwell, ?_, ?_⟩
  · by_cases hempty : buildSlug beyond text = ""
    · exact .inl hempty
    · refine .inr (defaultSlugPattern_iff.mpr ⟨fun hnil => hempty ?_, hwell⟩)
      exact String.toList_injective hnil
  · have hnone : buildSlug beyond text = "" ↔
        ∀ c ∈ (toLowerCase beyond (trim text)).toList, isSlugChar c = false := by
      rw [← clean_eq_nil_iff, buildSlug, String.ofList_eq_empty_iff]
    have htrim := not_congr (exists_slugChar_trim hbeyond text)
    simp only [not_exists, not_and, Bool.not_eq_true] at htrim
    rw [hnone, htrim]
  · intro options slug hdefault hok
    simp only [normalizeSlugOrThrow, hdefault, Option.getD_none] at hok
    split at hok
    · cases hok
    · split at hok
      · cases hok
      · next hpattern =>
        have hmatch : defaultSlugPattern (toLowerCase beyond (trim text)) = true := by
          simpa using hpattern
        rw [← Except.ok.inj hok, buildSlug, clean_of_wellFormed (defaultSlugPattern_iff.mp hmatch).2,
          String.ofList_toList]

/-- Letters that are lower case already. -/
theorem creme_brulee_canonical : Canonical (fun _ c _ => [c]) " Crème Brûlée – 2" := by
  refine slug_canonical (fun _ c _ hc _ _ x hx => ?_) _
  rw [List.mem_singleton.mp hx]
  exact hc

end QuizBackend.Common
