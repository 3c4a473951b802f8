import Mathlib.Data.List.Basic
import BlockSuite.Scope

/-!
Names. The characters of a name are neither blanks nor punctuation, so a name is not changed by
trimming, has nothing to be cut at, and is a path on its own.
-/

namespace BlockSuite

namespace Text

variable {c : Char} {cs : List Char}

lemma toNat_of_isAsciiWord (h : isAsciiWord c = true) :
    (0x30 ≤ c.toNat ∧ c.toNat ≤ 0x39) ∨ (0x41 ≤ c.toNat ∧ c.toNat ≤ 0x5A) ∨ c.toNat = 0x5F ∨
      (0x61 ≤ c.toNat ∧ c.toNat ≤ 0x7A) := by
  have hle (a b : Char) : a ≤ b ↔ a.toNat ≤ b.toNat := Iff.rfl
  simp only [isAsciiWord, isAsciiLetter, isAsciiDigit, Bool.or_eq_true, Bool.and_eq_true,
    decide_eq_true_eq, beq_iff_eq, hle] at h
  rcases h with ((⟨h₁, h₂⟩ | ⟨h₁, h₂⟩) | ⟨h₁, h₂⟩) | rfl
  · exact .inr (.inr (.inr ⟨h₁, h₂⟩))
  · exact .inr (.inl ⟨h₁, h₂⟩)
  · exact .inl ⟨h₁, h₂⟩
  · exact .inr (.inr (.inl rfl))

lemma isWord_of_ascii (h : isAsciiWord c = true) : isWord c = true := by
  have hc := toNat_of_isAsciiWord h
  exact isWord_of_isAsciiWord h (by omega)

/-- A word character is no punctuation of the ASCII characters. -/
lemma ne_of_isWord (h : isWord c = true) {d : Char} (hd : d.toNat < 0x80)
    (hword : isAsciiWord d = false) : c ≠ d := by
  rintro rfl
  rw [isWord, if_pos hd, hword] at h
  cases h

/-- The blanks that are no ASCII characters. -/
def wideBlanks : List Nat :=
  [0x85, 0xA0, 0x1680, 0x2000, 0x2001, 0x2002, 0x2003, 0x2004, 0x2005, 0x2006, 0x2007, 0x2008,
    0x2009, 0x200A, 0x2028, 0x2029, 0x202F, 0x205F, 0x3000]

lemma mem_wideBlanks (h : isBlank c = true) (hc : 0x80 ≤ c.toNat) : c.toNat ∈ wideBlanks := by
  simp only [isBlank, Bool.or_eq_true, Bool.and_eq_true, decide_eq_true_eq, beq_iff_eq] at h
  simp only [wideBlanks, List.mem_cons, List.not_mem_nil, or_false]
  omega

lemma isBlank_of_isWord (h : isWord c = true) : isBlank c = false := by
  by_contra hblank
  rw [Bool.not_eq_false] at hblank
  by_cases hc : 0x80 ≤ c.toNat
  · have hwide : ∀ n ∈ wideBlanks, inRanges wordRanges n = false := by decide +kernel
    rw [isWord, if_neg (by omega), hwide _ (mem_wideBlanks hblank hc)] at h
    cases h
  · rw [isWord, if_pos (by omega)] at h
    have hword := toNat_of_isAsciiWord h
    simp only [isBlank, Bool.or_eq_true, Bool.and_eq_true, decide_eq_true_eq, beq_iff_eq] at hblank
    omega

lemma trimRight_of_not_blank (h : ∀ c ∈ cs, isBlank c = false) : trimRight cs = cs := by
  unfold trimRight
  cases hr : cs.reverse with
  | nil => simpa using hr
  | cons c rest =>
    have hc : isBlank c = false := h c (List.mem_reverse.mp (hr ▸ List.mem_cons_self))
    rw [List.dropWhile_cons_of_neg (by simp [hc]), ← hr, List.reverse_reverse]

/-- Nothing is trimmed of a text without blanks. -/
lemma trimChars_of_not_blank (h : ∀ c ∈ cs, isBlank c = false) : trimChars cs = cs := by
  have hleft : trimLeft cs = cs := by
    cases cs with
    | nil => rfl
    | cons c rest => rw [trimLeft_cons, h c List.mem_cons_self]; rfl
  rw [trimChars, hleft, trimRight_of_not_blank h]

/-- Nothing of a word is trimmed. -/
lemma trimChars_words (h : ∀ c ∈ cs, isWord c = true) : trimChars cs = cs :=
  trimChars_of_not_blank fun c hc => isBlank_of_isWord (h c hc)

lemma trim_words {s : String} (h : ∀ c ∈ s.toList, isWord c = true) : trim s = s := by
  rw [trim, trimChars_words h, String.ofList_toList]

lemma splitChars_of_not_mem {sep : Char} (h : sep ∉ cs) : splitChars sep cs = [cs] := by
  induction cs with
  | nil => rfl
  | cons c rest ih =>
    rw [List.mem_cons, not_or] at h
    rw [splitChars, if_neg (Ne.symm h.1), ih h.2]

lemma splitChars_append {sep : Char} (h : sep ∉ cs) (rest : List Char) :
    splitChars sep (cs ++ sep :: rest) = cs :: splitChars sep rest := by
  induction cs with
  | nil => rw [List.nil_append, splitChars, if_pos rfl]
  | cons c cs ih =>
    rw [List.mem_cons, not_or] at h
    rw [List.cons_append, splitChars, if_neg (Ne.symm h.1), ih h.2]

/-- The items of a list that is written with commas: a blank stands before each but the first. -/
lemma splitChars_intercalate {css : List (List Char)} (hcs : ',' ∉ cs) (h : ∀ ds ∈ css, ',' ∉ ds) :
    splitChars ',' ([',', ' '].intercalate (cs :: css)) = cs :: css.map (' ' :: ·) := by
  induction css generalizing cs with
  | nil => rw [List.intercalate_singleton, splitChars_of_not_mem hcs, List.map_nil]
  | cons ds rest ih =>
    have hrest := ih (h ds List.mem_cons_self) fun es hes => h es (List.mem_cons_of_mem _ hes)
    rw [List.intercalate_cons_cons, List.append_assoc, List.cons_append, splitChars_append hcs,
      List.singleton_append, splitChars, if_neg (by decide), hrest]
    rfl

lemma splitAt_intercalate {s : String} {ss : List String} (hs : ',' ∉ s.toList)
    (h : ∀ t ∈ ss, ',' ∉ t.toList) : splitAt ',' (", ".intercalate (s :: ss)) =
      s :: ss.map fun t => String.ofList (' ' :: t.toList) := by
  have hrest : ∀ ds ∈ ss.map String.toList, ',' ∉ ds := fun ds hds => by
    obtain ⟨t, ht, rfl⟩ := List.mem_map.mp hds
    exact h t ht
  rw [splitAt, String.toList_intercalate]
  refine (congrArg (List.map String.ofList) (splitChars_intercalate hs hrest)).trans ?_
  rw [List.map_cons, String.ofList_toList, List.map_map, List.map_map]
  rfl

lemma not_mem_intercalate {sep : List Char} {css : List (List Char)} (hsep : c ∉ sep)
    (h : ∀ ds ∈ css, c ∉ ds) : c ∉ sep.intercalate css := by
  induction css with
  | nil => simp
  | cons ds rest ih =>
    have hfirst := h ds List.mem_cons_self
    have hrest := ih fun es hes => h es (List.mem_cons_of_mem _ hes)
    cases rest with
    | nil => rwa [List.intercalate_singleton]
    | cons es rest =>
      rw [List.intercalate_cons_cons, List.mem_append, List.mem_append]
      rintro ((hmem | hmem) | hmem)
      · exact hfirst hmem
      · exact hsep hmem
      · exact hrest hmem

lemma cutAt_of_not_mem {sep : Char} {s : String} (h : sep ∉ s.toList) : cutAt sep s = (s, "") := by
  have hkeep : ∀ c ∈ s.toList, (c != sep) = true := fun c hc => by
    simpa using fun heq : c = sep => h (heq ▸ hc)
  have htake : s.toList.takeWhile (· != sep) = s.toList := by
    rw [← List.append_nil s.toList, List.takeWhile_append_of_pos hkeep, List.takeWhile_nil]
  have hdrop : s.toList.dropWhile (· != sep) = [] := by
    rw [← List.append_nil s.toList, List.dropWhile_append_of_pos hkeep, List.dropWhile_nil]
  rw [cutAt, htake, hdrop, String.ofList_toList, List.drop_nil]

end Text

namespace Name

variable {s : String} {cs : List Char}

lemma isAsciiWord_of_isHead {c : Char} (h : isHead c = true) : Text.isAsciiWord c = true := by
  rcases Bool.or_eq_true _ _ ▸ h with hletter | hscore
  · simp [Text.isAsciiWord, hletter]
  · simp [Text.isAsciiWord, beq_iff_eq.mp hscore]

/-- The characters of a variable's name. -/
lemma words_of_isVariable (h : isVariable s = true) : ∀ c ∈ s.toList, Text.isWord c = true := by
  unfold isVariable at h
  cases hs : s.toList with
  | nil => simp
  | cons c rest =>
    rw [hs] at h
    obtain ⟨hhead, hrest⟩ : isHead c = true ∧ ∀ x ∈ rest, Text.isWord x = true := by
      simpa [isIdentifierOf] using h
    intro x hx
    rcases List.mem_cons.mp hx with rfl | hx
    · exact Text.isWord_of_ascii (isAsciiWord_of_isHead hhead)
    · exact hrest x hx

/-- An identifier may be the name of a variable. -/
lemma isVariable_of_isIdentifier (h : isIdentifier s.toList = true) : isVariable s = true := by
  unfold isVariable
  cases hs : s.toList with
  | nil => rw [hs] at h; cases h
  | cons c rest =>
    rw [hs] at h
    obtain ⟨hhead, hrest⟩ : isHead c = true ∧ ∀ x ∈ rest, Text.isAsciiWord x = true := by
      simpa [isIdentifier, isIdentifierOf] using h
    simpa [isIdentifierOf, hhead] using fun x hx => Text.isWord_of_ascii (hrest x hx)

/-- No punctuation of the ASCII characters stands in a name. -/
lemma not_mem_of_isVariable (h : isVariable s = true) {d : Char} (hd : d.toNat < 0x80)
    (hword : Text.isAsciiWord d = false) : d ∉ s.toList := fun hmem =>
  Text.ne_of_isWord (words_of_isVariable h d hmem) hd hword rfl

/-- No line feed is at the end of an identifier. -/
lemma dropLineFeed_identifier (h : isIdentifier s.toList = true) :
    Text.dropLineFeed s.toList = s.toList := by
  have hfeed : '\n' ∉ s.toList :=
    not_mem_of_isVariable (isVariable_of_isIdentifier h) (by decide) (by decide)
  exact if_neg fun heq => hfeed (List.mem_of_getLast? heq)

/-- An identifier is the variable name that it is. -/
lemma matchVariable?_identifier (h : isIdentifier s.toList = true) : matchVariable? s = some s := by
  rw [matchVariable?, dropLineFeed_identifier h, if_pos h, String.ofList_toList]

/-- An identifier is a block type without a plugin. -/
lemma matchBlockType?_identifier (h : isIdentifier s.toList = true) :
    matchBlockType? s = some (none, s) := by
  have hdot : '.' ∉ s.toList :=
    not_mem_of_isVariable (isVariable_of_isIdentifier h) (by decide) (by decide)
  rw [matchBlockType?, dropLineFeed_identifier h, Text.splitChars_of_not_mem hdot]
  dsimp only
  rw [if_pos h, String.ofList_toList]

end Name

/-- An identifier is a path of one segment. -/
lemma Path.ofText_identifier {v : String} (h : Name.isIdentifier v.toList = true) :
    Path.ofText v = .ok ⟨v, []⟩ := by
  have hv := Name.isVariable_of_isIdentifier h
  have hdot : '.' ∉ v.toList := Name.not_mem_of_isVariable hv (by decide) (by decide)
  rw [Path.ofText, Text.trim_words (Name.words_of_isVariable hv), Text.splitAt,
    Text.splitChars_of_not_mem hdot, List.map_singleton, String.ofList_toList]
  dsimp only
  rw [Name.matchVariable?_identifier h]
  rfl

end BlockSuite
