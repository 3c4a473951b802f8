import BlockSuite.Proofs.Placeholder
import BlockSuite.Check.Basic

/-!
Patterns of names. The same patterns are read by two engines, which differ in the characters of
words and in what may be left behind the end of a text. A schema accepts words of any script, and
compiled patterns leave a line feed at the end of a text out of account. So the names that both take
are the ASCII identifiers, and these are the names that placeholders and paths can be written with.
-/

namespace BlockSuite

namespace Name

/-- Which texts are names, by the characters of words. -/
abbrev Language := (Char → Bool) → List Char → Prop

/-- The identifiers. -/
def IsName : Language := fun follows cs => isIdentifierOf follows cs = true

/-- The block types: an identifier, or two of them with a dot between. -/
def IsType : Language := fun follows cs =>
  IsName follows cs ∨ ∃ plugin name, IsName follows plugin ∧ IsName follows name ∧
    cs = plugin ++ '.' :: name

end Name

/-- Patterns of texts. -/
inductive Pattern where
  | head
  | word
  | char (c : Char)
  | first
  | last
  | seq (p q : Pattern)
  | many (p : Pattern)
  | optional (p : Pattern)
deriving DecidableEq, Repr

/-- What engines differ in: the characters of words, and what may be left behind the end. -/
structure Engine where
  isWord : Char → Bool
  isEnd : List Char → Bool

namespace Engine

/-- The engine that schemas are checked with. -/
def schema : Engine := ⟨Text.isWord, (· == [])⟩

/-- The engine that compiled patterns are matched with. -/
def compiled : Engine := ⟨Text.isAsciiWord, fun rest => rest == [] || rest == ['\n']⟩

/-- A name of a language, and nothing behind it but what may be left behind the end. -/
def Ends (e : Engine) (language : Name.Language) (cs : List Char) : Prop :=
  ∃ name rest, cs = name ++ rest ∧ language e.isWord name ∧ e.isEnd rest = true

end Engine

namespace Pattern

open Name (IsName IsType)

variable {e : Engine} {text cs rest : List Char} {p q : Pattern} {s : String}

/-- How a pattern is written. -/
def spelling : Pattern → String
  | head => "[a-zA-Z_]"
  | word => "[\\w]"
  | char c => "\\" ++ c.toString
  | first => "^"
  | last => "$"
  | seq p q => p.spelling ++ q.spelling
  | many p => p.spelling ++ "*"
  | optional p => "(" ++ p.spelling ++ ")?"

/-- An identifier. -/
def identifier : Pattern := .seq .head (.many .word)

/-- The name of a variable. -/
def variableName : Pattern := .seq .first (.seq identifier .last)

/-- The type of a block, perhaps behind the name of a plugin. -/
def blockType : Pattern :=
  .seq .first (.seq (.optional (.seq identifier (.char '.'))) (.seq identifier .last))

/-- These are the patterns that messages give. -/
lemma spelling_names : variableName.spelling = Name.variablePattern ∧
    blockType.spelling = Name.blockTypePattern := by decide

/-- A pattern takes the beginning of some characters of a text and leaves the rest. -/
inductive Matches (e : Engine) (text : List Char) : Pattern → List Char → List Char → Prop
  | head {c : Char} {rest : List Char} (h : Name.isHead c = true) :
    Matches e text .head (c :: rest) rest
  | word {c : Char} {rest : List Char} (h : e.isWord c = true) :
    Matches e text .word (c :: rest) rest
  | char {c : Char} {rest : List Char} : Matches e text (.char c) (c :: rest) rest
  | first : Matches e text .first text text
  | last {rest : List Char} (h : e.isEnd rest = true) : Matches e text .last rest rest
  | seq {p q : Pattern} {cs between rest : List Char} (left : Matches e text p cs between)
    (right : Matches e text q between rest) : Matches e text (.seq p q) cs rest
  | stop {p : Pattern} {rest : List Char} : Matches e text (.many p) rest rest
  | again {p : Pattern} {cs between rest : List Char} (one : Matches e text p cs between)
    (more : Matches e text (.many p) between rest) : Matches e text (.many p) cs rest
  | absent {p : Pattern} {rest : List Char} : Matches e text (.optional p) rest rest
  | present {p : Pattern} {cs rest : List Char} (one : Matches e text p cs rest) :
    Matches e text (.optional p) cs rest

/-- An engine finds a pattern in a text. -/
def Found (e : Engine) (p : Pattern) (s : String) : Prop :=
  ∃ before cs rest, s.toList = before ++ cs ∧ Matches e s.toList p cs rest

/-! ### What patterns of names take -/

lemma matches_seq : Matches e text (.seq p q) cs rest ↔
    ∃ between, Matches e text p cs between ∧ Matches e text q between rest := by
  constructor
  · rintro (_ | _ | _ | _ | _ | ⟨left, right⟩)
    exact ⟨_, left, right⟩
  · exact fun ⟨_, left, right⟩ => .seq left right

lemma matches_words : Matches e text (.many .word) cs rest ↔
    ∃ word, cs = word ++ rest ∧ ∀ c ∈ word, e.isWord c = true := by
  constructor
  · intro h
    generalize hp : Pattern.many .word = p at h
    induction h with
    | stop => exact ⟨[], rfl, by simp⟩
    | again one _ _ ih =>
      cases hp
      cases one with
      | word hc =>
        obtain ⟨word, rfl, hword⟩ := ih rfl
        exact ⟨_ :: word, rfl, List.forall_mem_cons.mpr ⟨hc, hword⟩⟩
    | _ => cases hp
  · rintro ⟨word, rfl, hword⟩
    induction word with
    | nil => exact .stop
    | cons c word ih =>
      rw [List.forall_mem_cons] at hword
      exact .again (.word hword.1) (ih hword.2)

lemma matches_identifier : Matches e text identifier cs rest ↔
    ∃ name, cs = name ++ rest ∧ IsName e.isWord name := by
  rw [identifier, matches_seq]
  constructor
  · rintro ⟨between, hhead, hwords⟩
    obtain ⟨word, rfl, hword⟩ := matches_words.mp hwords
    cases hhead with
    | @head c _ hc =>
      exact ⟨c :: word, rfl, by simpa [IsName, Name.isIdentifierOf, hc] using hword⟩
  · rintro ⟨name, rfl, hname⟩
    cases name with
    | nil => cases hname
    | cons c word =>
      obtain ⟨hc, hword⟩ : Name.isHead c = true ∧ ∀ x ∈ word, e.isWord x = true := by
        simpa [IsName, Name.isIdentifierOf] using hname
      exact ⟨word ++ rest, .head hc, matches_words.mpr ⟨word, rfl, hword⟩⟩

lemma matches_last : Matches e text .last cs rest ↔ cs = rest ∧ e.isEnd rest = true := by
  constructor
  · rintro (_ | _ | _ | _ | h)
    exact ⟨rfl, h⟩
  · rintro ⟨rfl, h⟩
    exact .last h

/-- A pattern of the whole text is found where it takes the text from its first character on. -/
lemma found_first : Found e (.seq .first p) s ↔ ∃ rest, Matches e s.toList p s.toList rest := by
  constructor
  · rintro ⟨before, cs, rest, -, h⟩
    obtain ⟨between, hfirst, h⟩ := matches_seq.mp h
    cases hfirst
    exact ⟨rest, h⟩
  · rintro ⟨rest, h⟩
    exact ⟨[], s.toList, rest, rfl, .seq .first h⟩

lemma found_variableName : Found e variableName s ↔ e.Ends IsName s.toList := by
  rw [variableName, found_first]
  constructor
  · rintro ⟨_, h⟩
    obtain ⟨rest, hname, hlast⟩ := matches_seq.mp h
    obtain ⟨name, hs, hname⟩ := matches_identifier.mp hname
    exact ⟨name, rest, hs, hname, (matches_last.mp hlast).1 ▸ (matches_last.mp hlast).2⟩
  · rintro ⟨name, rest, hs, hname, hend⟩
    exact ⟨rest, .seq (matches_identifier.mpr ⟨name, hs, hname⟩) (.last hend)⟩

lemma found_blockType : Found e blockType s ↔ e.Ends IsType s.toList := by
  rw [blockType, found_first]
  constructor
  · rintro ⟨_, h⟩
    obtain ⟨between, hplugin, h⟩ := matches_seq.mp h
    obtain ⟨rest, hname, hlast⟩ := matches_seq.mp h
    obtain ⟨name, rfl, hidentifier⟩ := matches_identifier.mp hname
    obtain ⟨rfl, hend⟩ := matches_last.mp hlast
    generalize s.toList = cs at hplugin ⊢
    cases hplugin with
    | absent => exact ⟨name, _, rfl, .inl hidentifier, hend⟩
    | present one =>
      obtain ⟨dot, hfront, hdot⟩ := matches_seq.mp one
      obtain ⟨plugin, rfl, hbefore⟩ := matches_identifier.mp hfront
      cases hdot
      exact ⟨plugin ++ '.' :: name, _, by simp, .inr ⟨plugin, name, hbefore, hidentifier, rfl⟩,
        hend⟩
  · rintro ⟨_, rest, hs, hname | ⟨plugin, name, hplugin, hname, rfl⟩, hend⟩
    · exact ⟨rest, .seq .absent (.seq (matches_identifier.mpr ⟨_, hs, hname⟩) (.last hend))⟩
    · have hbehind : s.toList = plugin ++ ('.' :: (name ++ rest)) := by simpa using hs
      exact ⟨rest, .seq (.present (.seq (matches_identifier.mpr ⟨plugin, hbehind, hplugin⟩) .char))
        (.seq (matches_identifier.mpr ⟨name, rfl, hname⟩) (.last hend))⟩

end Pattern

namespace Name

open Pattern (Found)

variable {s : String} {cs : List Char} {c : Char} {language : Language}

/-! ### Names of the two engines -/

/-- A language whose names have no line feeds, and in which the names of ASCII words are the ASCII
names among those of any script. -/
structure Regular (language : Language) : Prop where
  feed : ∀ {cs}, language Text.isWord cs → '\n' ∉ cs
  ascii : ∀ {cs}, language Text.isAsciiWord cs ↔
    language Text.isWord cs ∧ ∀ c ∈ cs, c.toNat < 0x80

/-- A name with a character beyond ASCII. -/
def IsWide (language : Language) (cs : List Char) : Prop :=
  language Text.isWord cs ∧ ∃ c ∈ cs, 0x80 ≤ c.toNat

/-- An ASCII name with a line feed behind it. -/
def EndsInFeed (language : Language) (cs : List Char) : Prop :=
  ∃ name, cs = name ++ ['\n'] ∧ language Text.isAsciiWord name

lemma isAsciiWord_iff : Text.isAsciiWord c = true ↔ Text.isWord c = true ∧ c.toNat < 0x80 := by
  constructor
  · intro h
    have hc := Text.toNat_of_isAsciiWord h
    exact ⟨Text.isWord_of_ascii h, by omega⟩
  · rintro ⟨h, hc⟩
    rwa [Text.isWord, if_pos hc] at h

lemma not_mem_name {d : Char} (hd : d.toNat < 0x80) (hword : Text.isAsciiWord d = false)
    (h : IsName Text.isWord cs) : d ∉ cs := by
  rw [← String.toList_ofList (l := cs)] at h ⊢
  exact not_mem_of_isVariable h hd hword

lemma isName_ascii : IsName Text.isAsciiWord cs ↔
    IsName Text.isWord cs ∧ ∀ c ∈ cs, c.toNat < 0x80 := by
  cases cs with
  | nil => simp [IsName, isIdentifierOf]
  | cons c word =>
    have hhead (h : isHead c = true) : c.toNat < 0x80 :=
      (isAsciiWord_iff.mp (isAsciiWord_of_isHead h)).2
    simp only [IsName, isIdentifierOf, Bool.and_eq_true, List.all_eq_true, isAsciiWord_iff,
      List.forall_mem_cons]
    constructor
    · rintro ⟨h, hword⟩
      exact ⟨⟨h, fun x hx => (hword x hx).1⟩, hhead h, fun x hx => (hword x hx).2⟩
    · rintro ⟨⟨h, hword⟩, -, hascii⟩
      exact ⟨h, fun x hx => ⟨hword x hx, hascii x hx⟩⟩

lemma regular_name : Regular IsName := ⟨not_mem_name (by decide) (by decide), isName_ascii⟩

lemma regular_type : Regular IsType where
  feed {cs} h := by
    rcases h with h | ⟨plugin, name, hplugin, hname, rfl⟩
    · exact regular_name.feed h
    · simp [regular_name.feed hplugin, regular_name.feed hname]
  ascii {cs} := by
    constructor
    · rintro (h | ⟨plugin, name, hplugin, hname, rfl⟩)
      · obtain ⟨hname, hascii⟩ := isName_ascii.mp h
        exact ⟨.inl hname, hascii⟩
      · obtain ⟨hplugin, hp⟩ := isName_ascii.mp hplugin
        obtain ⟨hname, hn⟩ := isName_ascii.mp hname
        refine ⟨.inr ⟨plugin, name, hplugin, hname, rfl⟩, ?_⟩
        simp only [List.forall_mem_append, List.forall_mem_cons]
        exact ⟨hp, by decide, hn⟩
    · rintro ⟨h | ⟨plugin, name, hplugin, hname, rfl⟩, hascii⟩
      · exact .inl (isName_ascii.mpr ⟨h, hascii⟩)
      · simp only [List.forall_mem_append, List.forall_mem_cons] at hascii
        exact .inr ⟨plugin, name, isName_ascii.mpr ⟨hplugin, hascii.1⟩,
          isName_ascii.mpr ⟨hname, hascii.2.2⟩, rfl⟩

namespace Regular

lemma ends_schema (language : Language) (cs : List Char) :
    Engine.schema.Ends language cs ↔ language Text.isWord cs := by
  constructor
  · rintro ⟨name, rest, rfl, hname, hend⟩
    obtain rfl : rest = [] := by simpa [Engine.schema] using hend
    rwa [List.append_nil]
  · exact fun h => ⟨cs, [], (List.append_nil cs).symm, h, rfl⟩

lemma ends_compiled :
    Engine.compiled.Ends language cs ↔ language Text.isAsciiWord cs ∨ EndsInFeed language cs := by
  constructor
  · rintro ⟨name, rest, rfl, hname, hend⟩
    obtain rfl | rfl : rest = [] ∨ rest = ['\n'] := by simpa [Engine.compiled] using hend
    · rw [List.append_nil]
      exact .inl hname
    · exact .inr ⟨name, rfl, hname⟩
  · rintro (h | ⟨name, rfl, h⟩)
    · exact ⟨cs, [], (List.append_nil cs).symm, h, rfl⟩
    · exact ⟨name, ['\n'], rfl, h, rfl⟩

/-- What compiled patterns take are the names that a line feed may stand behind. -/
lemma dropLineFeed_iff (hl : Regular language) :
    language Text.isAsciiWord (Text.dropLineFeed cs) ↔ Engine.compiled.Ends language cs := by
  rw [ends_compiled]
  have hfeed (name : List Char) : ¬language Text.isAsciiWord (name ++ ['\n']) := fun h =>
    hl.feed (hl.ascii.mp h).1 (by simp)
  by_cases hlast : cs.getLast? = some '\n'
  · obtain ⟨name, rfl⟩ := List.getLast?_eq_some_iff.mp hlast
    simp [Text.dropLineFeed, EndsInFeed, hfeed]
  · rw [Text.dropLineFeed, if_neg hlast]
    refine ⟨.inl, ?_⟩
    rintro (h | ⟨name, rfl, -⟩)
    · exact h
    · simp at hlast

/-- **What both engines take are the names of ASCII words.** -/
lemma both_iff (hl : Regular language) :
    Engine.schema.Ends language cs ∧ Engine.compiled.Ends language cs ↔
      language Text.isAsciiWord cs := by
  rw [ends_schema, ends_compiled]
  constructor
  · rintro ⟨hword, hascii | ⟨name, rfl, -⟩⟩
    · exact hascii
    · exact absurd (by simp) (hl.feed hword)
  · exact fun h => ⟨(hl.ascii.mp h).1, .inl h⟩

/-- **The engines differ in names with characters beyond ASCII, which schemas take, and in ASCII
names with a line feed behind them, which compiled patterns take.** -/
lemma differ_iff (hl : Regular language) :
    ¬(Engine.schema.Ends language cs ↔ Engine.compiled.Ends language cs) ↔
      IsWide language cs ∨ EndsInFeed language cs := by
  have hfeed (name : List Char) : ¬language Text.isWord (name ++ ['\n']) := fun h =>
    hl.feed h (by simp)
  rw [ends_schema, ends_compiled]
  constructor
  · intro hdiffer
    by_cases hword : language Text.isWord cs
    · left
      refine ⟨hword, ?_⟩
      by_contra hwide
      simp only [not_exists, not_and, Nat.not_le] at hwide
      exact hdiffer (iff_of_true hword (.inl (hl.ascii.mpr ⟨hword, hwide⟩)))
    · right
      by_contra hnone
      refine hdiffer (iff_of_false hword ?_)
      rintro (hascii | h)
      · exact hword (hl.ascii.mp hascii).1
      · exact hnone h
  · rintro (⟨hword, c, hc, hwide⟩ | ⟨name, rfl, h⟩) heq
    · rcases heq.mp hword with hascii | ⟨name, rfl, -⟩
      · have := (hl.ascii.mp hascii).2 c hc
        omega
      · exact hfeed name hword
    · exact hfeed name (heq.mpr (.inr ⟨name, rfl, h⟩))

end Regular

/-! ### The functions that check names -/

lemma isType_iff {follows : Char → Bool} (hdot : ∀ {cs}, IsName follows cs → '.' ∉ cs) :
    IsType follows cs ↔ (∃ name, Text.splitChars '.' cs = [name] ∧ IsName follows name) ∨
      ∃ plugin name, Text.splitChars '.' cs = [plugin, name] ∧ IsName follows plugin ∧
        IsName follows name := by
  constructor
  · rintro (h | ⟨plugin, name, hplugin, hname, rfl⟩)
    · exact .inl ⟨cs, Text.splitChars_of_not_mem (hdot h), h⟩
    · refine .inr ⟨plugin, name, ?_, hplugin, hname⟩
      rw [Text.splitChars_append (hdot hplugin), Text.splitChars_of_not_mem (hdot hname)]
  · have hwhole := Text.join_splitChars '.' cs
    rintro (⟨name, hsplit, hname⟩ | ⟨plugin, name, hsplit, hplugin, hname⟩)
    · rw [hsplit, List.intercalate_singleton] at hwhole
      exact .inl (hwhole ▸ hname)
    · rw [hsplit, List.intercalate_cons_cons, List.intercalate_singleton] at hwhole
      exact .inr ⟨plugin, name, hplugin, hname, by rw [← hwhole]; simp⟩

/-- What the pieces between dots tell of a block type. -/
lemma isType_pieces {follows : Char → Bool} (hdot : ∀ {cs}, IsName follows cs → '.' ∉ cs) :
    IsType follows cs ↔
      match Text.splitChars '.' cs with
      | [name] => IsName follows name
      | [plugin, name] => IsName follows plugin ∧ IsName follows name
      | _ => False := by
  rw [isType_iff hdot]
  split
  · next name heq => simp [heq]
  · next plugin name heq => simp [heq]
  · next hone htwo =>
    refine iff_of_false ?_ not_false
    rintro (⟨name, h, -⟩ | ⟨plugin, name, h, -⟩)
    · exact hone name h
    · exact htwo plugin name h

lemma isBlockType_iff : isBlockType s = true ↔ IsType Text.isWord s.toList := by
  rw [isType_pieces (not_mem_name (by decide) (by decide)), isBlockType]
  rcases Text.splitChars '.' s.toList with _ | ⟨name, _ | ⟨name', _ | _⟩⟩
  · simp
  · exact Iff.rfl
  · exact Iff.of_eq (Bool.and_eq_true _ _)
  · simp

lemma isSome_if {α : Type} {b : Bool} {a : α} :
    (if b = true then some a else none).isSome = true ↔ b = true := by cases b <;> simp

lemma matchVariable?_iff : (matchVariable? s).isSome = true ↔
    IsName Text.isAsciiWord (Text.dropLineFeed s.toList) := isSome_if

lemma matchBlockType?_iff : (matchBlockType? s).isSome = true ↔
    IsType Text.isAsciiWord (Text.dropLineFeed s.toList) := by
  have hdot {cs : List Char} (h : IsName Text.isAsciiWord cs) : '.' ∉ cs :=
    not_mem_name (by decide) (by decide) (isName_ascii.mp h).1
  rw [isType_pieces hdot, matchBlockType?]
  rcases Text.splitChars '.' _ with _ | ⟨name, _ | ⟨name', _ | _⟩⟩
  · simp
  · exact isSome_if
  · exact isSome_if.trans (Iff.of_eq (Bool.and_eq_true _ _))
  · simp

/-! ### References to accepted names -/

/-- What a schema accepts for a variable is a placeholder's path just if it is an identifier. -/
lemma placeholder?_iff_isName (h : isVariable s = true) :
    Template.placeholder? ("$\x7b" ++ s ++ "\x7d").toList = some (s, []) ↔
      IsName Text.isAsciiWord s.toList := by
  have hdot : '.' ∉ s.toList := not_mem_of_isVariable h (by decide) (by decide)
  have hspelling : ("$\x7b" ++ s ++ "\x7d").toList = '$' :: '\x7b' :: (s.toList ++ ['\x7d']) := by
    simp
  rw [Template.placeholder?_iff]
  constructor
  · rintro ⟨⟨name, words, hname, -, hs⟩, -⟩
    cases words with
    | nil =>
      rw [hs]
      simpa [Template.dotted, IsName, isIdentifier] using hname
    | cons word words =>
      rw [hs] at hdot
      simp [Template.dotted] at hdot
  · exact fun hname => ⟨⟨s.toList, [], hname, by simp, by simp [Template.dotted]⟩, hspelling⟩

/-- It is a path just if it is an identifier. -/
lemma ofText_iff_isName (h : isVariable s = true) :
    Path.ofText s = .ok ⟨s, []⟩ ↔ IsName Text.isAsciiWord s.toList := by
  refine ⟨fun hpath => ?_, Path.ofText_identifier⟩
  have hdot : '.' ∉ s.toList := not_mem_of_isVariable h (by decide) (by decide)
  rw [Path.ofText, Text.trim_words (words_of_isVariable h), Text.splitAt,
    Text.splitChars_of_not_mem hdot, List.map_singleton, String.ofList_toList] at hpath
  dsimp only at hpath
  split at hpath
  · next hsome =>
    rw [matchVariable?_iff, regular_name.dropLineFeed_iff] at hsome
    exact regular_name.both_iff.mp ⟨(Regular.ends_schema IsName _).mpr h, hsome⟩
  · cases hpath

lemma variableName_iff : Check.variableName (.text s) = .ok s ↔ isVariable s = true := by
  cases h : isVariable s <;>
    simp [Check.variableName, Check.text, Checked.refuse, bind, Except.bind, pure, Except.pure, h]

lemma blockType_iff : Check.blockType (.text s) = .ok s ↔ isBlockType s = true := by
  cases h : isBlockType s <;>
    simp [Check.blockType, Check.text, Checked.refuse, bind, Except.bind, pure, Except.pure, h]

/-- **What is accepted for names.** The checks of schemas and the compiled patterns take what the
two engines find of the same patterns. Both take just the names of ASCII words; they differ in
nothing but names with characters beyond ASCII and names with a line feed behind them. A name that
is accepted for a variable can be referenced just if it consists of ASCII words. -/
theorem accepted_names (s : String) :
    ((Check.variableName (.text s) = .ok s ↔ Found .schema .variableName s) ∧
      ((matchVariable? s).isSome = true ↔ Found .compiled .variableName s) ∧
      (Check.blockType (.text s) = .ok s ↔ Found .schema .blockType s) ∧
      ((matchBlockType? s).isSome = true ↔ Found .compiled .blockType s)) ∧
    ((Check.variableName (.text s) = .ok s ∧ (matchVariable? s).isSome = true ↔
        IsName Text.isAsciiWord s.toList) ∧
      (¬(Check.variableName (.text s) = .ok s ↔ (matchVariable? s).isSome = true) ↔
        IsWide IsName s.toList ∨ EndsInFeed IsName s.toList)) ∧
    ((Check.blockType (.text s) = .ok s ∧ (matchBlockType? s).isSome = true ↔
        IsType Text.isAsciiWord s.toList) ∧
      (¬(Check.blockType (.text s) = .ok s ↔ (matchBlockType? s).isSome = true) ↔
        IsWide IsType s.toList ∨ EndsInFeed IsType s.toList)) ∧
    (Check.variableName (.text s) = .ok s →
      (Template.placeholder? ("$\x7b" ++ s ++ "\x7d").toList = some (s, []) ↔
        IsName Text.isAsciiWord s.toList) ∧
      (Path.ofText s = .ok ⟨s, []⟩ ↔ IsName Text.isAsciiWord s.toList)) := by
  have hvariable : Check.variableName (.text s) = .ok s ↔ Engine.schema.Ends IsName s.toList :=
    variableName_iff.trans (Regular.ends_schema IsName _).symm
  have hmatched : (matchVariable? s).isSome = true ↔ Engine.compiled.Ends IsName s.toList :=
    matchVariable?_iff.trans regular_name.dropLineFeed_iff
  have hblock : Check.blockType (.text s) = .ok s ↔ Engine.schema.Ends IsType s.toList :=
    (blockType_iff.trans isBlockType_iff).trans (Regular.ends_schema IsType _).symm
  have hmatchedType : (matchBlockType? s).isSome = true ↔ Engine.compiled.Ends IsType s.toList :=
    matchBlockType?_iff.trans regular_type.dropLineFeed_iff
  refine ⟨⟨hvariable.trans Pattern.found_variableName.symm,
    hmatched.trans Pattern.found_variableName.symm, hblock.trans Pattern.found_blockType.symm,
    hmatchedType.trans Pattern.found_blockType.symm⟩, ?_, ?_, fun h => ?_⟩
  · rw [hvariable, hmatched]
    exact ⟨regular_name.both_iff, regular_name.differ_iff⟩
  · rw [hblock, hmatchedType]
    exact ⟨regular_type.both_iff, regular_type.differ_iff⟩
  · have hs := variableName_iff.mp h
    exact ⟨placeholder?_iff_isName hs, ofText_iff_isName hs⟩

theorem accepted_names_total : Check.variableName (.text "total") = .ok "total" ∧
    Template.placeholder? ("$\x7b" ++ "total" ++ "\x7d").toList = some ("total", []) := by
  have haccepted : Check.variableName (.text "total") = .ok "total" :=
    variableName_iff.mpr (by decide +kernel)
  have hname : isIdentifier "total".toList = true := by decide +kernel
  exact ⟨haccepted, ((accepted_names "total").2.2.2 haccepted).1.mpr hname⟩

/-- A name with an umlaut is accepted, but is matched by no compiled pattern and is no placeholder's
path; and a name with a line feed behind it is matched, but not accepted. -/
theorem size_and_total_differ :
    Check.variableName (.text "größe") = .ok "größe" ∧ matchVariable? "größe" = none ∧
      Check.blockType (.text "größe") = .ok "größe" ∧ matchBlockType? "größe" = none ∧
      Template.placeholder? "$\x7bgröße\x7d".toList = none ∧
      (matchVariable? "total\n").isSome = true ∧ isVariable "total\n" = false ∧
      (matchBlockType? "total\n").isSome = true ∧ isBlockType "total\n" = false := by
  have hsize : isVariable "größe" = true ∧ isBlockType "größe" = true := by decide +kernel
  exact ⟨variableName_iff.mpr hsize.1, by decide +kernel, blockType_iff.mpr hsize.2,
    by decide +kernel, by decide +kernel, by decide +kernel, by decide +kernel, by decide +kernel,
    by decide +kernel⟩

end Name

end BlockSuite
