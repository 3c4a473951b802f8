import BlockSuite.Proofs.Template

/-!
Where placeholders stand in a text. The scanner finds the placeholders of a grammar: an identifier,
then words behind dots, in braces behind a dollar sign. A text is cut at its placeholders in one
way, from left to right, each cut being made at the first placeholder that begins in what is left.
-/

namespace BlockSuite

namespace Template

variable {cs literal last rest : List Char} {path : String} {dot : Bool}
  {segments : List (List Char × String)}

/-! ### The grammar of placeholders -/

/-- ASCII words, of one character at least. -/
def IsWord (cs : List Char) : Prop := cs ≠ [] ∧ ∀ c ∈ cs, Text.isAsciiWord c = true

/-- Words behind dots. -/
def dotted (words : List (List Char)) : List Char := words.flatMap ('.' :: ·)

/-- The paths that placeholders are written with: an identifier and words behind dots. -/
def IsPath (cs : List Char) : Prop :=
  ∃ name words, Name.isIdentifier name = true ∧ (∀ word ∈ words, IsWord word) ∧
    cs = name ++ dotted words

/-- A placeholder begins at the start of a text. -/
structure Opens (cs : List Char) (path : String) (rest : List Char) : Prop where
  grammar : IsPath path.toList
  spelling : cs = '$' :: '\x7b' :: (path.toList ++ '\x7d' :: rest)

/-- How a path goes on behind its first character; the flag tells whether a dot was just read, with
which no path ends. -/
inductive Continues : Bool → List Char → Prop
  | done : Continues false []
  | word {dot : Bool} {c : Char} {cs : List Char} (word : Text.isAsciiWord c = true)
    (behind : Continues false cs) : Continues dot (c :: cs)
  | dot {cs : List Char} (behind : Continues true cs) : Continues false ('.' :: cs)

lemma Continues.words {word : List Char} (hword : ∀ c ∈ word, Text.isAsciiWord c = true)
    (h : Continues false cs) (hdot : dot = true → word ≠ []) : Continues dot (word ++ cs) := by
  induction word generalizing dot with
  | nil =>
    cases dot with
    | false => exact h
    | true => exact absurd rfl (hdot rfl)
  | cons c word ih =>
    rw [List.forall_mem_cons] at hword
    exact .word hword.1 (ih hword.2 nofun)

lemma continues_dotted {words : List (List Char)} (h : ∀ word ∈ words, IsWord word) :
    Continues false (dotted words) := by
  induction words with
  | nil => exact .done
  | cons word words ih =>
    rw [List.forall_mem_cons] at h
    exact .dot (.words h.1.2 (ih h.2) fun _ => h.1.1)

/-- A path goes on with a word, of which a part may have been read, and words behind dots. -/
lemma continues_iff : Continues dot cs ↔ ∃ word words, (∀ c ∈ word, Text.isAsciiWord c = true) ∧
    (dot = true → word ≠ []) ∧ (∀ w ∈ words, IsWord w) ∧ cs = word ++ dotted words := by
  constructor
  · intro h
    induction h with
    | done => exact ⟨[], [], nofun, nofun, nofun, rfl⟩
    | word hc _ ih =>
      obtain ⟨word, words, hword, -, hwords, rfl⟩ := ih
      exact ⟨_ :: word, words, List.forall_mem_cons.mpr ⟨hc, hword⟩, fun _ => by simp, hwords, rfl⟩
    | dot _ ih =>
      obtain ⟨word, words, hword, hne, hwords, rfl⟩ := ih
      exact ⟨[], word :: words, nofun, nofun,
        List.forall_mem_cons.mpr ⟨⟨hne rfl, hword⟩, hwords⟩, rfl⟩
  · rintro ⟨word, words, hword, hdot, hwords, rfl⟩
    exact .words hword (continues_dotted hwords) hdot

lemma isPath_iff : IsPath cs ↔ ∃ c tail, cs = c :: tail ∧ Name.isHead c = true ∧
    Continues false tail := by
  constructor
  · rintro ⟨name, words, hname, hwords, rfl⟩
    cases name with
    | nil => cases hname
    | cons c name =>
      obtain ⟨hc, hname⟩ : Name.isHead c = true ∧ ∀ x ∈ name, Text.isAsciiWord x = true := by
        simpa [Name.isIdentifier, Name.isIdentifierOf] using hname
      exact ⟨c, _, rfl, hc, continues_iff.mpr ⟨name, words, hname, by simp, hwords, rfl⟩⟩
  · rintro ⟨c, tail, rfl, hc, htail⟩
    obtain ⟨name, words, hname, -, hwords, rfl⟩ := continues_iff.mp htail
    refine ⟨c :: name, words, ?_, hwords, rfl⟩
    simpa [Name.isIdentifier, Name.isIdentifierOf, hc] using hname

lemma splitChars_dotted {name : List Char} {words : List (List Char)} (hname : '.' ∉ name)
    (h : ∀ word ∈ words, '.' ∉ word) :
    Text.splitChars '.' (name ++ dotted words) = name :: words := by
  induction words generalizing name with
  | nil => rw [dotted, List.flatMap_nil, List.append_nil, Text.splitChars_of_not_mem hname]
  | cons word words ih =>
    rw [List.forall_mem_cons] at h
    change Text.splitChars '.' (name ++ '.' :: (word ++ dotted words)) = _
    rw [Text.splitChars_append hname, ih h.1 h.2]

/-- The path of a placeholder is read as its words. -/
lemma ofText_dotted {name : String} {words : List (List Char)}
    (hname : Name.isIdentifier name.toList = true) (hwords : ∀ word ∈ words, IsWord word) :
    Path.ofText (String.ofList (name.toList ++ dotted words)) =
      .ok ⟨name, words.map String.ofList⟩ := by
  have hvariable := Name.isVariable_of_isIdentifier hname
  have hdot : '.' ∉ name.toList := Name.not_mem_of_isVariable hvariable (by decide) (by decide)
  have hword (word) (h : word ∈ words) : '.' ∉ word :=
    fun hmem => absurd ((hwords word h).2 '.' hmem) (by decide)
  have hblank : ∀ c ∈ name.toList ++ dotted words, Text.isBlank c = false := by
    intro c hc
    rcases List.mem_append.mp hc with hc | hc
    · exact Text.isBlank_of_isWord (Name.words_of_isVariable hvariable c hc)
    · obtain ⟨word, hmem, hc⟩ := List.mem_flatMap.mp hc
      rcases List.mem_cons.mp hc with rfl | hc
      · decide
      · exact Text.isBlank_of_isWord (Text.isWord_of_ascii ((hwords word hmem).2 c hc))
  rw [Path.ofText, Text.trim, Text.splitAt, String.toList_ofList, String.toList_ofList,
    Text.trimChars_of_not_blank hblank, splitChars_dotted hdot hword, List.map_cons,
    String.ofList_toList]
  dsimp only
  rw [Name.matchVariable?_identifier hname]
  rfl

/-! ### The scanner -/

/-- The scanner reads on as a path goes on. -/
lemma Continues.of_pathTail? {acc : List Char} (h : pathTail? acc dot cs = some (path, rest)) :
    ∃ tail, Continues dot tail ∧ path.toList = acc.reverse ++ tail := by
  induction cs generalizing acc dot with
  | nil => cases h
  | cons c cs ih =>
    rw [pathTail?] at h
    split at h
    · next hc =>
      obtain ⟨tail, htail, hpath⟩ := ih h
      exact ⟨c :: tail, .word hc htail, by simpa using hpath⟩
    · split at h
      · cases h
      · next hdot =>
        rw [Bool.not_eq_true] at hdot
        subst hdot
        split at h
        · next hc =>
          obtain rfl := beq_iff_eq.mp hc
          obtain ⟨tail, htail, hpath⟩ := ih h
          exact ⟨'.' :: tail, .dot htail, by simpa using hpath⟩
        · split at h
          · cases h
            exact ⟨[], .done, by simp⟩
          · cases h

/-- However a path goes on, the scanner reads it up to the closing brace. -/
lemma Continues.pathTail? (h : Continues dot cs) (acc rest : List Char) :
    pathTail? acc dot (cs ++ '\x7d' :: rest) = some (String.ofList (acc.reverse ++ cs), rest) := by
  have hclose : Text.isAsciiWord '\x7d' = false := by decide
  have hdot : Text.isAsciiWord '.' = false := by decide
  induction h generalizing acc with
  | done => simp [Template.pathTail?, hclose]
  | word hc _ ih =>
    rw [List.cons_append, Template.pathTail?, if_pos hc, ih]
    simp
  | dot _ ih =>
    rw [List.cons_append, Template.pathTail?, hdot]
    simpa using ih ('.' :: acc)

/-- **The scanner finds the placeholders of the grammar**, and no others. -/
theorem placeholder?_iff : placeholder? cs = some (path, rest) ↔ Opens cs path rest := by
  constructor
  · intro h
    refine ⟨isPath_iff.mpr ?_, placeholder?_split h⟩
    unfold placeholder? at h
    split at h
    · next c cs =>
      split at h
      · next hc =>
        obtain ⟨tail, htail, hpath⟩ := Continues.of_pathTail? h
        exact ⟨c, tail, hpath, hc, htail⟩
      · cases h
    · cases h
  · rintro ⟨grammar, rfl⟩
    obtain ⟨c, tail, hpath, hc, htail⟩ := isPath_iff.mp grammar
    have hread := htail.pathTail? [c] rest
    rw [List.reverse_singleton, List.singleton_append, ← hpath, String.ofList_toList] at hread
    rwa [hpath, List.cons_append, placeholder?, if_pos hc]

lemma placeholder?_none_iff : placeholder? cs = none ↔ ∀ path rest, ¬Opens cs path rest := by
  simp only [Option.eq_none_iff_forall_ne_some, Prod.forall, ne_eq, placeholder?_iff]

/-! ### Cutting a text at its placeholders -/

/-- No placeholder begins in the first part of a text. -/
def Clear (literal cs : List Char) : Prop :=
  ∀ before after, literal = before ++ after → after ≠ [] →
    ∀ path rest, ¬Opens (after ++ cs) path rest

lemma clear_nil (cs : List Char) : Clear [] cs := fun _ _ heq hne =>
  absurd (List.append_eq_nil_iff.mp heq.symm).2 hne

lemma clear_cons {c : Char} : Clear (c :: literal) cs ↔
    (∀ path rest, ¬Opens (c :: (literal ++ cs)) path rest) ∧ Clear literal cs := by
  constructor
  · exact fun h => ⟨h [] _ rfl (by simp), fun before after heq =>
      h (c :: before) after (congrArg (c :: ·) heq)⟩
  · rintro ⟨hfirst, hrest⟩ before after heq hne
    cases before with
    | nil =>
      obtain rfl : c :: literal = after := heq
      exact hfirst
    | cons b before => exact hrest before after (List.cons.inj heq).2 hne

/-- A text cut at its placeholders: the path of each with the text before it, up to the placeholder
before, and the text behind the last one. No placeholder begins in these texts, so that each one
found is the first, and they do not overlap. -/
inductive Cut : List Char → List (List Char × String) → List Char → Prop
  | last {cs : List Char} (clear : Clear cs []) : Cut cs [] cs
  | next {literal cs rest last : List Char} {path : String} {segments : List (List Char × String)}
    (clear : Clear literal cs) (opens : Opens cs path rest) (behind : Cut rest segments last) :
    Cut (literal ++ cs) ((literal, path) :: segments) last

/-- Pieces up to each placeholder taken together. -/
def gather : List Piece → List (List Char × String) × List Char
  | [] => ([], [])
  | .placeholder path :: ps => (([], path) :: (gather ps).1, (gather ps).2)
  | .literal c :: ps =>
    match gather ps with
    | ([], last) => ([], c :: last)
    | ((literal, path) :: segments, last) => ((c :: literal, path) :: segments, last)

lemma pieces_clear (h : Clear literal cs) :
    pieces (literal ++ cs) = literal.map .literal ++ pieces cs := by
  induction literal with
  | nil => rfl
  | cons c literal ih =>
    rw [clear_cons] at h
    rw [List.cons_append, pieces_literal (placeholder?_none_iff.mpr h.1), ih h.2]
    rfl

lemma pieces_last (h : Clear cs []) : pieces cs = cs.map .literal := by
  simpa using pieces_clear h

lemma gather_literals (literal : List Char) : gather (literal.map .literal) = ([], literal) := by
  induction literal with
  | nil => rfl
  | cons c literal ih => rw [List.map_cons, gather, ih]

lemma gather_placeholder (literal : List Char) (path : String) (ps : List Piece) :
    gather (literal.map .literal ++ .placeholder path :: ps) =
      ((literal, path) :: (gather ps).1, (gather ps).2) := by
  induction literal with
  | nil => rfl
  | cons c literal ih => rw [List.map_cons, List.cons_append, gather, ih]

/-- **A text is cut at its placeholders in one way**, which its pieces give. -/
theorem cut_iff : Cut cs segments last ↔ gather (pieces cs) = (segments, last) := by
  constructor
  · intro h
    induction h with
    | last clear => rw [pieces_last clear, gather_literals]
    | next clear opens _ ih =>
      rw [pieces_clear clear, pieces_placeholder (placeholder?_iff.mpr opens), gather_placeholder,
        ih]
  · intro h
    induction cs using pieces.induct generalizing segments last with
    | case1 =>
      rw [pieces_nil] at h
      cases h
      exact .last (clear_nil _)
    | case2 c rest path tail hp ih =>
      rw [pieces_placeholder hp, gather] at h
      cases h
      exact .next (clear_nil _) (placeholder?_iff.mp hp) (ih rfl)
    | case3 c rest hp ih =>
      have hfirst := placeholder?_none_iff.mp hp
      rw [pieces_literal hp, gather] at h
      split at h
      · next last' heq =>
        cases h
        cases ih heq with
        | last clear =>
          exact .last (clear_cons.mpr ⟨by rwa [List.append_nil], clear⟩)
      · next literal path segments' last' heq =>
        cases h
        cases ih heq with
        | next clear opens behind => exact .next (clear_cons.mpr ⟨hfirst, clear⟩) opens behind

end Template

end BlockSuite
