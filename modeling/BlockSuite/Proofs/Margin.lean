import BlockSuite.Proofs.Path
import BlockSuite.Proofs.Reading
import Mathlib.Data.List.Find
import Mathlib.Data.List.TakeWhile

/-!
JSON with blanks around it. A reader that is given more blanks behind a text reads the same and
leaves the blanks, or is refused in both cases: this is shown for what is read last, and carries
over to everything that is read one behind the other. So blanks of JSON around a text do not matter,
and with any other blank around it a text is no JSON.
-/

namespace BlockSuite

namespace Text

variable {front core back cs : List Char}

/-- A text with blanks in front and behind, and what is between them. -/
structure Framed (front core back cs : List Char) : Prop where
  eq : cs = front ++ (core ++ back)
  front : ∀ c ∈ front, isBlank c = true
  back : ∀ c ∈ back, isBlank c = true
  head : ∀ c ∈ core.head?, isBlank c = false
  last : ∀ c ∈ core.getLast?, isBlank c = false

lemma trimRight_append (h : ∀ c ∈ back, isBlank c = true) (cs : List Char) :
    trimRight (cs ++ back) = trimRight cs := by
  rw [trimRight, trimRight, List.reverse_append,
    List.dropWhile_append_of_pos fun c hc => h c (List.mem_reverse.mp hc)]

lemma trimRight_of_last (h : ∀ c ∈ cs.getLast?, isBlank c = false) : trimRight cs = cs := by
  rw [← List.head?_reverse] at h
  rw [trimRight]
  cases hreverse : cs.reverse with
  | nil => rw [List.dropWhile_nil, List.reverse_nil, List.reverse_eq_nil_iff.mp hreverse]
  | cons c rest =>
    have hc : isBlank c = false := h c (by rw [hreverse]; rfl)
    rw [List.dropWhile_cons_of_neg (by simp [hc]), ← hreverse, List.reverse_reverse]

lemma Framed.trim_eq (h : Framed front core back cs) : trimChars cs = core := by
  rw [trimChars, h.eq, trimLeft, List.dropWhile_append_of_pos h.front]
  cases core with
  | nil =>
    rw [List.nil_append, List.dropWhile_eq_nil_iff.mpr h.back]
    rfl
  | cons c rest =>
    have hc : isBlank c = false := h.head c rfl
    rw [List.cons_append, List.dropWhile_cons_of_neg (by simp [hc]), ← List.cons_append,
      trimRight_append h.back, trimRight_of_last h.last]

lemma exists_trimRight (cs : List Char) :
    ∃ back, (∀ c ∈ back, isBlank c = true) ∧ cs = trimRight cs ++ back := by
  refine ⟨(cs.reverse.takeWhile isBlank).reverse,
    fun c hc => List.mem_takeWhile_imp (List.mem_reverse.mp hc), ?_⟩
  rw [trimRight, ← List.reverse_append, List.takeWhile_append_dropWhile, List.reverse_reverse]

lemma exists_framed (cs : List Char) : ∃ front back, Framed front (trimChars cs) back cs := by
  obtain ⟨back, hback, hright⟩ := exists_trimRight (trimLeft cs)
  refine ⟨cs.takeWhile isBlank, back, ?_, fun c hc => List.mem_takeWhile_imp hc, hback, ?_,
    fun c hc => isBlank_of_getLast? hc⟩
  · rw [trimChars, ← hright, trimLeft, List.takeWhile_append_dropWhile]
  · intro c hc
    have hhead : (trimLeft cs).head? = some c := by
      rw [hright, List.head?_append]
      exact Option.or_eq_some_iff.mpr (.inl hc)
    have hnot := List.head?_dropWhile_not isBlank cs
    rw [trimLeft] at hhead
    rw [hhead] at hnot
    simpa using hnot

/-- Of a text of blanks nothing is left. -/
lemma framed_blank (h : ∀ c ∈ cs, isBlank c = true) : Framed cs [] [] cs :=
  ⟨by simp, h, nofun, nofun, nofun⟩

lemma Framed.front_eq (h : Framed front core back cs) (hcore : core ≠ []) :
    cs.takeWhile isBlank = front := by
  obtain ⟨c, rest, rfl⟩ := List.exists_cons_of_ne_nil hcore
  have hc : isBlank c = false := h.head c rfl
  rw [h.eq, List.takeWhile_append_of_pos h.front, List.cons_append,
    List.takeWhile_cons_of_neg (by simp [hc]), List.append_nil]

lemma Framed.reverse (h : Framed front core back cs) :
    Framed back.reverse core.reverse front.reverse cs.reverse := by
  refine ⟨?_, fun c hc => h.back c (List.mem_reverse.mp hc),
    fun c hc => h.front c (List.mem_reverse.mp hc), ?_, ?_⟩
  · rw [h.eq]
    simp only [List.reverse_append, List.append_assoc]
  · rw [List.head?_reverse]
    exact h.last
  · rw [List.getLast?_reverse]
    exact h.head

/-- Blanks around a text are trimmed. -/
lemma trimChars_margins (hfront : ∀ c ∈ front, isBlank c = true)
    (hback : ∀ c ∈ back, isBlank c = true) (cs : List Char) :
    trimChars (front ++ (cs ++ back)) = trimChars cs := by
  obtain ⟨front', back', h⟩ := exists_framed cs
  have heq : front ++ (cs ++ back) = front ++ front' ++ (trimChars cs ++ (back' ++ back)) := by
    conv_lhs => rw [h.eq]
    simp only [List.append_assoc]
  have hframed : Framed (front ++ front') (trimChars cs) (back' ++ back) (front ++ (cs ++ back)) :=
    ⟨heq, List.forall_mem_append.mpr ⟨hfront, h.front⟩,
      List.forall_mem_append.mpr ⟨h.back, hback⟩, h.head, h.last⟩
  exact hframed.trim_eq

end Text

namespace Json
open Text (isBlank)

variable {α β : Type} {front core back tail cs rest : List Char} {c d : Char} {n m : Nat}
  {v : Value} {s : String}

/-! ### Readings beside each other -/

/-- A reading of a text and one of the same text with some more behind it: both are refused, or both
give the same and leave the same, what is behind aside. -/
inductive Beside (tail : List Char) (n : Nat) :
    Except ReadError (α × List Char) → Except ReadError (α × List Char) → Prop
  | ok (a : α) {rest : List Char} (shorter : rest.length < n) :
    Beside tail n (.ok (a, rest)) (.ok (a, rest ++ tail))
  | error (e e' : ReadError) : Beside tail n (.error e) (.error e')

lemma Beside.bind {x y : Except ReadError (α × List Char)}
    {f g : α × List Char → Except ReadError (β × List Char)} (h : Beside tail m x y)
    (hf : ∀ a rest, rest.length < m → Beside tail n (f (a, rest)) (g (a, rest ++ tail))) :
    Beside tail n (x >>= f) (y >>= g) := by
  cases h with
  | ok a shorter => exact hf a _ shorter
  | error e e' => exact .error e e'

lemma Beside.mono {x y : Except ReadError (α × List Char)} (h : Beside tail m x y) (hmn : m ≤ n) :
    Beside tail n x y := by
  cases h with
  | ok a shorter => exact .ok a (by omega)
  | error e e' => exact .error e e'

lemma ne_of_isBlank (h : isBlank c = true) (hd : isBlank d = false) : c ≠ d := by
  rintro rfl
  rw [h] at hd
  cases hd

lemma not_mem_of_blank (htail : ∀ c ∈ tail, isBlank c = true) (hd : isBlank d = false) :
    d ∉ tail := fun hmem => ne_of_isBlank (htail d hmem) hd rfl

lemma hex4?_append (h : 4 ≤ cs.length) (tail : List Char) :
    hex4? (cs ++ tail) = (hex4? cs).map fun p => (p.1, p.2 ++ tail) := by
  match cs with
  | [] | [_] | [_, _] | [_, _, _] => simp at h
  | a :: b :: c :: d :: rest =>
    simp only [hex4?, List.cons_append]
    cases Text.hexValue? a <;> cases Text.hexValue? b <;> cases Text.hexValue? c <;>
      cases Text.hexValue? d <;> rfl

/-- A quotation mark is no hexadecimal digit. -/
lemma hex4?_quote (h : '"' ∈ cs) (hlength : cs.length < 5) (tail : List Char) :
    hex4? (cs ++ tail) = none := by
  cases hhex : hex4? (cs ++ tail) with
  | none => rfl
  | some p =>
    obtain ⟨a, b, c, d, heq, hdigits⟩ := hex4?_some hhex
    have htake : (cs ++ tail).take 4 = cs.take 4 ++ tail.take (4 - cs.length) := List.take_append
    have hcs : cs.take 4 = cs := List.take_of_length_le (by omega)
    rw [heq, hcs] at htake
    have hmem : '"' ∈ [a, b, c, d] := by
      have : '"' ∈ ([a, b, c, d] ++ p.2).take 4 := htake ▸ List.mem_append_left _ h
      simpa using this
    exact absurd (hdigits _ hmem) (by decide)

/-- A second half is found alike with more text behind, unless what is there of it is too short to
be read as an escape at all. -/
lemma lowHalf?_append (hq : '"' ∈ cs) (tail : List Char) :
    lowHalf? (cs ++ tail) = (lowHalf? cs).map (Option.map fun p => (p.1, p.2 ++ tail)) ∨
      (lowHalf? cs = .ok none ∧ (∃ e, nextChar cs = .error e) ∧
        ∃ e, lowHalf? (cs ++ tail) = .error e) := by
  fun_cases lowHalf? cs with
  | case1 more h =>
    have hmem : '"' ∈ more := by simpa using hq
    by_cases hlong : (more ++ tail).length < 5
    · refine .inl ?_
      simp only [List.cons_append, lowHalf?, if_pos hlong]
      rfl
    · refine .inr ⟨rfl, ⟨.invalidUnicodeEscape, by simp only [nextChar, if_pos h]⟩,
        .invalidUnicodeEscape, ?_⟩
      simp only [List.cons_append, lowHalf?, if_neg hlong, hex4?_quote hmem h]
  | case2 more h hhex | case3 more h n rest hhex =>
    have hlong : ¬(more ++ tail).length < 5 := by
      rw [List.length_append]
      omega
    refine .inl ?_
    simp only [List.cons_append, lowHalf?, if_neg hlong, hex4?_append (by omega : 4 ≤ more.length),
      hhex, Option.map_none, Option.map_some]
    try split
    all_goals rfl
  | case4 _ hother =>
    refine .inl ?_
    rw [lowHalf?.eq_def]
    split
    · next more heq =>
      rcases cs with - | ⟨c, - | ⟨d, rest⟩⟩
      · cases hq
      · obtain rfl := List.mem_singleton.mp hq
        exact absurd (List.cons.inj heq).1 (by decide)
      · obtain ⟨rfl, rfl, -⟩ : c = '\\' ∧ d = 'u' ∧ rest ++ tail = more := by
          simpa only [List.cons_append, List.cons.injEq] using heq
        exact absurd rfl (hother rest)
    · rfl

lemma paired_append (hq : '"' ∈ cs) (tail : List Char) :
    paired n (cs ++ tail) = (paired n cs).map (fun p => (p.1, p.2 ++ tail)) ∨
      ((∃ e, paired n (cs ++ tail) = .error e) ∧
        ∃ c rest e, paired n cs = .ok (some c, rest) ∧ nextChar rest = .error e) := by
  unfold paired
  rcases lowHalf?_append hq tail with hboth | ⟨hnone, ⟨e, he⟩, e', hmore⟩
  · rw [hboth]
    cases lowHalf? cs with
    | error e => exact .inl rfl
    | ok o => cases o <;> exact .inl rfl
  · rw [hnone, hmore]
    exact .inr ⟨⟨e', rfl⟩, _, _, e, rfl, he⟩

/-- What comes next is the same with more text behind, unless it is half of a pair with too little
behind it, where the escape behind it is refused either way. -/
lemma nextChar_append (hq : '"' ∈ cs) (tail : List Char) :
    nextChar (cs ++ tail) = (nextChar cs).map (fun p => (p.1, p.2 ++ tail)) ∨
      ((∃ e, nextChar (cs ++ tail) = .error e) ∧
        ∃ c rest e, nextChar cs = .ok (some c, rest) ∧ nextChar rest = .error e) := by
  have hlong {more : List Char} (h : ¬more.length < 5) : ¬(more ++ tail).length < 5 := by
    rw [List.length_append]
    omega
  have hplain {c : Char} {more : List Char} (hend : c = '"' → False)
      (hlast : c = '\\' → more = [] → False)
      (hslash : ∀ d rest, c = '\\' → more = d :: rest → False) : nextChar (c :: more ++ tail) =
        if c.toNat < 0x20 then .error .controlCharacter else .ok (some c, more ++ tail) := by
    have hne : c ≠ '\\' := by
      rintro rfl
      cases more with
      | nil => exact hlast rfl rfl
      | cons d rest => exact hslash d rest rfl rfl
    rw [List.cons_append, nextChar]
    · exact hend
    · exact fun heq _ => hne heq
    · exact fun _ heq _ => hne heq
    · exact fun _ _ heq _ => hne heq
  fun_cases nextChar cs with
  | case1 => cases hq
  | case2 more => exact .inl rfl
  | case3 => simp at hq
  | case4 more h =>
    have hmem : '"' ∈ more := by simpa using hq
    refine .inl ?_
    simp only [List.cons_append, nextChar, hex4?_quote hmem h, ite_self]
    rfl
  | case5 more h hhex =>
    refine .inl ?_
    simp only [List.cons_append, nextChar, if_neg (hlong h),
      hex4?_append (by omega : 4 ≤ more.length), hhex]
    rfl
  | case6 more h n rest hhex hhigh =>
    have hmem : '"' ∈ rest := by
      obtain ⟨a, b, c, d, rfl, hdigits⟩ := hex4?_some hhex
      have hmem : '"' ∈ [a, b, c, d] ++ rest := by simpa using hq
      exact (List.mem_append.mp hmem).resolve_left fun h => absurd (hdigits _ h) (by decide)
    simp only [List.cons_append, nextChar, if_neg (hlong h),
      hex4?_append (by omega : 4 ≤ more.length), hhex, Option.map_some, hhigh, if_true]
    exact paired_append hmem tail
  | case7 more h n rest hhex hhigh =>
    refine .inl ?_
    simp only [List.cons_append, nextChar, if_neg (hlong h),
      hex4?_append (by omega : 4 ≤ more.length), hhex, Option.map_some, hhigh]
    rfl
  | case8 c more hu d hd | case9 c more hu hd =>
    refine .inl ?_
    rw [List.cons_append, List.cons_append, nextChar, hd]
    · rfl
    · exact hu
  | case10 c more hend hlast hu hslash hcontrol =>
    refine .inl ?_
    rw [hplain hend hlast hslash, if_pos hcontrol]
    rfl
  | case11 c more hend hlast hu hslash hcontrol =>
    refine .inl ?_
    rw [hplain hend hlast hslash, if_neg hcontrol]
    rfl

lemma readText_beside {fuel fuel' : Nat} (htail : ∀ c ∈ tail, isBlank c = true)
    (hfuel : cs.length < fuel) (hfuel' : (cs ++ tail).length < fuel') (acc : List Char) :
    Beside tail cs.length (readText fuel acc cs) (readText fuel' acc (cs ++ tail)) := by
  induction fuel generalizing cs fuel' acc with
  | zero => omega
  | succ fuel ih =>
    by_cases hq : '"' ∈ cs
    · obtain ⟨fuel', rfl⟩ : ∃ m, fuel' = m + 1 := ⟨fuel' - 1, by omega⟩
      rw [readText_succ, readText_succ]
      rcases nextChar_append hq tail with hnext | ⟨⟨e', he'⟩, c, rest, e, hc, he⟩
      · rw [hnext]
        rcases hhere : nextChar cs with e | ⟨o, rest⟩
        · exact .error e e
        · obtain ⟨used, rfl, hused, -⟩ := nextChar_used hhere
          have hpos := List.length_pos_iff.mpr hused
          simp only [List.length_append] at hfuel hfuel' ⊢
          cases o with
          | none => exact .ok _ (by omega)
          | some c =>
            have hfit : (rest ++ tail).length < fuel' := by
              rw [List.length_append]
              omega
            have hrest := ih (by omega : rest.length < fuel) hfit (c :: acc)
            exact hrest.mono (by omega)
      · rw [hc, he']
        cases fuel with
        | zero => exact .error _ _
        | succ fuel =>
          dsimp only
          rw [readText_succ, he]
          exact .error _ _
    · -- Blanks do not close the text either.
      obtain ⟨e, he⟩ := readText_unquoted hq (fuel + 1) acc
      obtain ⟨e', he'⟩ := readText_unquoted
        (List.not_mem_append hq (not_mem_of_blank htail (by decide))) fuel' acc
      rw [he, he']
      exact .error e e'

/-- A text that is read is read alike with anything behind it. -/
lemma readText_append {fuel fuel' : Nat} {acc : List Char} {t : String}
    (h : readText fuel acc cs = .ok (t, rest)) (tail : List Char)
    (hfuel' : (cs ++ tail).length < fuel') :
    readText fuel' acc (cs ++ tail) = .ok (t, rest ++ tail) := by
  induction fuel generalizing cs fuel' acc with
  | zero => cases h
  | succ fuel ih =>
    have hq : '"' ∈ cs := by
      by_contra hq
      obtain ⟨e, he⟩ := readText_unquoted hq (fuel + 1) acc
      rw [he] at h
      cases h
    obtain ⟨fuel', rfl⟩ : ∃ m, fuel' = m + 1 := ⟨fuel' - 1, by omega⟩
    rw [readText_succ] at h ⊢
    rcases nextChar_append hq tail with hnext | ⟨-, c, left, e, hc, he⟩
    · rw [hnext]
      rcases hhere : nextChar cs with e | ⟨o, left⟩
      · rw [hhere] at h
        cases h
      · rw [hhere] at h
        obtain ⟨used, rfl, hused, -⟩ := nextChar_used hhere
        have hpos := List.length_pos_iff.mpr hused
        have hfit : (left ++ tail).length < fuel' := by
          simp only [List.length_append] at hfuel' ⊢
          omega
        cases o with
        | none =>
          cases h
          rfl
        | some c => exact ih h hfit
    · -- Half of a pair that is not gone on with is not read at all.
      rw [hc] at h
      dsimp only at h
      cases fuel with
      | zero => cases h
      | succ fuel =>
        rw [readText_succ, he] at h
        cases h

/-! ### Constants and numbers -/

/-- A blank or a comma: what parts values. -/
def parts (c : Char) : Bool := isBlank c || c == ','

lemma ne_of_parts (h : parts c = true) (hd : parts d = false) : c ≠ d := by
  rintro rfl
  rw [h] at hd
  cases hd

section Head

variable (hhead : ∀ c ∈ tail.head?, parts c = true)

include hhead in
/-- What a text does not begin with, it does not begin with when more stands behind it. -/
lemma append_ne_cons (hd : parts d = false) (h : ∀ more, cs = d :: more → False) :
    ∀ more, cs ++ tail = d :: more → False := by
  intro more heq
  cases cs with
  | nil =>
    rw [List.nil_append] at heq
    have hparts := hhead d (by rw [heq]; rfl)
    rw [hd] at hparts
    cases hparts
  | cons c rest => exact h rest (by rw [(List.cons.inj heq).1])

include hhead in
lemma startsWith_append {name : List Char} (hname : ∀ c ∈ name, parts c = false)
    (cs : List Char) : Text.startsWith (cs ++ tail) name = Text.startsWith cs name := by
  induction name generalizing cs with
  | nil => cases cs <;> cases tail <;> rfl
  | cons d ds ih =>
    cases cs with
    | nil =>
      cases tail with
      | nil => rfl
      | cons c more =>
        have hc : (c == d) = false :=
          beq_eq_false_iff_ne.mpr (ne_of_parts (hhead c rfl) (hname d List.mem_cons_self))
        simp [Text.startsWith, hc]
    | cons c cs =>
      rw [List.cons_append, Text.startsWith, Text.startsWith,
        ih (fun x hx => hname x (List.mem_cons_of_mem _ hx))]

include hhead in
/-- Neither a blank nor a comma belongs to a constant. -/
lemma constant?_append (cs : List Char) :
    constant? (cs ++ tail) = (constant? cs).map fun r => (r.1, r.2 ++ tail) := by
  have hnames : ∀ k ∈ constants, ∀ c ∈ k.1.toList, parts c = false := by
    simp [constants, parts, isBlank]
  rw [constant?, constant?, List.find?_congr fun k hk => startsWith_append hhead (hnames k hk) cs,
    Option.map_map]
  refine Option.map_congr fun k hk => ?_
  have hlength : k.1.toList.length ≤ cs.length := length_le_of_startsWith
    (List.find?_some (p := fun k : String × Value => Text.startsWith cs k.1.toList) hk)
  rw [String.length_toList] at hlength
  rw [List.drop_append_of_le_length hlength]
  rfl

lemma span_append {p : Char → Bool} (h : ∀ c ∈ tail.head?, p c = false) (cs : List Char) :
    (cs ++ tail).takeWhile p = cs.takeWhile p ∧
      (cs ++ tail).dropWhile p = cs.dropWhile p ++ tail := by
  induction cs with
  | nil =>
    cases tail with
    | nil => exact ⟨rfl, rfl⟩
    | cons c tail => simp [h c rfl]
  | cons c cs ih =>
    cases hc : p c <;> simp [hc, ih]

/-- A blank is no digit. -/
lemma isDigit_of_isBlank (h : isBlank c = true) : isDigit c = false := by
  by_contra hc
  have hbounds := Number.toNat_of_isDigit (Bool.of_not_eq_false hc : c.isDigit = true)
  simp only [isBlank, Bool.or_eq_true, Bool.and_eq_true, decide_eq_true_eq, beq_iff_eq] at h
  omega

include hhead in
lemma span_digits (cs : List Char) : (cs ++ tail).takeWhile isDigit = cs.takeWhile isDigit ∧
    (cs ++ tail).dropWhile isDigit = cs.dropWhile isDigit ++ tail := by
  refine span_append (fun c hc => ?_) cs
  rcases Bool.or_eq_true_iff.mp (hhead c hc) with hblank | hcomma
  · exact isDigit_of_isBlank hblank
  · rw [beq_iff_eq.mp hcomma]
    rfl

include hhead in
lemma takeWhole_append (cs : List Char) :
    takeWhole (cs ++ tail) = ((takeWhole cs).1, (takeWhole cs).2 ++ tail) := by
  have hdigits := span_digits hhead
  fun_cases takeWhole cs with
  | case1 rest => rfl
  | case2 cs hzero =>
    rw [takeWhole, (hdigits cs).1, (hdigits cs).2]
    exact append_ne_cons hhead (by decide) hzero

include hhead in
lemma takeFraction_append (cs : List Char) :
    takeFraction (cs ++ tail) = ((takeFraction cs).1, (takeFraction cs).2 ++ tail) := by
  have hdigits := span_digits hhead
  fun_cases takeFraction cs with
  | case1 rest ds h =>
    rw [List.cons_append, takeFraction, (hdigits rest).1, if_pos h]
  | case2 rest ds h =>
    rw [List.cons_append, takeFraction, (hdigits rest).1, (hdigits rest).2, if_neg h]
  | case3 cs hpoint =>
    rw [takeFraction]
    exact append_ne_cons hhead (by decide) hpoint

include hhead in
lemma takeSign_append (cs : List Char) :
    takeSign (cs ++ tail) = ((takeSign cs).1, (takeSign cs).2 ++ tail) := by
  fun_cases takeSign cs with
  | case1 | case2 => rfl
  | case3 cs hplus hminus =>
    rw [takeSign]
    · exact append_ne_cons hhead (by decide) hplus
    · exact append_ne_cons hhead (by decide) hminus

include hhead in
lemma takeExponent_append (cs : List Char) :
    takeExponent (cs ++ tail) = ((takeExponent cs).1, (takeExponent cs).2 ++ tail) := by
  have hdigits := span_digits hhead
  cases cs with
  | nil =>
    cases tail with
    | nil => rfl
    | cons c more =>
      have hc : parts c = true := hhead c rfl
      rw [List.nil_append, takeExponent_cons, if_neg]
      · rfl
      · simp [ne_of_parts hc (d := 'e') (by decide), ne_of_parts hc (d := 'E') (by decide)]
  | cons c cs =>
    rw [List.cons_append, takeExponent_cons, takeExponent_cons, takeSign_append hhead cs,
      (hdigits _).1, (hdigits _).2]
    split
    · split <;> rfl
    · rfl

include hhead in
lemma takeMinus_append (cs : List Char) :
    takeMinus (cs ++ tail) = ((takeMinus cs).1, (takeMinus cs).2 ++ tail) := by
  fun_cases takeMinus cs with
  | case1 => rfl
  | case2 cs hminus =>
    rw [takeMinus]
    exact append_ne_cons hhead (by decide) hminus

include hhead in
lemma readNumber_beside (cs : List Char) :
    Beside tail cs.length (readNumber cs) (readNumber (cs ++ tail)) := by
  rw [readNumber_eq, readNumber_eq, takeMinus_append hhead, takeWhole_append hhead,
    takeFraction_append hhead, takeExponent_append hhead]
  have hminus := takeMinus_length cs
  have hwhole := congrArg List.length (takeWhole_rest (takeMinus cs).2)
  have hfraction := congrArg List.length (takeFraction_rest (takeWhole (takeMinus cs).2).2)
  have hexponent := congrArg List.length
    (takeExponent_rest (takeFraction (takeWhole (takeMinus cs).2).2).2)
  rw [List.length_append] at hwhole hfraction hexponent
  cases hnumber : numberOf (takeMinus cs).1 (takeWhole (takeMinus cs).2).1
      (takeFraction (takeWhole (takeMinus cs).2).2).1
      (takeExponent (takeFraction (takeWhole (takeMinus cs).2).2).2).1 with
  | error e => exact .error e e
  | ok v =>
    have hpos : 0 < (takeWhole (takeMinus cs).2).1.length := by
      refine List.length_pos_iff.mpr fun hnil => ?_
      rw [hnil] at hnumber
      cases hnumber
    exact .ok v (by omega)

include hhead in
lemma readPlain_beside {fuel fuel' : Nat} (h : ∀ c ∈ cs.head?, c ≠ '"' ∧ c ≠ '[' ∧ c ≠ '\x7b') :
    Beside tail cs.length (readValue (fuel + 1) cs) (readValue (fuel' + 1) (cs ++ tail)) := by
  have happend : ∀ c ∈ (cs ++ tail).head?, c ≠ '"' ∧ c ≠ '[' ∧ c ≠ '\x7b' := by
    cases cs with
    | nil =>
      intro c hc
      have hparts := hhead c hc
      exact ⟨ne_of_parts hparts (by decide), ne_of_parts hparts (by decide),
        ne_of_parts hparts (by decide)⟩
    | cons c cs => exact h
  rw [readValue_plain h, readValue_plain happend, constant?_append hhead]
  cases hconstant : constant? cs with
  | none => exact readNumber_beside hhead cs
  | some r => exact .ok r.1 (constant?_shorter hconstant)

end Head

/-! ### Values with blanks behind them -/

section Blanks

variable (htail : ∀ c ∈ tail, isBlank c = true)

include htail in
lemma head_of_blank : ∀ c ∈ tail.head?, parts c = true :=
  fun c hc => Bool.or_eq_true_iff.mpr (.inl (htail c (List.mem_of_mem_head? hc)))

/-- Nothing is read off an empty text, so what stands behind it does not matter. -/
lemma Beside.of_zero {left : List Char} {x y : Except ReadError (α × List Char)}
    (h : Beside left 0 x y) (tail : List Char) (n : Nat) : Beside tail n x y := by
  cases h with
  | ok a shorter => exact absurd shorter (Nat.not_lt_zero _)
  | error e e' => exact .error e e'

lemma length_skipSpace (cs : List Char) : (skipSpace cs).length ≤ cs.length :=
  (List.dropWhile_sublist isSpace).length_le

/-- What is skipped ends in the text, or goes on behind it. -/
lemma skipSpace_append (cs tail : List Char) :
    (skipSpace cs = [] ∧ skipSpace (cs ++ tail) = skipSpace tail) ∨
      ∃ d more, skipSpace cs = d :: more ∧ skipSpace (cs ++ tail) = d :: (more ++ tail) := by
  induction cs with
  | nil => exact .inl ⟨rfl, rfl⟩
  | cons c cs ih =>
    rw [List.cons_append]
    by_cases hc : isSpace c = true
    · simpa only [skipSpace, List.dropWhile_cons_of_pos hc] using ih
    · exact .inr ⟨c, cs, by simp [skipSpace, hc], by simp [skipSpace, hc]⟩

include htail in
lemma blank_skipSpace : ∀ c ∈ skipSpace tail, isBlank c = true :=
  fun c hc => htail c ((List.dropWhile_sublist isSpace).subset hc)

include htail in
/-- A blank is no mark. -/
lemma Beside.atMark (hd : isBlank d = false)
    {f g : List Char → Except ReadError (α × List Char)} {x y : Except ReadError (α × List Char)}
    (hmark : ∀ more, more.length < cs.length → Beside tail n (f more) (g (more ++ tail)))
    (hother : Beside tail n x y) :
    Beside tail n (Json.atMark d f x cs) (Json.atMark d g y (cs ++ tail)) := by
  have hlength := length_skipSpace cs
  rcases skipSpace_append cs tail with ⟨hnil, hskip⟩ | ⟨c, more, hc, hskip⟩
  · have hblank := blank_skipSpace htail
    rw [atMark_of_ne (by simp [hnil]), atMark_of_ne]
    · exact hother
    · intro rest hrest
      rw [hskip] at hrest
      exact not_mem_of_blank hblank hd (hrest ▸ List.mem_cons_self)
  · rw [hc, List.length_cons] at hlength
    by_cases hcd : c = d
    · subst hcd
      rw [atMark_of_eq hc, atMark_of_eq hskip]
      exact hmark more hlength
    · rw [atMark_of_ne (by simp [hc, hcd]), atMark_of_ne (by simp [hskip, hcd])]
      exact hother

/-- A reader with some fuel reads texts beside those with blanks behind them, whatever fuel the
latter are read with, if both have enough. -/
def FuelBeside (f : Nat → List Char → Except ReadError (α × List Char)) (extra fuel : Nat) : Prop :=
  ∀ (cs tail : List Char) (fuel' : Nat), (∀ c ∈ tail, isBlank c = true) →
    2 * cs.length + extra < fuel → 2 * (cs ++ tail).length + extra < fuel' →
    Beside tail cs.length (f fuel cs) (f fuel' (cs ++ tail))

lemma FuelBeside.zero {f : Nat → List Char → Except ReadError (α × List Char)} {extra : Nat} :
    FuelBeside f extra 0 := by
  intro cs tail fuel' htail h
  omega

/-- Blanks that are skipped do not matter. -/
lemma FuelBeside.skip {f : Nat → List Char → Except ReadError (α × List Char)} {extra fuel : Nat}
    (h : FuelBeside f extra fuel) :
    FuelBeside (fun fuel cs => f fuel (skipSpace cs)) extra fuel := by
  intro cs tail fuel' htail hfuel hfuel'
  have hlength := length_skipSpace cs
  have hlength' := length_skipSpace (cs ++ tail)
  dsimp only
  rcases skipSpace_append cs tail with ⟨hnil, hskip⟩ | ⟨d, more, hd, hskip⟩
  · have hnone := h [] (skipSpace tail) fuel' (blank_skipSpace htail)
      (by rw [List.length_nil]; omega) (by rw [List.nil_append, ← hskip]; omega)
    rw [hnil, hskip]
    exact hnone.of_zero ..
  · have happend : skipSpace (cs ++ tail) = skipSpace cs ++ tail := by rw [hskip, hd]; rfl
    rw [happend] at hlength' ⊢
    exact (h _ _ _ htail (by omega) (by omega)).mono hlength

/-- The readers of values, of items and of members with some fuel. -/
structure ReadersBeside (fuel : Nat) : Prop where
  value : FuelBeside readValue 0 fuel
  items : FuelBeside readItems 1 fuel
  members : FuelBeside readMembers 1 fuel

variable {fuel : Nat}

lemma ReadersBeside.succ_value (ih : ReadersBeside fuel) : FuelBeside readValue 0 (fuel + 1) := by
  intro cs tail fuel' htail h h'
  obtain ⟨fuel', rfl⟩ : ∃ m, fuel' = m + 1 := ⟨fuel' - 1, by omega⟩
  by_cases hplain : ∀ c ∈ cs.head?, c ≠ '"' ∧ c ≠ '[' ∧ c ≠ '\x7b'
  · exact readPlain_beside (head_of_blank htail) hplain
  obtain ⟨c, rest, rfl, hc⟩ : ∃ c rest, cs = c :: rest ∧ (c = '"' ∨ c = '[' ∨ c = '\x7b') := by
    cases cs with
    | nil => exact absurd nofun hplain
    | cons c rest =>
      refine ⟨c, rest, rfl, ?_⟩
      by_contra hc
      simp only [not_or] at hc
      exact hplain fun d hd => by cases hd; exact hc
  rw [List.cons_append]
  simp only [List.length_cons, List.length_append] at h h' ⊢
  rcases hc with rfl | rfl | rfl
  · rw [readValue_text, readValue_text]
    have htext := readText_beside htail (Nat.lt_succ_self rest.length) (Nat.lt_succ_self _) []
    exact htext.bind fun s more hmore => .ok _ (by omega)
  · rw [readValue_list, readValue_list]
    refine .atMark htail (by decide) (fun more hmore => .ok _ (by omega)) ?_
    have hitems := ih.items.skip rest tail fuel' htail (by omega)
      (by rw [List.length_append]; omega)
    exact hitems.bind fun xs more hmore => .ok _ (by omega)
  · rw [readValue_mapping, readValue_mapping]
    refine .atMark htail (by decide) (fun more hmore => .ok _ (by omega)) ?_
    have hmembers := ih.members.skip rest tail fuel' htail (by omega)
      (by rw [List.length_append]; omega)
    exact hmembers.bind fun es more hmore => .ok _ (by omega)

lemma ReadersBeside.succ_items (ih : ReadersBeside fuel) : FuelBeside readItems 1 (fuel + 1) := by
  intro cs tail fuel' htail h h'
  obtain ⟨fuel', rfl⟩ : ∃ m, fuel' = m + 1 := ⟨fuel' - 1, by omega⟩
  rw [readItems_succ, readItems_succ]
  have hvalue := ih.value cs tail fuel' htail (by omega) (by omega)
  rw [List.length_append] at h'
  refine hvalue.bind fun x rest hrest => ?_
  refine .atMark htail (by decide) (fun more hmore => .ok _ (by omega)) ?_
  refine .atMark htail (by decide) (fun more hmore => ?_) (.error _ _)
  have hitems := ih.items.skip more tail fuel' htail (by omega)
    (by rw [List.length_append]; omega)
  exact hitems.bind fun xs left hleft => .ok _ (by omega)

lemma ReadersBeside.succ_members (ih : ReadersBeside fuel) :
    FuelBeside readMembers 1 (fuel + 1) := by
  intro cs tail fuel' htail h h'
  obtain ⟨fuel', rfl⟩ : ∃ m, fuel' = m + 1 := ⟨fuel' - 1, by omega⟩
  by_cases hquote : ∃ rest, cs = '"' :: rest
  · obtain ⟨rest, rfl⟩ := hquote
    rw [List.cons_append]
    simp only [List.length_cons, List.length_append] at h h' ⊢
    rw [readMembers_text, readMembers_text]
    have hkey := readText_beside htail (Nat.lt_succ_self rest.length) (Nat.lt_succ_self _) []
    refine hkey.bind fun key rest hrest => ?_
    refine .atMark htail (by decide) (fun behind hbehind => ?_) (.error _ _)
    have hvalue := ih.value.skip behind tail fuel' htail (by omega)
      (by rw [List.length_append]; omega)
    refine hvalue.bind fun v rest hrest => ?_
    refine .atMark htail (by decide) (fun more hmore => .ok _ (by omega)) ?_
    refine .atMark htail (by decide) (fun more hmore => ?_) (.error _ _)
    have hmembers := ih.members.skip more tail fuel' htail (by omega)
      (by rw [List.length_append]; omega)
    exact hmembers.bind fun es left hleft => .ok _ (by omega)
  · rw [readMembers_other, readMembers_other]
    · exact .error _ _
    · exact append_ne_cons (head_of_blank htail) (by decide) fun more hmore => hquote ⟨more, hmore⟩
    · exact fun rest hrest => hquote ⟨rest, hrest⟩

lemma readersBeside (fuel : Nat) : ReadersBeside fuel := by
  induction fuel with
  | zero => exact ⟨.zero, .zero, .zero⟩
  | succ fuel ih => exact ⟨ih.succ_value, ih.succ_items, ih.succ_members⟩

end Blanks

/-! ### Texts in their margins -/

/-- A blank of JSON is a blank. -/
lemma isBlank_of_isSpace (h : isSpace c = true) : isBlank c = true := by
  simp only [isSpace, Bool.or_eq_true, beq_iff_eq] at h
  rcases h with ((rfl | rfl) | rfl) | rfl <;> rfl

lemma skipSpace_eq_nil : skipSpace cs = [] ↔ Blank cs := List.dropWhile_eq_nil_iff

lemma blank_append : Blank (cs ++ tail) ↔ Blank cs ∧ Blank tail := List.forall_mem_append

/-- No value begins with a blank. -/
lemma readValue_blank (h : isBlank c = true) (fuel : Nat) (cs : List Char) :
    ∃ e, readValue fuel (c :: cs) = .error e := by
  have hmarks : ∀ d ∈ ['"', '[', '\x7b', 'n', 't', 'f', 'N', 'I', '-'], isBlank d = false := by
    simp [isBlank]
  refine readValue_refused (fun hmem => ?_) (isDigit_of_isBlank h) fuel cs
  rw [hmarks c hmem] at h
  cases h

/-- A value is read if nothing but blanks is left behind it. -/
lemma ended_iff {x : Except ReadError (Value × List Char)} : (do
    let (w, rest) ← x
    if (skipSpace rest).isEmpty then return w else .error .extraData) = .ok v ↔
      ∃ rest, x = .ok (v, rest) ∧ skipSpace rest = [] := by
  constructor
  · intro h
    obtain ⟨⟨w, rest⟩, hread, h⟩ := except_bind_ok h
    dsimp only at h
    split at h
    · next hempty =>
      cases h
      exact ⟨rest, hread, List.isEmpty_iff.mp hempty⟩
    · cases h
  · rintro ⟨rest, rfl, hempty⟩
    simp only [bind, Except.bind, hempty]
    rfl

lemma read_eq_ok : read s = .ok v ↔ ∃ rest,
    readValue (2 * (skipSpace s.toList).length + 2) (skipSpace s.toList) = .ok (v, rest) ∧
      skipSpace rest = [] := by
  rw [read]
  split
  · next c cs hcs =>
    rw [hcs]
    split
    · next hmark =>
      -- A mark of an encoding is refused behind blanks, too.
      have hc : c = Char.ofNat 0xFEFF := by rw [← hmark, Char.ofNat_toNat]
      subst hc
      obtain ⟨e, he⟩ := readValue_refused (c := Char.ofNat 0xFEFF) (by decide) (by decide)
        (2 * (Char.ofNat 0xFEFF :: cs).length + 2) cs
      have hskip : skipSpace (Char.ofNat 0xFEFF :: cs) = Char.ofNat 0xFEFF :: cs := rfl
      rw [hskip, he]
      simp
    · exact ended_iff
  · next hcs =>
    have hnone : readValue (2 * (skipSpace []).length + 2) (skipSpace []) =
        .error .expectingValue := rfl
    rw [hcs, hnone]
    simp

lemma Beside.ok_iff {x y : Except ReadError (α × List Char)} {a : α} {P : List Char → Prop}
    (h : Beside tail n x y) : (∃ rest, y = .ok (a, rest) ∧ P rest) ↔
      ∃ rest, x = .ok (a, rest) ∧ P (rest ++ tail) := by
  cases h with
  | error e e' => exact iff_of_false nofun nofun
  | @ok b rest shorter =>
    constructor
    · rintro ⟨_, ⟨⟩, hP⟩
      exact ⟨rest, rfl, hP⟩
    · rintro ⟨_, ⟨⟩, hP⟩
      exact ⟨_, rfl, hP⟩

/-- A text that begins with a blank is no JSON, and an empty one is none either. -/
lemma not_read_blank {fuel : Nat} (h : ∀ c ∈ cs.head?, isBlank c = true) :
    ¬∃ rest, readValue (fuel + 1) cs = .ok (v, rest) ∧ skipSpace rest = [] := by
  rintro ⟨rest, hread, -⟩
  cases cs with
  | nil => cases hread
  | cons c cs =>
    obtain ⟨e, he⟩ := readValue_blank (h c rfl) (fuel + 1) cs
    rw [he] at hread
    cases hread

lemma head_skipSpace (h : ∀ c ∈ cs, isBlank c = true) (rest : List Char) (hcs : ¬Blank cs) :
    ∀ c ∈ (skipSpace (cs ++ rest)).head?, isBlank c = true := by
  induction cs with
  | nil => exact absurd nofun hcs
  | cons c cs ih =>
    by_cases hc : isSpace c = true
    · rw [List.cons_append, skipSpace, List.dropWhile_cons_of_pos hc]
      refine ih (fun d hd => h d (List.mem_cons_of_mem _ hd)) fun hblank => hcs ?_
      exact List.forall_mem_cons.mpr ⟨hc, hblank⟩
    · rw [List.cons_append, skipSpace, List.dropWhile_cons_of_neg hc]
      rintro _ ⟨⟩
      exact h c List.mem_cons_self

/-- **A text with blanks around it is JSON just if the text without them is and these blanks are
blanks of JSON**, and is read as the same value then. -/
theorem read_framed (h : Text.Framed front core back s.toList) :
    read s = .ok v ↔ read (String.ofList core) = .ok v ∧ Blank front ∧ Blank back := by
  rw [read_eq_ok, read_eq_ok, String.toList_ofList]
  cases hcore : core with
  | nil =>
    have hs : ∀ c ∈ (skipSpace s.toList).head?, isBlank c = true := by
      intro c hc
      have hmem := (List.dropWhile_sublist isSpace).subset (List.mem_of_mem_head? hc)
      rw [h.eq, hcore, List.nil_append] at hmem
      exact (List.mem_append.mp hmem).elim (h.front c) (h.back c)
    have hnil : ∀ c ∈ (skipSpace []).head?, isBlank c = true := nofun
    exact iff_of_false (not_read_blank hs) fun hread => not_read_blank hnil hread.1
  | cons c rest =>
    have hc : isSpace c = false := by
      have hnot : isBlank c = false := h.head c (by rw [hcore]; rfl)
      exact Bool.eq_false_iff.mpr fun hspace => by simp [isBlank_of_isSpace hspace] at hnot
    have hskip (tail : List Char) : skipSpace (c :: rest ++ tail) = c :: rest ++ tail :=
      List.dropWhile_cons_of_neg (by simp [hc])
    have hskip' := hskip []
    rw [List.append_nil] at hskip'
    by_cases hfront : Blank front
    · have hs : skipSpace s.toList = c :: rest ++ back := by
        rw [h.eq, hcore, hfront.skipSpace, hskip]
      have hbeside := (readersBeside (2 * (c :: rest).length + 2)).value (c :: rest) back
        (2 * (c :: rest ++ back).length + 2) h.back (by omega) (by omega)
      rw [hs, hskip', hbeside.ok_iff]
      simp only [skipSpace_eq_nil, blank_append]
      constructor
      · rintro ⟨left, hread, hleft, hback⟩
        exact ⟨⟨left, hread, hleft⟩, hfront, hback⟩
      · rintro ⟨⟨left, hread, hleft⟩, -, hback⟩
        exact ⟨left, hread, hleft, hback⟩
    · rw [h.eq]
      exact iff_of_false (not_read_blank (head_skipSpace h.front _ hfront)) fun hread =>
        hfront hread.2.1

/-- The blanks at both ends of a text are blanks of JSON. -/
def Margins (s : String) : Prop :=
  Blank (s.toList.takeWhile isBlank) ∧ Blank (s.toList.reverse.takeWhile isBlank)

/-- A text that holds more than blanks is JSON just if it is so without the blanks around it, and
these are blanks of JSON. -/
lemma read_eq_ok_iff_trim (h : Text.isBlankText s = false) :
    read s = .ok v ↔ read (Text.trim s) = .ok v ∧ Margins s := by
  obtain ⟨front, back, hframed⟩ := Text.exists_framed s.toList
  have hcore : Text.trimChars s.toList ≠ [] := by
    intro hnil
    have hall : ∀ c ∈ s.toList, isBlank c = true := by
      rw [hframed.eq, hnil, List.nil_append]
      exact List.forall_mem_append.mpr ⟨hframed.front, hframed.back⟩
    rw [Text.isBlankText, List.all_eq_true.mpr hall] at h
    cases h
  have hback : s.toList.reverse.takeWhile isBlank = back.reverse :=
    hframed.reverse.front_eq (by simpa using hcore)
  have hblank : Blank back.reverse ↔ Blank back := by simp [Blank]
  rw [read_framed hframed, Margins, hframed.front_eq hcore, hback, hblank]
  rfl

/-- A text that is JSON is so without the blanks around it. -/
lemma read_trim (h : read s = .ok v) : read (Text.trim s) = .ok v := by
  obtain ⟨front, back, hframed⟩ := Text.exists_framed s.toList
  exact ((read_framed hframed).mp h).1

/-- A value that is neither a list nor a mapping is read alike with a comma behind it. -/
lemma readValue_comma {fuel : Nat} (h : readValue (fuel + 1) cs = .ok (v, rest))
    (hlist : ∀ xs, v ≠ .list xs) (hdict : ∀ es, v ≠ .dict es) (more : List Char) (fuel' : Nat) :
    readValue (fuel' + 1) (cs ++ ',' :: more) = .ok (v, rest ++ ',' :: more) := by
  cases readValue_ok h with
  | text open_eq read =>
    rw [open_eq, List.cons_append, readValue_text, readText_append read _ (Nat.lt_succ_self _)]
    rfl
  | empty open_eq => exact absurd rfl (hlist _)
  | list open_eq => exact absurd rfl (hlist _)
  | mapping open_eq => exact absurd rfl (hdict _)
  | @bare _ c left eq space marks bare =>
    have hparts : ∀ c ∈ (',' :: more).head?, parts c = true := by
      rintro _ ⟨⟩
      rfl
    have hplain : ∀ c ∈ cs.head?, c ≠ '"' ∧ c ≠ '[' ∧ c ≠ '\x7b' := by
      rw [eq]
      rintro _ ⟨⟩
      exact marks
    have hbeside : Beside (',' :: more) cs.length (readValue (fuel + 1) cs)
        (readValue (fuel' + 1) (cs ++ ',' :: more)) := readPlain_beside hparts hplain
    obtain ⟨left, hleft, rfl⟩ := (hbeside.ok_iff (P := (· = rest ++ ',' :: more))).mpr
      ⟨rest, h, rfl⟩
    exact hleft

/-- A text that is read as a value which is neither a list nor a mapping is no JSON with a comma
behind it. -/
lemma not_read_comma (h : read s = .ok v) (hlist : ∀ xs, v ≠ .list xs)
    (hdict : ∀ es, v ≠ .dict es) (more : List Char) (w : Value) :
    read (String.ofList (s.toList ++ ',' :: more)) ≠ .ok w := by
  intro hmore
  obtain ⟨rest, hread, hrest⟩ := read_eq_ok.mp h
  obtain ⟨left, hread', hleft⟩ := read_eq_ok.mp hmore
  rw [String.toList_ofList] at hread'
  rcases skipSpace_append s.toList (',' :: more) with ⟨hnil, -⟩ | ⟨d, behind, hd, hskip⟩
  · rw [hnil] at hread
    cases hread
  · rw [hskip, ← List.cons_append, ← hd, readValue_comma hread hlist hdict] at hread'
    cases hread'
    rw [skipSpace_eq_nil, blank_append] at hleft
    exact absurd (hleft.2 ',' List.mem_cons_self) (by decide)

end Json
end BlockSuite
