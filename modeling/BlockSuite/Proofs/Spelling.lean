import BlockSuite.Proofs.Json
import BlockSuite.Proofs.Number
import BlockSuite.Proofs.Procedure

/-!
Spellings of values in JSON. A spelled value is read wherever it ends: at the end of the text, at a
blank, or at a mark of the list or the mapping that it stands in. Spelled values that are joined by
commas spell a list, and spelled members a mapping, whatever blanks stand around them.
-/

namespace BlockSuite

/-- A mapping that is read from members with distinct texts as keys has these members. -/
lemma Value.mappingOf_members {d : Dict Value} (h : d.keys.Nodup) :
    mappingOf (Arguments.members d) = .record d := by
  have hfold (d e : Dict Value) :
      (Arguments.members e).foldl (fun d e => bindKey d e.1 e.2) (Arguments.members d) =
        Arguments.members (d.update e) := by
    induction e generalizing d with
    | nil => rfl
    | cons x rest ih =>
      have hx : Arguments.members (x :: rest) = (.text x.1, x.2) :: Arguments.members rest := rfl
      rw [hx, List.foldl_cons, Arguments.bindKey_members, ih]
      rfl
  have hmembers := hfold [] d
  rw [show Dict.update [] d = d from Dict.ofPairs_of_nodup h] at hmembers
  exact congrArg Value.dict hmembers

namespace Json

variable {cs rest : List Char} {v : Value} {i : Int}

/-! ### Spelled values -/

/-- Characters that are skipped between values. -/
def Blank (cs : List Char) : Prop := ∀ c ∈ cs, isSpace c = true

lemma Blank.skipSpace (h : Blank cs) (rest : List Char) :
    Json.skipSpace (cs ++ rest) = Json.skipSpace rest :=
  List.dropWhile_append_of_pos h

/-- What stands behind a written value: nothing, a mark of what the value stands in, or a blank. -/
def Follows (rest : List Char) : Prop :=
  ∀ c ∈ rest.head?, (c = ',' ∨ c = ']' ∨ c = '\x7d') ∨ isSpace c = true

/-- A character that a written value or member may begin with: no blank, no mark that closes a list
or a mapping, and no mark of an encoding. -/
def opens (c : Char) : Bool := !isSpace c && c != ']' && c != '\x7d' && c.toNat != 0xFEFF

/-- A text begins like a written value. -/
def Starts (cs : List Char) : Prop := ∃ c rest, cs = c :: rest ∧ opens c = true

lemma Starts.append (h : Starts cs) (rest : List Char) : Starts (cs ++ rest) := by
  obtain ⟨c, tail, rfl, hc⟩ := h
  exact ⟨c, tail ++ rest, rfl, hc⟩

/-- Nothing is skipped in front of a value. -/
lemma Starts.skipSpace (h : Starts cs) : Json.skipSpace cs = cs := by
  obtain ⟨c, tail, rfl, hc⟩ := h
  have hspace : isSpace c = false := by
    simp only [opens, Bool.and_eq_true, Bool.not_eq_true'] at hc
    exact hc.1.1.1
  rw [Json.skipSpace, List.dropWhile_cons_of_neg (by simp [hspace])]

/-- A text spells a value: it begins like one, and is read as the value wherever it ends. -/
structure Spells (cs : List Char) (v : Value) : Prop where
  starts : Starts cs
  reads : ∀ rest, Follows rest → ∀ fuel, cs.length ≤ fuel →
    readValue fuel (cs ++ rest) = .ok (v, rest)

/-- It is enough to be read with one layer and as many more as there are other characters. -/
lemma Spells.of_cons {c : Char} (hc : opens c = true)
    (h : ∀ rest, Follows rest → ∀ fuel, cs.length ≤ fuel →
      readValue (fuel + 1) (c :: (cs ++ rest)) = .ok (v, rest)) : Spells (c :: cs) v := by
  refine ⟨⟨c, cs, rfl, hc⟩, fun rest hrest fuel hfuel => ?_⟩
  cases fuel with
  | zero => simp at hfuel
  | succ fuel => exact h rest hrest fuel (by simpa using hfuel)

/-! ### Scalars -/

/-- A text that begins neither a text nor a list nor a mapping is that of a constant or a number. -/
lemma readValue_scalar {c : Char} (h : c ≠ '"' ∧ c ≠ '[' ∧ c ≠ '\x7b') (cs : List Char)
    (fuel : Nat) : readValue (fuel + 1) (c :: cs) =
      match constant? (c :: cs) with
      | some r => .ok r
      | none => readNumber (c :: cs) := by
  unfold readValue
  dsimp only
  split
  · next heq => exact absurd (List.cons.inj heq).1 h.1
  · next heq => exact absurd (List.cons.inj heq).1 h.2.1
  · next heq => exact absurd (List.cons.inj heq).1 h.2.2
  · rfl

/-- A constant is read as its value. -/
lemma spells_constant {name : String} {c : Char} (hname : name.toList = c :: cs)
    (hc : opens c = true) (h : c ≠ '"' ∧ c ≠ '[' ∧ c ≠ '\x7b')
    (hfind : ∀ rest, constants.find? (fun k => Text.startsWith (c :: (cs ++ rest)) k.1.toList) =
      some (name, v)) : Spells name.toList v := by
  rw [hname]
  refine .of_cons hc fun rest _ fuel _ => ?_
  have hdrop : (c :: (cs ++ rest)).drop name.length = rest := by
    rw [← String.length_toList, hname, ← List.cons_append, List.drop_left]
  have hconstant : constant? (c :: (cs ++ rest)) = some (v, rest) := by
    rw [constant?, hfind, Option.map_some, hdrop]
  rw [readValue_scalar h, hconstant]

lemma spells_null : Spells "null".toList .null := by
  have hname : "null".toList = ['n', 'u', 'l', 'l'] := by simp
  exact spells_constant hname (by decide) (by decide) fun _ => by simp [constants, Text.startsWith]

lemma spells_bool (b : Bool) : Spells (if b then "true" else "false").toList (.bool b) := by
  cases b
  · have hname : "false".toList = ['f', 'a', 'l', 's', 'e'] := by simp
    exact spells_constant hname (by decide) (by decide) fun _ => by
      simp [constants, Text.startsWith]
  · have hname : "true".toList = ['t', 'r', 'u', 'e'] := by simp
    exact spells_constant hname (by decide) (by decide) fun _ => by
      simp [constants, Text.startsWith]

lemma length_le_escaped (cs : List Char) : cs.length ≤ (cs.flatMap escape).length := by
  have hone (c : Char) : 1 ≤ (escape c).length := by
    unfold escape
    split <;> try simp
    split
    · simp
    · split <;> [simp; (split <;> simp)]
  induction cs with
  | nil => simp
  | cons c cs ih =>
    have := hone c
    rw [List.flatMap_cons, List.length_append, List.length_cons]
    omega

lemma toList_ofText (s : String) : (ofText s).toList = '"' :: (s.toList.flatMap escape ++ ['"']) :=
  String.toList_ofList

/-- A text in quotation marks is read as it is written, whatever is behind it. -/
lemma readText_ofText (s : String) (rest : List Char) :
    readText ((s.toList.flatMap escape ++ '"' :: rest).length + 1) []
      (s.toList.flatMap escape ++ '"' :: rest) = .ok (s, rest) := by
  have hlength := length_le_escaped s.toList
  rw [readText_escaped _ _ _ (by simp only [List.length_append, List.length_cons]; omega)]
  simp

lemma spells_text (s : String) : Spells (ofText s).toList (.text s) := by
  rw [toList_ofText]
  refine .of_cons (by decide) fun rest _ fuel _ => ?_
  rw [List.append_assoc, List.singleton_append, readValue, readText_ofText]
  rfl

/-- What follows a value does not go on with a number. -/
lemma Follows.not_mem {c : Char} {tail : List Char} (h : Follows (c :: tail)) :
    isDigit c = false ∧ c ≠ '.' ∧ (c == 'e' || c == 'E') = false := by
  rcases h c rfl with (rfl | rfl | rfl) | hspace
  · decide
  · decide
  · decide
  · simp only [isSpace, Bool.or_eq_true, beq_iff_eq] at hspace
    rcases hspace with ((rfl | rfl) | rfl) | rfl <;> decide

lemma Follows.head (h : Follows rest) : ∀ c ∈ rest.head?, isDigit c = false := by
  cases rest with
  | nil => nofun
  | cons c tail =>
    rintro _ ⟨⟩
    exact h.not_mem.1

lemma Follows.takeFraction (h : Follows rest) : Json.takeFraction rest = ([], rest) := by
  unfold Json.takeFraction
  split
  · exact absurd rfl h.not_mem.2.1
  · rfl

lemma Follows.takeExponent (h : Follows rest) : Json.takeExponent rest = ([], rest) := by
  cases rest with
  | nil => rfl
  | cons c tail => simp [Json.takeExponent, h.not_mem.2.2]

/-- Decimal digits. -/
def Digits (cs : List Char) : Prop := ∀ c ∈ cs, isDigit c = true

lemma takeWhile_digits (h : Digits cs) (hrest : ∀ c ∈ rest.head?, isDigit c = false) :
    (cs ++ rest).takeWhile isDigit = cs ∧ (cs ++ rest).dropWhile isDigit = rest := by
  rw [List.takeWhile_append_of_pos h, List.dropWhile_append_of_pos h]
  cases rest with
  | nil => exact ⟨List.append_nil cs, rfl⟩
  | cons c tail =>
    have hc : ¬isDigit c = true := by simp [hrest c rfl]
    rw [List.takeWhile_cons_of_neg hc, List.dropWhile_cons_of_neg hc]
    exact ⟨List.append_nil cs, rfl⟩

/-- The digits in front of a point: there are some, and the first one is zero for nothing but
zero. -/
structure Whole (cs : List Char) : Prop where
  digits : Digits cs
  leading : cs = ['0'] ∨ ∃ c ds, cs = c :: ds ∧ c ≠ '0'

lemma whole_digits (i : Int) : Whole (Number.digits i) := by
  refine ⟨fun c hc => Number.isDigit_of_mem hc, ?_⟩
  rcases Nat.eq_zero_or_pos i.natAbs with hzero | hpos
  · rw [Number.digits, hzero]
    exact .inl rfl
  · exact .inr (Number.toDigits_head hpos)

lemma Whole.head (h : Whole cs) : ∃ c ds, cs = c :: ds ∧ c.isDigit = true := by
  obtain ⟨c, ds, hcs⟩ : ∃ c ds, cs = c :: ds := by
    rcases h.leading with hzero | ⟨c, ds, hcs, -⟩
    · exact ⟨'0', [], hzero⟩
    · exact ⟨c, ds, hcs⟩
  exact ⟨c, ds, hcs, h.digits c (hcs ▸ List.mem_cons_self)⟩

lemma Whole.takeWhole (h : Whole cs) (hrest : ∀ c ∈ rest.head?, isDigit c = false) :
    Json.takeWhole (cs ++ rest) = (cs, rest) := by
  rcases h.leading with rfl | ⟨c, ds, hcs, hc⟩
  · rfl
  · obtain ⟨htake, hdrop⟩ := takeWhile_digits h.digits hrest
    rw [hcs, List.cons_append] at htake hdrop ⊢
    rw [Json.takeWhole, htake, hdrop]
    exact fun _ heq => hc (List.cons.inj heq).1

/-- A whole number is read back, wherever it ends. -/
lemma readNumber_spelled (h : Follows rest) (hi : Number.isShort i = true) :
    readNumber (Number.spelled i ++ rest) = .ok (.int i, rest) := by
  have hlength : ¬Number.maxDigits < (Number.digits i).length :=
    Nat.not_lt.mpr (of_decide_eq_true hi)
  have hne : (Number.digits i).isEmpty = false := by simpa using Number.digits_ne_nil i
  have hsigned := Number.signed_natAbs i
  unfold readNumber
  by_cases hneg : i < 0
  · rw [Number.spelled, if_pos hneg, List.cons_append]
    rw [decide_eq_true hneg] at hsigned
    simp only [(whole_digits i).takeWhole h.head, hne, h.takeFraction, h.takeExponent,
      if_neg hlength, Number.ofDigits_digits]
    simpa using hsigned
  · rw [Number.spelled, if_neg hneg]
    rw [decide_eq_false hneg] at hsigned
    obtain ⟨c, cs, hcs⟩ := List.exists_cons_of_ne_nil (Number.digits_ne_nil i)
    have hc : c.isDigit = true := Number.isDigit_of_mem (hcs ▸ List.mem_cons_self)
    -- No sign is taken off the digits.
    split
    next negative body hsign =>
    rw [hcs, List.cons_append] at hsign
    split at hsign
    · next heq => exact absurd ((List.cons.inj heq).1 ▸ hc) (by decide)
    · cases hsign
      rw [← List.cons_append, ← hcs]
      simp only [(whole_digits i).takeWhole h.head, hne, h.takeFraction, h.takeExponent,
        if_neg hlength, Number.ofDigits_digits]
      simpa using hsigned

/-- A text that begins with a digit, or with a sign and a digit, spells what is read as a number. -/
lemma spells_number {c : Char} (hc : c.isDigit = true)
    (hcs : (∃ ds, cs = c :: ds) ∨ ∃ ds, cs = '-' :: c :: ds)
    (h : ∀ rest, Follows rest → readNumber (cs ++ rest) = .ok (v, rest)) : Spells cs v := by
  have hbounds := Number.toNat_of_isDigit hc
  have hne (d : Char) (hd : d.isDigit = false) : (c == d) = false ∧ c ≠ d := by
    rw [beq_eq_false_iff_ne, and_self]
    rintro rfl
    rw [hc] at hd
    cases hd
  -- No constant begins with a digit, and no constant with a sign goes on with one.
  have hconstant (rest : List Char) : constant? (cs ++ rest) = none := by
    rcases hcs with ⟨ds, rfl⟩ | ⟨ds, rfl⟩ <;> simp [constant?, constants, Text.startsWith, hne]
  obtain ⟨d, tail, rfl, hopens, hmark⟩ : ∃ d tail, cs = d :: tail ∧ opens d = true ∧
      (d ≠ '"' ∧ d ≠ '[' ∧ d ≠ '\x7b') := by
    rcases hcs with ⟨ds, rfl⟩ | ⟨ds, rfl⟩
    · have hmark : c.toNat ≠ 0xFEFF := by omega
      exact ⟨c, ds, rfl, by simp [opens, isSpace, hne, hmark], by simp [hne]⟩
    · exact ⟨'-', c :: ds, rfl, by decide, by decide⟩
  refine .of_cons hopens fun rest hrest fuel _ => ?_
  have hnumber := h rest hrest
  have hnone := hconstant rest
  rw [List.cons_append] at hnumber hnone
  rw [readValue_scalar hmark, hnone, hnumber]

lemma spells_int (hi : Number.isShort i = true) : Spells (Number.spelled i) (.int i) := by
  obtain ⟨c, ds, hds, hc⟩ := (whole_digits i).head
  refine spells_number hc ?_ fun rest hrest => readNumber_spelled hrest hi
  rw [Number.spelled, hds]
  split
  · exact .inr ⟨ds, rfl⟩
  · exact .inl ⟨ds, rfl⟩

/-! ### Lists -/

/-- Members that are written one behind the other, with blanks behind the commas. -/
def joined (margin : List Char) (css : List (List Char)) : List Char :=
  (',' :: margin).intercalate css

lemma joined_singleton (margin cs : List Char) : joined margin [cs] = cs :=
  List.intercalate_singleton

lemma joined_cons (margin cs ds : List Char) (css : List (List Char)) :
    joined margin (cs :: ds :: css) = cs ++ ',' :: (margin ++ joined margin (ds :: css)) := by
  rw [joined, List.intercalate_cons_cons, List.append_assoc]
  rfl

lemma follows_cons {c : Char} (hc : c = ',' ∨ c = ']' ∨ c = '\x7d') (rest : List Char) :
    Follows (c :: rest) := by
  intro d hd
  cases hd
  exact .inl hc

lemma Blank.follows (h : Blank cs) (hrest : Follows rest) : Follows (cs ++ rest) := by
  cases cs with
  | nil => exact hrest
  | cons c tail =>
    intro d hd
    cases hd
    exact .inr (h c List.mem_cons_self)

/-- A mark is no blank. -/
lemma skipSpace_mark {c : Char} (hc : c = ',' ∨ c = ']' ∨ c = '\x7d' ∨ c = '"')
    (rest : List Char) : skipSpace (c :: rest) = c :: rest := by
  rcases hc with rfl | rfl | rfl | rfl <;> rfl

lemma Starts.joined (h : Starts cs) (margin : List Char) (css : List (List Char)) :
    Starts (joined margin (cs :: css)) := by
  cases css with
  | nil => rwa [joined_singleton]
  | cons ds css =>
    rw [joined_cons]
    exact h.append _

section Margins

variable {inner margin outer : List Char} (hinner : Blank inner) (hmargin : Blank margin)
  (houter : Blank outer)

include hmargin houter in
lemma readItems_joined {css : List (List Char)} {xs : List Value}
    (h : List.Forall₂ Spells css xs) (hne : css ≠ []) (rest : List Char) {fuel : Nat}
    (hfuel : (joined margin css).length < fuel) :
    readItems fuel (joined margin css ++ (outer ++ ']' :: rest)) = .ok (xs, rest) := by
  induction h generalizing fuel with
  | nil => exact absurd rfl hne
  | @cons cs x css xs hx htail ih =>
    obtain ⟨fuel, rfl⟩ : ∃ n, fuel = n + 1 := ⟨fuel - 1, by omega⟩
    cases htail with
    | nil =>
      rw [joined_singleton] at hfuel ⊢
      have hread := hx.reads (outer ++ ']' :: rest) (houter.follows (follows_cons (by simp) _)) fuel
        (by omega)
      rw [readItems, hread]
      simp only [bind, Except.bind, houter.skipSpace, skipSpace_mark (c := ']') (.inr (.inl rfl))]
      rfl
    | @cons ds y css xs hy htail =>
      rw [joined_cons] at hfuel ⊢
      simp only [List.length_append, List.length_cons] at hfuel
      have hread := hx.reads
        (',' :: (margin ++ joined margin (ds :: css) ++ (outer ++ ']' :: rest)))
        (follows_cons (by simp) _) fuel (by omega)
      rw [List.append_assoc, List.cons_append, readItems, hread]
      simp only [bind, Except.bind, skipSpace_mark (c := ',') (.inl rfl), List.append_assoc,
        hmargin.skipSpace, ((hy.starts.joined margin css).append _).skipSpace]
      rw [ih (by simp) (by omega)]
      rfl

include hinner hmargin houter in
lemma spells_list {css : List (List Char)} {xs : List Value} (h : List.Forall₂ Spells css xs) :
    Spells ('[' :: (inner ++ (joined margin css ++ (outer ++ [']'])))) (.list xs) := by
  refine .of_cons (by decide) fun rest _ fuel hfuel => ?_
  simp only [List.append_assoc, List.singleton_append]
  cases h with
  | nil =>
    have hskip : skipSpace (inner ++ (joined margin [] ++ (outer ++ ']' :: rest))) =
        ']' :: rest := by
      rw [hinner.skipSpace]
      exact houter.skipSpace _
    rw [readValue, hskip]
    rfl
  | @cons cs x css xs hx htail =>
    simp only [List.length_append, List.length_singleton] at hfuel
    have hfit : (joined margin (cs :: css)).length < fuel := by omega
    have hitems := readItems_joined hmargin houter (.cons hx htail) (by simp) rest hfit
    have hstarts := (hx.starts.joined margin css).append (outer ++ ']' :: rest)
    have hskip := (hinner.skipSpace _).trans hstarts.skipSpace
    obtain ⟨c, tail, hc, hopens⟩ := hstarts
    rw [hc] at hitems hskip ⊢
    rw [readValue, hskip]
    split
    · next heq =>
      rw [(List.cons.inj heq).1] at hopens
      exact absurd hopens (by decide)
    · rw [hitems]
      rfl

/-! ### Mappings -/

/-- A text spells a member of a mapping: a key in quotation marks, a colon, and a value, perhaps
behind a blank. -/
def SpellsMember (cs : List Char) (e : String × Value) : Prop :=
  ∃ gap ds, Blank gap ∧ cs = (ofText e.1).toList ++ ':' :: (gap ++ ds) ∧ Spells ds e.2

lemma SpellsMember.eq_cons {e : String × Value} (h : SpellsMember cs e) :
    ∃ gap ds, Blank gap ∧ cs = '"' :: (e.1.toList.flatMap escape ++ '"' :: ':' :: (gap ++ ds)) ∧
      Spells ds e.2 := by
  obtain ⟨gap, ds, hgap, rfl, hds⟩ := h
  refine ⟨gap, ds, hgap, ?_, hds⟩
  rw [toList_ofText]
  simp

lemma SpellsMember.starts {e : String × Value} (h : SpellsMember cs e) : Starts cs := by
  obtain ⟨gap, ds, -, rfl, -⟩ := h.eq_cons
  exact ⟨'"', _, rfl, by decide⟩

include hmargin houter in
lemma readMembers_joined {css : List (List Char)} {d : Dict Value}
    (h : List.Forall₂ SpellsMember css d) (hne : css ≠ []) (rest : List Char) {fuel : Nat}
    (hfuel : (joined margin css).length < fuel) :
    readMembers fuel (joined margin css ++ (outer ++ '\x7d' :: rest)) =
      .ok (Arguments.members d, rest) := by
  have hcolon (tail : List Char) : skipSpace (':' :: tail) = ':' :: tail := rfl
  induction h generalizing fuel with
  | nil => exact absurd rfl hne
  | @cons cs e css d he htail ih =>
    obtain ⟨fuel, rfl⟩ : ∃ n, fuel = n + 1 := ⟨fuel - 1, by omega⟩
    obtain ⟨gap, ds, hgap, rfl, hds⟩ := he.eq_cons
    have hvalue (tail : List Char) : skipSpace (gap ++ (ds ++ tail)) = ds ++ tail :=
      (hgap.skipSpace _).trans (hds.starts.append tail).skipSpace
    cases htail with
    | nil =>
      rw [joined_singleton] at hfuel ⊢
      simp only [List.length_append, List.length_cons] at hfuel
      have hread := hds.reads (outer ++ '\x7d' :: rest)
        (houter.follows (follows_cons (by simp) _)) fuel (by omega)
      simp only [List.cons_append, List.append_assoc]
      rw [readMembers, readText_ofText]
      simp only [bind, Except.bind, hcolon, hvalue, hread, houter.skipSpace,
        skipSpace_mark (c := '\x7d') (.inr (.inr (.inl rfl)))]
      rfl
    | @cons es y css xs hy htail =>
      rw [joined_cons] at hfuel ⊢
      simp only [List.length_append, List.length_cons] at hfuel
      have hread := hds.reads
        (',' :: (margin ++ (joined margin (es :: css) ++ (outer ++ '\x7d' :: rest))))
        (follows_cons (by simp) _) fuel (by omega)
      have hnext := ((hy.starts.joined margin css).append (outer ++ '\x7d' :: rest)).skipSpace
      simp only [List.cons_append, List.append_assoc]
      rw [readMembers, readText_ofText]
      simp only [bind, Except.bind, hcolon, hvalue, hread, skipSpace_mark (c := ',') (.inl rfl),
        hmargin.skipSpace, hnext]
      rw [ih (by simp) (by omega)]
      rfl

include hinner hmargin houter in
lemma spells_mapping {css : List (List Char)} {d : Dict Value}
    (h : List.Forall₂ SpellsMember css d) :
    Spells ('\x7b' :: (inner ++ (joined margin css ++ (outer ++ ['\x7d']))))
      (Value.mappingOf (Arguments.members d)) := by
  refine .of_cons (by decide) fun rest _ fuel hfuel => ?_
  simp only [List.append_assoc, List.singleton_append]
  cases h with
  | nil =>
    have hskip : skipSpace (inner ++ (joined margin [] ++ (outer ++ '\x7d' :: rest))) =
        '\x7d' :: rest := by
      rw [hinner.skipSpace]
      exact houter.skipSpace _
    rw [readValue, hskip]
    rfl
  | @cons cs e css d he htail =>
    simp only [List.length_append, List.length_singleton] at hfuel
    have hfit : (joined margin (cs :: css)).length < fuel := by omega
    have hmembers := readMembers_joined hmargin houter (.cons he htail) (by simp) rest hfit
    have hstarts := (he.starts.joined margin css).append (outer ++ '\x7d' :: rest)
    have hskip := (hinner.skipSpace _).trans hstarts.skipSpace
    obtain ⟨c, tail, hc, hopens⟩ := hstarts
    rw [hc] at hmembers hskip ⊢
    rw [readValue, hskip]
    split
    · next heq =>
      rw [(List.cons.inj heq).1] at hopens
      exact absurd hopens (by decide)
    · rw [hmembers]
      rfl

end Margins

end Json

end BlockSuite
