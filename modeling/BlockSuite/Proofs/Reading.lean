import BlockSuite.Proofs.Spelling

/-!
The JSON reader part by part. A text is read character by character, a number as a sign, a whole
part, a fraction and an exponent, a list and a mapping from mark to mark. What is read is taken off
the front. A value has as many lists one in the other as the text that it is read from begins with
opening brackets.
-/

namespace BlockSuite

/-- How many lists a value begins with, each the first item of the one before. -/
def Value.nest : Value → Nat
  | .list [] => 1
  | .list (x :: _) => x.nest + 1
  | _ => 0

namespace Json

variable {α : Type} {cs rest : List Char} {c d : Char} {n : Nat} {v : Value}

/-! ### Texts -/

/-- The character of a code unit that is the first half of a pair, if the second half follows. -/
def paired (n : Nat) (cs : List Char) : Except ReadError (Option Char × List Char) :=
  match lowHalf? cs with
  | .error e => .error e
  | .ok (some (m, rest)) =>
    .ok (some (Char.ofNat (0x10000 + (n - 0xD800) * 0x400 + (m - 0xDC00))), rest)
  | .ok none => .ok (some (unitChar n), cs)

/-- What comes next inside a text: a character, or nothing behind the closing quote. -/
def nextChar : List Char → Except ReadError (Option Char × List Char)
  | [] => .error .unterminated
  | '"' :: rest => .ok (none, rest)
  | ['\\'] => .error .unterminated
  | '\\' :: 'u' :: rest =>
    if rest.length < 5 then .error .invalidUnicodeEscape
    else
      match hex4? rest with
      | none => .error .invalidUnicodeEscape
      | some (n, rest) =>
        if 0xD800 ≤ n && n < 0xDC00 then paired n rest else .ok (some (unitChar n), rest)
  | '\\' :: c :: rest =>
    match simpleEscape? c with
    | some d => .ok (some d, rest)
    | none => .error .invalidEscape
  | c :: rest => if c.toNat < 0x20 then .error .controlCharacter else .ok (some c, rest)

/-- A text is read character by character. -/
lemma readText_succ (fuel : Nat) (acc cs : List Char) : readText (fuel + 1) acc cs =
    match nextChar cs with
    | .error e => .error e
    | .ok (none, rest) => .ok (String.ofList acc.reverse, rest)
    | .ok (some c, rest) => readText fuel (c :: acc) rest := by
  have hfive {more : List Char} (h : ¬more.length < 5) :
      ∃ a b c d e rest, more = a :: b :: c :: d :: e :: rest := by
    match more with
    | [] | [_] | [_, _] | [_, _, _] | [_, _, _, _] => simp at h
    | a :: b :: c :: d :: e :: rest => exact ⟨a, b, c, d, e, rest, rfl⟩
  fun_cases nextChar cs with
  | case1 | case2 | case3 => rw [readText]
  | case4 rest h =>
    rw [readText]
    rintro a b c d e rest rfl
    simp only [List.length_cons] at h
    omega
  | case5 rest h hhex | case7 rest h n more hhex hhigh =>
    obtain ⟨a, b, c, d, e, rest, rfl⟩ := hfive h
    rw [readText]
    simp only [*]
    try rfl
  | case6 rest h n more hhex hhigh =>
    obtain ⟨a, b, c, d, e, rest, rfl⟩ := hfive h
    rw [readText, hhex, paired]
    dsimp only
    rw [if_pos hhigh]
    cases lowHalf? more with
    | error e => rfl
    | ok o => cases o <;> rfl
  | case8 c rest hu d hd | case9 c rest hu hd =>
    rw [readText, hd]
    exact hu
  | case10 c rest hquote hend hu hslash hcontrol =>
    rw [readText, if_pos hcontrol] <;> assumption
  | case11 c rest hquote hend hu hslash hcontrol =>
    rw [readText, if_neg hcontrol] <;> assumption

lemma hex4?_some (h : hex4? cs = some (n, rest)) : ∃ a b c d, cs = [a, b, c, d] ++ rest ∧
    ∀ x ∈ [a, b, c, d], (Text.hexValue? x).isSome = true := by
  unfold hex4? at h
  split at h
  · next a b c d more =>
    simp only [bind, Option.bind_eq_some_iff, pure, Option.some.injEq, Prod.mk.injEq] at h
    obtain ⟨p, hp, q, hq, r, hr, s, hs, -, rfl⟩ := h
    exact ⟨a, b, c, d, rfl, by simp [hp, hq, hr, hs]⟩
  · cases h

lemma lowHalf?_some (h : lowHalf? cs = .ok (some (n, rest))) :
    ∃ more, cs = '\\' :: 'u' :: more ∧ hex4? more = some (n, rest) := by
  unfold lowHalf? at h
  split at h
  · next more =>
    split at h
    · cases h
    · split at h
      · cases h
      · next k r hhex =>
        split at h
        · cases h
          exact ⟨more, rfl, hhex⟩
        · cases h
  · cases h

lemma paired_used {o : Option Char} (h : paired n cs = .ok (o, rest)) : ∃ used,
    cs = used ++ rest ∧ ',' ∉ used ∧ o ≠ none := by
  unfold paired at h
  split at h
  · cases h
  · next m more hlow =>
    cases h
    obtain ⟨low, rfl, hhex⟩ := lowHalf?_some hlow
    obtain ⟨a, b, c, d, rfl, hdigits⟩ := hex4?_some hhex
    refine ⟨['\\', 'u', a, b, c, d], rfl, fun hmem => ?_, nofun⟩
    have hmem : ',' ∈ [a, b, c, d] := by simpa using hmem
    exact absurd (hdigits _ hmem) (by decide)
  · cases h
    exact ⟨[], rfl, List.not_mem_nil, nofun⟩

/-- What comes next is taken off the front: no comma for anything but a comma, and a quotation mark
alone for the end. -/
lemma nextChar_used {o : Option Char} (h : nextChar cs = .ok (o, rest)) : ∃ used,
    cs = used ++ rest ∧ used ≠ [] ∧ (',' ∈ used → o = some ',') ∧ (o = none → used = ['"']) := by
  have hcomma {a b c d : Char} (hdigits : ∀ x ∈ [a, b, c, d], (Text.hexValue? x).isSome = true) :
      ',' ∉ ['\\', 'u', a, b, c, d] := by
    intro hmem
    have hmem : ',' ∈ [a, b, c, d] := by simpa using hmem
    exact absurd (hdigits _ hmem) (by decide)
  revert h
  fun_cases nextChar cs with
  | case1 | case3 | case4 | case5 | case9 | case10 => nofun
  | case2 more =>
    rintro ⟨⟩
    exact ⟨['"'], rfl, by simp⟩
  | case6 more _ n more' hhex _ =>
    intro h
    obtain ⟨a, b, c, d, rfl, hdigits⟩ := hex4?_some hhex
    obtain ⟨used, rfl, hused, hsome⟩ := paired_used h
    refine ⟨['\\', 'u', a, b, c, d] ++ used, by simp, by simp, fun hmem => ?_,
      fun hnone => absurd hnone hsome⟩
    exact absurd hmem (List.not_mem_append (hcomma hdigits) hused)
  | case7 more _ n more' hhex _ =>
    rintro ⟨⟩
    obtain ⟨a, b, c, d, rfl, hdigits⟩ := hex4?_some hhex
    exact ⟨['\\', 'u', a, b, c, d], rfl, by simp, fun hmem => absurd hmem (hcomma hdigits), nofun⟩
  | case8 c more _ d hd =>
    rintro ⟨⟩
    refine ⟨['\\', c], rfl, by simp, fun hmem => ?_, nofun⟩
    obtain rfl : ',' = c := by simpa using hmem
    cases hd
  | case11 c more =>
    rintro ⟨⟩
    exact ⟨[c], rfl, by simp, fun hmem => by rw [List.mem_singleton.mp hmem], nofun⟩

/-- A text without a closing quotation mark is refused. -/
lemma readText_unquoted (h : '"' ∉ cs) (fuel : Nat) (acc : List Char) :
    ∃ e, readText fuel acc cs = .error e := by
  induction fuel generalizing acc cs with
  | zero => exact ⟨_, rfl⟩
  | succ fuel ih =>
    rw [readText_succ]
    rcases hnext : nextChar cs with e | ⟨_ | c, rest⟩
    · exact ⟨e, rfl⟩
    · obtain ⟨used, rfl, -, -, hend⟩ := nextChar_used hnext
      rw [hend rfl] at h
      simp at h
    · obtain ⟨used, rfl, -⟩ := nextChar_used hnext
      exact ih (fun hmem => h (List.mem_append_right _ hmem)) _

/-- What a text is read from has no fewer characters, and no comma that is not read. -/
lemma readText_used {fuel : Nat} {acc : List Char} {s : String}
    (h : readText fuel acc cs = .ok (s, rest)) : ∃ used new, cs = used ++ '"' :: rest ∧
      s = String.ofList (acc.reverse ++ new) ∧ new.length ≤ used.length ∧
        (',' ∈ used → ',' ∈ new) := by
  induction fuel generalizing acc cs with
  | zero => cases h
  | succ fuel ih =>
    rw [readText_succ] at h
    rcases hnext : nextChar cs with e | ⟨o, behind⟩
    · rw [hnext] at h
      cases h
    · rw [hnext] at h
      obtain ⟨front, rfl, hne, hcomma, hend⟩ := nextChar_used hnext
      have hpos := List.length_pos_iff.mpr hne
      cases o with
      | none =>
        cases h
        rw [hend rfl]
        exact ⟨[], [], rfl, by rw [List.append_nil], Nat.le_refl _, id⟩
      | some c =>
        obtain ⟨used, new, rfl, rfl, hlength, hmem⟩ := ih h
        refine ⟨front ++ used, c :: new, by rw [List.append_assoc], ?_, ?_, fun h => ?_⟩
        · rw [List.reverse_cons, List.append_assoc, List.singleton_append]
        · rw [List.length_append, List.length_cons]
          omega
        · rcases List.mem_append.mp h with h | h
          · rw [Option.some.inj (hcomma h)]
            exact List.mem_cons_self
          · exact List.mem_cons_of_mem _ (hmem h)

/-! ### Constants and numbers -/

lemma length_le_of_startsWith {name : List Char} (h : Text.startsWith cs name = true) :
    name.length ≤ cs.length := by
  induction name generalizing cs with
  | nil => exact Nat.zero_le _
  | cons d ds ih =>
    cases cs with
    | nil => cases h
    | cons c cs =>
      rw [Text.startsWith, Bool.and_eq_true] at h
      exact Nat.succ_le_succ (ih h.2)

lemma constant?_shorter {v : Value} (h : constant? cs = some (v, rest)) :
    rest.length < cs.length := by
  have hnames : ∀ k ∈ constants, 0 < k.1.length := by decide +kernel
  obtain ⟨k, hk, hrest⟩ := Option.map_eq_some_iff.mp h
  cases hrest
  have hlength : k.1.toList.length ≤ cs.length := length_le_of_startsWith
    (List.find?_some (p := fun k : String × Value => Text.startsWith cs k.1.toList) hk)
  have hpos := hnames k (List.mem_of_find?_eq_some hk)
  rw [String.length_toList] at hlength
  rw [List.length_drop]
  omega

lemma takeWhole_rest (cs : List Char) : (takeWhole cs).1 ++ (takeWhole cs).2 = cs := by
  fun_cases takeWhole cs with
  | case1 rest => rfl
  | case2 cs hzero => exact List.takeWhile_append_dropWhile

lemma takeFraction_rest (cs : List Char) : (takeFraction cs).1 ++ (takeFraction cs).2 = cs := by
  fun_cases takeFraction cs with
  | case1 rest ds h => rfl
  | case2 rest ds h => exact congrArg ('.' :: ·) List.takeWhile_append_dropWhile
  | case3 cs hpoint => rfl

/-- The sign of an exponent, and what is behind it. -/
def takeSign : List Char → List Char × List Char
  | '+' :: rest => (['+'], rest)
  | '-' :: rest => (['-'], rest)
  | cs => ([], cs)

lemma takeSign_rest (cs : List Char) : (takeSign cs).1 ++ (takeSign cs).2 = cs := by
  fun_cases takeSign cs <;> rfl

lemma takeExponent_cons (c : Char) (cs : List Char) : takeExponent (c :: cs) =
    if c == 'e' || c == 'E' then
      if ((takeSign cs).2.takeWhile isDigit).isEmpty then ([], c :: cs)
      else (c :: ((takeSign cs).1 ++ (takeSign cs).2.takeWhile isDigit),
        (takeSign cs).2.dropWhile isDigit)
    else ([], c :: cs) := by
  fun_cases takeSign cs with
  | case1 | case2 => rfl
  | case3 cs hplus hminus =>
    rw [takeExponent]
    · exact hplus
    · exact hminus

lemma takeExponent_rest (cs : List Char) : (takeExponent cs).1 ++ (takeExponent cs).2 = cs := by
  cases cs with
  | nil => rfl
  | cons c cs =>
    rw [takeExponent_cons]
    split
    · split
      · rfl
      · dsimp only
        rw [List.cons_append, List.append_assoc, List.takeWhile_append_dropWhile, takeSign_rest]
    · rfl

/-- A number without its sign: whether one stands in front, and what is behind it. -/
def takeMinus : List Char → Bool × List Char
  | '-' :: rest => (true, rest)
  | cs => (false, cs)

lemma takeMinus_length (cs : List Char) : (takeMinus cs).2.length ≤ cs.length := by
  fun_cases takeMinus cs <;> simp

/-- The number of a sign, a whole part, a fraction and an exponent. -/
def numberOf (negative : Bool) (whole fraction exponent : List Char) : Except ReadError Value :=
  if whole.isEmpty then .error .expectingValue
  else if fraction.isEmpty && exponent.isEmpty then
    if Number.maxDigits < whole.length then .error (.tooManyDigits whole.length)
    else
      let n : Int := Number.ofDigits (whole.map (·.toNat - 48))
      .ok (.int (if negative then -n else n))
  else
    match Number.readDecimal? negative (whole ++ fraction ++ exponent) with
    | some d => .ok (.float d)
    | none => .error .expectingValue

/-- A number is read part by part. -/
lemma readNumber_eq (cs : List Char) : readNumber cs =
    (numberOf (takeMinus cs).1 (takeWhole (takeMinus cs).2).1
      (takeFraction (takeWhole (takeMinus cs).2).2).1
      (takeExponent (takeFraction (takeWhole (takeMinus cs).2).2).2).1).map
        fun v => (v, (takeExponent (takeFraction (takeWhole (takeMinus cs).2).2).2).2) := by
  have hnumber (negative : Bool) (whole fraction exponent rest : List Char) :
      (if whole.isEmpty then .error .expectingValue
      else if fraction.isEmpty && exponent.isEmpty then
        if Number.maxDigits < whole.length then .error (.tooManyDigits whole.length)
        else
          let n : Int := Number.ofDigits (whole.map (·.toNat - 48))
          .ok (.int (if negative then -n else n), rest)
      else
        match Number.readDecimal? negative (whole ++ fraction ++ exponent) with
        | some d => .ok (.float d, rest)
        | none => .error .expectingValue : Except ReadError (Value × List Char)) =
        (numberOf negative whole fraction exponent).map fun v => (v, rest) := by
    unfold numberOf
    split
    · rfl
    · split
      · split <;> rfl
      · split <;> rfl
  fun_cases takeMinus cs with
  | case1 => exact hnumber ..
  | case2 cs hminus =>
    rw [readNumber]
    · exact hnumber ..
    · exact hminus

/-! ### Values -/

/-- What is done behind a mark, if it comes next, and what is done else. -/
def atMark (d : Char) (behind : List Char → α) (other : α) (cs : List Char) : α :=
  if (skipSpace cs).head? = some d then behind (skipSpace cs).tail else other

lemma atMark_of_eq {f : List Char → α} {x : α} (h : skipSpace cs = d :: rest) :
    atMark d f x cs = f rest := by
  rw [atMark, h]
  exact if_pos rfl

lemma atMark_of_ne {f : List Char → α} {x : α} (h : ∀ rest, skipSpace cs = d :: rest → False) :
    atMark d f x cs = x := by
  refine if_neg fun hd => ?_
  obtain ⟨rest, hrest⟩ := List.head?_eq_some_iff.mp hd
  exact h rest hrest

/-- What comes of a mark comes of what is behind it, or there is none. -/
lemma eq_of_atMark {f : List Char → α} {x y : α} (h : atMark d f x cs = y) :
    (∃ rest, skipSpace cs = d :: rest ∧ f rest = y) ∨ x = y := by
  by_cases hmark : ∃ rest, skipSpace cs = d :: rest
  · obtain ⟨rest, hrest⟩ := hmark
    rw [atMark_of_eq hrest] at h
    exact .inl ⟨rest, hrest, h⟩
  · rw [atMark_of_ne fun rest hrest => hmark ⟨rest, hrest⟩] at h
    exact .inr h

lemma readValue_text (fuel : Nat) (rest : List Char) : readValue (fuel + 1) ('"' :: rest) = (do
    let (s, rest) ← readText (rest.length + 1) [] rest
    return (.text s, rest)) := by
  rw [readValue]

lemma readValue_list (fuel : Nat) (rest : List Char) : readValue (fuel + 1) ('[' :: rest) =
    atMark ']' (fun rest => .ok (.list [], rest)) (do
      let (xs, rest) ← readItems fuel (skipSpace rest)
      return (.list xs, rest)) rest := by
  rw [readValue]
  split
  · next h => rw [atMark_of_eq h]
  · next h => rw [atMark_of_ne h]

lemma readValue_mapping (fuel : Nat) (rest : List Char) :
    readValue (fuel + 1) ('\x7b' :: rest) =
      atMark '\x7d' (fun rest => .ok (.dict [], rest)) (do
        let (es, rest) ← readMembers fuel (skipSpace rest)
        return (Value.mappingOf es, rest)) rest := by
  rw [readValue]
  split
  · next h => rw [atMark_of_eq h]
  · next h => rw [atMark_of_ne h]

/-- A text that begins neither a text nor a list nor a mapping is that of a constant or a number. -/
lemma readValue_plain (h : ∀ c ∈ cs.head?, c ≠ '"' ∧ c ≠ '[' ∧ c ≠ '\x7b') (fuel : Nat) :
    readValue (fuel + 1) cs =
      match constant? cs with
      | some r => .ok r
      | none => readNumber cs := by
  cases cs with
  | nil => rfl
  | cons c cs => exact readValue_scalar (h c rfl) cs fuel

lemma readItems_succ (fuel : Nat) (cs : List Char) : readItems (fuel + 1) cs = (do
    let (x, rest) ← readValue fuel cs
    atMark ']' (fun rest => .ok ([x], rest)) (atMark ',' (fun rest => do
      let (xs, rest) ← readItems fuel (skipSpace rest)
      return (x :: xs, rest)) (.error .expectingComma) rest) rest) := by
  rw [readItems]
  congr 1
  funext r
  obtain ⟨x, rest⟩ := r
  dsimp only
  split
  · next h => rw [atMark_of_eq h]; rfl
  · next h => rw [atMark_of_ne (by simp [h]), atMark_of_eq h]
  · next h h' => rw [atMark_of_ne h, atMark_of_ne h']

lemma readMembers_text (fuel : Nat) (rest : List Char) :
    readMembers (fuel + 1) ('"' :: rest) = (do
      let (key, rest) ← readText (rest.length + 1) [] rest
      atMark ':' (fun rest => do
        let (v, rest) ← readValue fuel (skipSpace rest)
        atMark '\x7d' (fun rest => .ok ([(.text key, v)], rest)) (atMark ',' (fun rest => do
          let (es, rest) ← readMembers fuel (skipSpace rest)
          return ((.text key, v) :: es, rest)) (.error .expectingComma) rest) rest)
        (.error .expectingColon) rest) := by
  rw [readMembers]
  congr 1
  funext r
  obtain ⟨key, rest⟩ := r
  dsimp only
  split
  · next h =>
    rw [atMark_of_eq h]
    congr 1
    funext r
    obtain ⟨v, rest⟩ := r
    dsimp only
    split
    · next h => rw [atMark_of_eq h]; rfl
    · next h => rw [atMark_of_ne (by simp [h]), atMark_of_eq h]
    · next h h' => rw [atMark_of_ne h, atMark_of_ne h']
  · next h => rw [atMark_of_ne h]

lemma readMembers_other (h : ∀ rest, cs = '"' :: rest → False) (fuel : Nat) :
    readMembers (fuel + 1) cs = .error .expectingName := by
  rw [readMembers]
  exact h

/-- A value begins with a quotation mark, a bracket, a brace, a letter of a constant, a sign or a
digit. -/
lemma readValue_refused (h : c ∉ ['"', '[', '\x7b', 'n', 't', 'f', 'N', 'I', '-'])
    (hdigit : isDigit c = false) (fuel : Nat) (cs : List Char) :
    ∃ e, readValue fuel (c :: cs) = .error e := by
  simp only [List.mem_cons, List.not_mem_nil, or_false, not_or] at h
  obtain ⟨hquote, hbracket, hbrace, hletters⟩ := h
  cases fuel with
  | zero => exact ⟨_, rfl⟩
  | succ fuel =>
    have hconstant : constant? (c :: cs) = none := by
      simp [constant?, constants, Text.startsWith, hletters]
    have hminus : takeMinus (c :: cs) = (false, c :: cs) := by
      rw [takeMinus]
      exact fun _ heq => hletters.2.2.2.2.2 (List.cons.inj heq).1
    have hwhole : (takeWhole (c :: cs)).1 = [] := by
      rw [takeWhole, List.takeWhile_cons_of_neg (by simp [hdigit])]
      rintro _ heq
      rw [(List.cons.inj heq).1] at hdigit
      cases hdigit
    rw [readValue_scalar ⟨hquote, hbracket, hbrace⟩, hconstant, readNumber_eq, hminus, hwhole]
    exact ⟨_, rfl⟩

/-! ### Lists that begin with lists -/

/-- How many brackets a text opens before anything else, blanks aside. -/
def openings : List Char → Nat
  | [] => 0
  | c :: cs => if isSpace c then openings cs else if c = '[' then openings cs + 1 else 0

lemma openings_skipSpace (cs : List Char) : openings (skipSpace cs) = openings cs := by
  induction cs with
  | nil => rfl
  | cons c cs ih =>
    by_cases hc : isSpace c = true
    · rw [openings, if_pos hc, ← ih, skipSpace, List.dropWhile_cons_of_pos hc]
      rfl
    · rw [skipSpace, List.dropWhile_cons_of_neg hc]

/-- What stands behind does not matter if it opens nothing itself. -/
lemma openings_append {tail : List Char} (h : openings tail = 0) (cs : List Char) :
    openings (cs ++ tail) = openings cs := by
  induction cs with
  | nil => exact h
  | cons c cs ih => rw [List.cons_append, openings, openings, ih]

lemma readValue_space (h : isSpace c = true) (fuel : Nat) (cs : List Char) :
    ∃ e, readValue fuel (c :: cs) = .error e := by
  simp only [isSpace, Bool.or_eq_true, beq_iff_eq] at h
  rcases h with ((rfl | rfl) | rfl) | rfl <;> exact readValue_refused (by decide) rfl fuel cs

/-- A constant or a number: what is read where nothing opens. -/
def Bare (v : Value) : Prop :=
  v ∈ constants.map (·.2) ∨ ∃ negative whole fraction exponent,
    numberOf negative whole fraction exponent = .ok v

lemma Bare.cases (h : Bare v) :
    v = .null ∨ (∃ b, v = .bool b) ∨ (∃ i, v = .int i) ∨ ∃ d, v = .float d := by
  rcases h with h | ⟨negative, whole, fraction, exponent, h⟩
  · have hall : ∀ w ∈ constants.map (·.2),
        w = .null ∨ (∃ b, w = .bool b) ∨ (∃ i, w = .int i) ∨ ∃ d, w = .float d := by
      simp [constants]
    exact hall v h
  · unfold numberOf at h
    split at h
    · cases h
    · split at h
      · split at h <;> cases h
        exact .inr (.inr (.inl ⟨_, rfl⟩))
      · split at h <;> cases h
        exact .inr (.inr (.inr ⟨_, rfl⟩))

lemma Bare.nest (h : Bare v) : v.nest = 0 := by
  rcases h.cases with rfl | ⟨b, rfl⟩ | ⟨i, rfl⟩ | ⟨d, rfl⟩ <;> rfl

lemma Bare.ne_text (h : Bare v) (s : String) : v ≠ .text s := by
  rcases h.cases with rfl | ⟨b, rfl⟩ | ⟨i, rfl⟩ | ⟨d, rfl⟩ <;> nofun

/-- What a value is read from. -/
inductive ReadFrom (fuel : Nat) (cs rest : List Char) : Value → Prop
  | text {more : List Char} {s : String} (open_eq : cs = '"' :: more)
    (read : readText (more.length + 1) [] more = .ok (s, rest)) : ReadFrom fuel cs rest (.text s)
  | empty {more : List Char} (open_eq : cs = '[' :: more)
    (close_eq : skipSpace more = ']' :: rest) : ReadFrom fuel cs rest (.list [])
  | list {more : List Char} {xs : List Value} (open_eq : cs = '[' :: more)
    (read : readItems fuel (skipSpace more) = .ok (xs, rest)) : ReadFrom fuel cs rest (.list xs)
  | mapping {more : List Char} {es : List (Value × Value)} (open_eq : cs = '\x7b' :: more) :
    ReadFrom fuel cs rest (.dict es)
  | bare {v : Value} {c : Char} {more : List Char} (eq : cs = c :: more) (space : isSpace c = false)
    (marks : c ≠ '"' ∧ c ≠ '[' ∧ c ≠ '\x7b') (bare : Bare v) : ReadFrom fuel cs rest v

lemma readValue_ok {fuel : Nat} (h : readValue (fuel + 1) cs = .ok (v, rest)) :
    ReadFrom fuel cs rest v := by
  cases cs with
  | nil => cases h
  | cons c more =>
    by_cases hquote : c = '"'
    · subst hquote
      rw [readValue_text] at h
      obtain ⟨⟨s, left⟩, hread, h⟩ := except_bind_ok h
      cases h
      exact .text rfl hread
    by_cases hbracket : c = '['
    · subst hbracket
      rw [readValue_list] at h
      rcases eq_of_atMark h with ⟨left, hclose, ⟨⟩⟩ | h
      · exact .empty rfl hclose
      · obtain ⟨⟨xs, left⟩, hread, h⟩ := except_bind_ok h
        cases h
        exact .list rfl hread
    by_cases hbrace : c = '\x7b'
    · subst hbrace
      rw [readValue_mapping] at h
      rcases eq_of_atMark h with ⟨left, hclose, ⟨⟩⟩ | h
      · exact .mapping rfl
      · obtain ⟨⟨es, left⟩, hread, h⟩ := except_bind_ok h
        cases h
        exact .mapping rfl
    have hspace : isSpace c = false := by
      by_contra hc
      obtain ⟨e, he⟩ := readValue_space (Bool.of_not_eq_false hc) (fuel + 1) more
      rw [he] at h
      cases h
    refine .bare rfl hspace ⟨hquote, hbracket, hbrace⟩ ?_
    rw [readValue_scalar ⟨hquote, hbracket, hbrace⟩] at h
    cases hconstant : constant? (c :: more) with
    | some r =>
      rw [hconstant] at h
      cases h
      obtain ⟨k, hk, hv⟩ := Option.map_eq_some_iff.mp hconstant
      cases hv
      exact .inl (List.mem_map_of_mem (List.mem_of_find?_eq_some hk))
    | none =>
      rw [hconstant] at h
      dsimp only at h
      rw [readNumber_eq] at h
      cases hnumber : numberOf (takeMinus (c :: more)).1 (takeWhole (takeMinus (c :: more)).2).1
          (takeFraction (takeWhole (takeMinus (c :: more)).2).2).1
          (takeExponent (takeFraction (takeWhole (takeMinus (c :: more)).2).2).2).1 with
      | error e =>
        rw [hnumber] at h
        cases h
      | ok w =>
        rw [hnumber] at h
        cases h
        exact .inr ⟨_, _, _, _, hnumber⟩

/-- The first item of a list is read at its start. -/
lemma readItems_ok {fuel : Nat} {xs : List Value} (h : readItems (fuel + 1) cs = .ok (xs, rest)) :
    ∃ x left more, readValue fuel cs = .ok (x, left) ∧ xs = x :: more := by
  rw [readItems_succ] at h
  obtain ⟨⟨x, left⟩, hread, h⟩ := except_bind_ok h
  refine ⟨x, left, ?_⟩
  dsimp only at h
  rcases eq_of_atMark h with ⟨behind, -, ⟨⟩⟩ | h
  · exact ⟨[], hread, rfl⟩
  rcases eq_of_atMark h with ⟨behind, -, h⟩ | ⟨⟨⟩⟩
  obtain ⟨⟨ys, end'⟩, -, h⟩ := except_bind_ok h
  cases h
  exact ⟨ys, hread, rfl⟩

/-- **A value begins with as many lists as its text opens.** -/
theorem readValue_nest {fuel : Nat} (h : readValue fuel cs = .ok (v, rest)) :
    v.nest = openings cs := by
  induction fuel using Nat.strongRecOn generalizing cs v rest with
  | ind fuel ih =>
    cases fuel with
    | zero => cases h
    | succ fuel =>
      cases readValue_ok h with
      | text open_eq read =>
        subst open_eq
        rfl
      | mapping open_eq =>
        subst open_eq
        rfl
      | bare eq space marks bare =>
        subst eq
        rw [bare.nest, openings, space, if_neg marks.2.1]
        rfl
      | @empty more open_eq close_eq =>
        have hmore : openings more = 0 := by
          rw [← openings_skipSpace, close_eq]
          rfl
        rw [open_eq, openings, hmore]
        rfl
      | @list more xs open_eq read =>
        cases fuel with
        | zero => cases read
        | succ fuel =>
          obtain ⟨x, left, ys, hx, rfl⟩ := readItems_ok read
          have hnest := ih fuel (by omega) hx
          rw [openings_skipSpace] at hnest
          rw [open_eq, openings, ← hnest]
          rfl

end Json
end BlockSuite
