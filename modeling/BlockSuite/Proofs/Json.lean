import BlockSuite.Proofs.Action
import BlockSuite.Json.Reader
import BlockSuite.Json.Writer

/-!
Reading JSON text. What a character is escaped to is read as the character, and characters that stand
for themselves are read as they are, so a mapping with one member that is written with such characters
is read as that member.
-/

namespace BlockSuite.Json

variable {cs rest : List Char}

/-! ### Escapes -/

/-- A control character is spelled with four hexadecimal digits. -/
lemma hexText_control {n : Nat} (h : n < 0x20) : ∃ a b, (hexText 4 n).toList = ['0', '0', a, b] ∧
    Text.hexValue? a = some (n / 16) ∧ Text.hexValue? b = some (n % 16) := by
  have hall : ∀ n < 0x20, (hexText 4 n).toList =
        ['0', '0', Text.digitChar (n / 16), Text.digitChar (n % 16)] ∧
      Text.hexValue? (Text.digitChar (n / 16)) = some (n / 16) ∧
      Text.hexValue? (Text.digitChar (n % 16)) = some (n % 16) := by decide +kernel
  exact ⟨_, _, hall n h⟩

lemma hex4?_control {n : Nat} (h : n < 0x20) (rest : List Char) :
    hex4? ((hexText 4 n).toList ++ rest) = some (n, rest) := by
  obtain ⟨a, b, htext, ha, hb⟩ := hexText_control h
  have hzero : Text.hexValue? '0' = some 0 := by decide
  have hn : n / 16 * 16 + n % 16 = n := by omega
  simp [htext, hex4?, hzero, ha, hb, hn]

/-- What a character is escaped to is read as the character, where more text follows. -/
lemma readText_escape (c : Char) (acc : List Char) (hrest : rest ≠ []) (fuel : Nat) :
    readText (fuel + 1) acc (escape c ++ rest) = readText fuel (c :: acc) rest := by
  obtain ⟨d, rest, rfl⟩ := List.exists_cons_of_ne_nil hrest
  have hc (n : Nat) (h : c.toNat = n) : c = Char.ofNat n := by rw [← h, Char.ofNat_toNat]
  unfold escape
  split
  · simp [readText, simpleEscape?]
  · simp [readText, simpleEscape?]
  · simp [readText, simpleEscape?]
  · simp [readText, simpleEscape?]
  · simp [readText, simpleEscape?]
  · next hquote hslash _ _ _ =>
    split
    · next h => rw [hc 8 h]; simp [readText, simpleEscape?]
    · split
      · next h => rw [hc 12 h]; simp [readText, simpleEscape?]
      · split
        · next h =>
          obtain ⟨a, b, htext, -⟩ := hexText_control h
          have hhex := hex4?_control h (d :: rest)
          have hchar : unitChar c.toNat = c := by
            rw [unitChar, if_neg, Char.ofNat_toNat]
            simp only [Bool.and_eq_true, decide_eq_true_eq]
            omega
          rw [htext] at hhex ⊢
          simp only [List.cons_append, List.nil_append] at hhex ⊢
          rw [readText, hhex]
          dsimp only
          rw [if_neg, hchar]
          simp only [Bool.and_eq_true, decide_eq_true_eq]
          omega
        · next h =>
          rw [List.singleton_append, readText, if_neg h]
          · exact hquote
          · exact fun heq _ => hslash heq
          · exact fun _ heq _ => hslash heq
          · exact fun _ _ heq _ => hslash heq

/-- **A text is read as it was before its characters were escaped.** -/
theorem readText_escaped (cs acc rest : List Char) {fuel : Nat} (hfuel : cs.length < fuel) :
    readText fuel acc (cs.flatMap escape ++ '"' :: rest) =
      .ok (String.ofList (acc.reverse ++ cs), rest) := by
  induction cs generalizing acc fuel with
  | nil =>
    cases fuel with
    | zero => simp at hfuel
    | succ fuel => simp [readText]
  | cons c cs ih =>
    cases fuel with
    | zero => simp at hfuel
    | succ fuel =>
      have hfuel : cs.length < fuel := by simpa using hfuel
      rw [List.flatMap_cons, List.append_assoc, readText_escape c acc (by simp), ih (c :: acc) hfuel]
      simp

/-- Characters that stand for themselves in a JSON text: no quotation mark, no backslash and no
control character. -/
def Verbatim (cs : List Char) : Prop := ∀ c ∈ cs, c ≠ '"' ∧ c ≠ '\\' ∧ 0x20 ≤ c.toNat

instance : Decidable (Verbatim cs) :=
  List.decidableBAll (fun c => c ≠ '"' ∧ c ≠ '\\' ∧ 0x20 ≤ c.toNat) cs

/-- No character that stands for itself is escaped. -/
lemma flatMap_escape (h : Verbatim cs) : cs.flatMap escape = cs := by
  induction cs with
  | nil => rfl
  | cons c cs ih =>
    obtain ⟨hquote, hslash, hcontrol⟩ := h c List.mem_cons_self
    have hne (d : Char) (hd : d.toNat < 0x20) : c ≠ d := by rintro rfl; omega
    have hc : escape c = [c] := by
      rw [escape, if_neg (by omega), if_neg (by omega), if_neg (by omega)]
      · exact hquote
      · exact hslash
      · exact hne _ (by decide)
      · exact hne _ (by decide)
      · exact hne _ (by decide)
    rw [List.flatMap_cons, hc, ih fun x hx => h x (List.mem_cons_of_mem _ hx)]
    rfl

/-- A text in quotation marks, with more text behind it. -/
def quotedText (cs rest : List Char) : List Char := '"' :: (cs ++ '"' :: rest)

lemma readText_quoted (h : Verbatim cs) (rest : List Char) :
    readText ((cs ++ '"' :: rest).length + 1) [] (cs ++ '"' :: rest) =
      .ok (String.ofList cs, rest) := by
  have hfuel : cs.length < (cs ++ '"' :: rest).length + 1 := by
    simp only [List.length_append]
    omega
  have hread := readText_escaped cs [] rest hfuel
  rwa [flatMap_escape h] at hread

lemma readValue_quoted (h : Verbatim cs) (rest : List Char) (fuel : Nat) :
    readValue (fuel + 1) (quotedText cs rest) = .ok (.text (String.ofList cs), rest) := by
  rw [quotedText, readValue, readText_quoted h]
  rfl

/-- The text of a mapping with one member. -/
def memberText (key cs : List Char) : List Char :=
  '\x7b' :: quotedText key (':' :: ' ' :: quotedText cs ['\x7d'])

lemma readMembers_member {key : List Char} (hkey : Verbatim key) (h : Verbatim cs) (fuel : Nat) :
    readMembers (fuel + 2) (quotedText key (':' :: ' ' :: quotedText cs ['\x7d'])) =
      .ok ([(.text (String.ofList key), .text (String.ofList cs))], []) := by
  have hcolon : skipSpace (':' :: ' ' :: quotedText cs ['\x7d']) =
      ':' :: ' ' :: quotedText cs ['\x7d'] := rfl
  have hspace : skipSpace (' ' :: quotedText cs ['\x7d']) = quotedText cs ['\x7d'] := rfl
  have hclose : skipSpace ['\x7d'] = ['\x7d'] := rfl
  rw [quotedText, readMembers, readText_quoted hkey]
  simp only [bind, Except.bind, hcolon, hspace, readValue_quoted h, hclose]
  rfl

/-- **A mapping with one member is read as that member**, where all characters stand for
themselves. -/
theorem read_member {key s : String} (hkey : Verbatim key.toList) (h : Verbatim s.toList) :
    read (String.ofList (memberText key.toList s.toList)) = .ok (.dict [(.text key, .text s)]) := by
  have hstart : skipSpace (memberText key.toList s.toList) = memberText key.toList s.toList := rfl
  have hinner : skipSpace (quotedText key.toList (':' :: ' ' :: quotedText s.toList ['\x7d'])) =
      quotedText key.toList (':' :: ' ' :: quotedText s.toList ['\x7d']) := rfl
  have hlength : ∃ fuel, 2 * (memberText key.toList s.toList).length + 2 = fuel + 3 := by
    refine ⟨2 * (memberText key.toList s.toList).length - 1, ?_⟩
    simp only [memberText, List.length_cons]
    omega
  obtain ⟨fuel, hfuel⟩ := hlength
  have hmembers := readMembers_member hkey h fuel
  rw [String.ofList_toList, String.ofList_toList] at hmembers
  have hvalue : readValue (fuel + 3) (memberText key.toList s.toList) =
      .ok (.dict [(.text key, .text s)], []) := by
    rw [memberText, readValue, hinner]
    change (readMembers (fuel + 2)
      (quotedText key.toList (':' :: ' ' :: quotedText s.toList ['\x7d'])) >>= fun p =>
        pure (Value.mappingOf p.1, p.2)) = _
    rw [hmembers]
    rfl
  have hhead : memberText key.toList s.toList =
      '\x7b' :: quotedText key.toList (':' :: ' ' :: quotedText s.toList ['\x7d']) := rfl
  rw [read, String.toList_ofList, hhead]
  dsimp only
  rw [if_neg (by decide), ← hhead, hstart, hfuel, hvalue]
  rfl

end BlockSuite.Json
