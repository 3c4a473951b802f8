import BlockSuite.Proofs.Margin
import BlockSuite.Text.Lower
import BlockSuite.Text.Upper

/-!
Letters in another case. Lower case leaves no ASCII capitals and nothing that is made an ASCII
letter when it is put into lower case once more, so as far as ASCII characters are concerned, lower
case is lower case already. No blank comes of a letter, and blanks stay as they are, so a text can
be trimmed before it is put into lower case or afterwards.
-/

namespace BlockSuite.Text

variable {specials : List (Nat × List Nat)} {runs : List CaseRun} {c d : Char}
  {cs ds front back before : List Char}

/-! ### One character by the tables -/

lemma toNat_ofNat {n : Nat} (h : n.isValidChar) : (Char.ofNat n).toNat = n := by
  rw [Char.ofNat, dif_pos h]
  rfl

/-- What holds of the first characters is checked for one after the other. -/
lemma forall_below {b : Nat} {P : Char → Prop} (h : ∀ n < b, P (Char.ofNat n)) (hc : c.toNat < b) :
    P c := by
  have hp := h c.toNat hc
  rwa [Char.ofNat_toNat] at hp

lemma recased_cases (specials : List (Nat × List Nat)) (runs : List CaseRun) (c : Char) :
    (∃ codes, (c.toNat, codes) ∈ specials ∧ recased specials runs c = codes.map Char.ofNat) ∨
    (∃ r ∈ runs, r.1 ≤ c.toNat ∧ c.toNat ≤ r.2.1 ∧
      recased specials runs c = [Char.ofNat (Int.toNat (c.toNat + r.2.2.2))]) ∨
    recased specials runs c = [c] := by
  unfold recased
  dsimp only
  split
  · next n codes hfind =>
    have hn : n = c.toNat := by simpa using List.find?_some hfind
    exact .inl ⟨codes, hn ▸ List.mem_of_find?_eq_some hfind, rfl⟩
  · split
    · next lo hi step distance hfind =>
      have hrun := List.find?_some hfind
      simp only [Bool.and_eq_true, decide_eq_true_eq] at hrun
      exact .inr (.inl ⟨_, List.mem_of_find?_eq_some hfind, hrun.1.1, hrun.1.2, rfl⟩)
    · exact .inr (.inr rfl)

lemma recased_ne_nil (h : ∀ e ∈ specials, e.2 ≠ []) : recased specials runs c ≠ [] := by
  rcases recased_cases specials runs c with ⟨codes, hmem, heq⟩ | ⟨r, -, -, -, heq⟩ | heq
  · rw [heq]
    simpa using h _ hmem
  · simp [heq]
  · simp [heq]

/-- The upper case of a text is a text. -/
lemma upper_ne_empty {s : String} (h : s ≠ "") : upper s ≠ "" := by
  have hchar (c : Char) : upperChar c ≠ [] := by
    unfold upperChar
    split
    · split <;> simp
    · exact recased_ne_nil (by decide +kernel)
  intro hupper
  have hnil : s.toList.flatMap upperChar = [] := by
    rw [← String.toList_ofList (l := s.toList.flatMap upperChar), ← upper, hupper]
    rfl
  cases hs : s.toList with
  | nil => exact h (String.toList_eq_nil_iff.mp hs)
  | cons c rest =>
    rw [hs, List.flatMap_cons, List.append_eq_nil_iff] at hnil
    exact hchar c hnil.1

/-! ### Lower case of one character -/

/-- Characters whose lower case is not listed apart. -/
def Common (c : Char) : Prop := ∀ e ∈ lowerSpecials, e.1 ≠ c.toNat

/-- Lower case as far as ASCII characters are concerned: no ASCII capital, and nothing whose lower
case has ASCII letters. -/
def Settled (c : Char) : Prop := Common c ∧ (c.toNat < 0x41 ∨ 0x5A < c.toNat)

instance (c : Char) : Decidable (Common c) := List.decidableBAll _ _

instance (c : Char) : Decidable (Settled c) := inferInstanceAs (Decidable (_ ∧ _))

/-- A run leads from letters beyond ASCII to letters beyond ASCII: none of them is a blank, and none
that it leads to is listed apart. -/
def Climbs (r : CaseRun) : Prop :=
  0x80 ≤ r.1 + r.2.2.2 ∧
    (r.2.1 + r.2.2.2 < 0xD800 ∨ 0xDFFF < r.1 + r.2.2.2 ∧ r.2.1 + r.2.2.2 < 0x110000) ∧
    (∀ e ∈ lowerSpecials, e.1 < r.1 + r.2.2.2 ∨ r.2.1 + r.2.2.2 < e.1) ∧
    ∀ n ∈ wideBlanks, (n < r.1 ∨ r.2.1 < n) ∧ (n < r.1 + r.2.2.2 ∨ r.2.1 + r.2.2.2 < n)

instance (r : CaseRun) : Decidable (Climbs r) := inferInstanceAs (Decidable (_ ∧ _ ∧ _ ∧ _))

lemma climbs_of_mem_lowerRuns : ∀ r ∈ lowerRuns, Climbs r := by decide +kernel

/-- One character beyond ASCII that another one becomes. -/
structure Moves (c d : Char) : Prop where
  wide : 0x80 ≤ c.toNat
  wide' : 0x80 ≤ d.toNat
  common : Common d
  blank : isBlank d = isBlank c
  kept : isBlank c = true → d = c

lemma Climbs.moves {r : CaseRun} (h : Climbs r) (hc : 0x80 ≤ c.toNat) (hlo : r.1 ≤ c.toNat)
    (hhi : c.toNat ≤ r.2.1) (hd : d = Char.ofNat (Int.toNat (c.toNat + r.2.2.2))) : Moves c d := by
  obtain ⟨hwide, hscalar, hlisted, hblank⟩ := h
  have hcode : d.toNat = Int.toNat (c.toNat + r.2.2.2) := by
    rw [hd]
    exact toNat_ofNat (show _ < _ ∨ _ ∧ _ by omega)
  have hwide' : 0x80 ≤ d.toNat := by omega
  have hfrom : isBlank c = false := by
    by_contra hc'
    have := (hblank _ (mem_wideBlanks (by simpa using hc') hc)).1
    omega
  have hto : isBlank d = false := by
    by_contra hd'
    have := (hblank _ (mem_wideBlanks (by simpa using hd') hwide')).2
    omega
  refine ⟨hc, hwide', fun e he heq => ?_, hto.trans hfrom.symm, fun hc' => ?_⟩
  · have := hlisted e he
    omega
  · rw [hfrom] at hc'
    cases hc'

/-- The lower case of a character in some place: that by itself, or a final sigma. -/
def Lowers (c : Char) (piece : List Char) : Prop :=
  piece = lowerChar c ∨ c = 'Σ' ∧ piece = ['ς']

lemma lowers_lowerBetween (before : List Char) (c : Char) (after : List Char) :
    Lowers c (lowerBetween before c after) := by
  unfold lowerBetween
  split
  · next hc =>
    subst hc
    split
    · exact .inr ⟨rfl, rfl⟩
    · exact .inl (by decide +kernel)
  · exact .inl rfl

namespace Lowers

variable {piece : List Char} (h : Lowers c piece)

include h

/-- What lower case does to single characters: it is told of each ASCII character and of those that
are listed apart, and all others become one character beyond ASCII. -/
@[elab_as_elim]
lemma elim {P : Char → List Char → Prop}
    (ascii : ∀ n < 0x80, P (Char.ofNat n) (lowerChar (Char.ofNat n)))
    (listed : ∀ e ∈ lowerSpecials, P (Char.ofNat e.1) (lowerChar (Char.ofNat e.1)))
    (other : ∀ c d, Moves c d → P c [d]) : P c piece := by
  rcases h with rfl | ⟨rfl, rfl⟩
  · by_cases hc : c.toNat < 0x80
    · exact forall_below (P := fun c => P c (lowerChar c)) ascii hc
    · by_cases hcommon : Common c
      · have heq : lowerChar c = recased lowerSpecials lowerRuns c := if_neg hc
        rw [heq]
        rcases recased_cases lowerSpecials lowerRuns c with
          ⟨codes, hmem, -⟩ | ⟨r, hr, hlo, hhi, hd⟩ | hself
        · exact absurd rfl (hcommon _ hmem)
        · rw [hd]
          exact other _ _ ((climbs_of_mem_lowerRuns r hr).moves (by omega) hlo hhi rfl)
        · rw [hself]
          exact other c c ⟨by omega, by omega, hcommon, rfl, fun _ => rfl⟩
      · simp only [Common, not_forall, not_not] at hcommon
        obtain ⟨e, he, hcode⟩ := hcommon
        have hp := listed e he
        rwa [hcode, Char.ofNat_toNat] at hp
  · exact other _ _ ⟨by decide, by decide, by decide, by decide, by decide⟩

lemma ne_nil : piece ≠ [] := by
  refine h.elim ?_ ?_ fun c d _ => by simp
  · decide +kernel
  · decide +kernel

/-- The same for each character of which lower case consists. -/
lemma each {P : Char → Char → Prop} [∀ c d, Decidable (P c d)]
    (ascii : ∀ n < 0x80, (lowerChar (Char.ofNat n)).all fun d => P (Char.ofNat n) d)
    (listed : ∀ e ∈ lowerSpecials, (lowerChar (Char.ofNat e.1)).all fun d => P (Char.ofNat e.1) d)
    (other : ∀ c d, Moves c d → P c d) : ∀ d ∈ piece, P c d := by
  have hall : piece.all (fun d => P c d) = true :=
    h.elim ascii listed fun c d hcd => by simpa using other c d hcd
  simpa using hall

lemma settled : ∀ d ∈ piece, Settled d := by
  refine h.each (P := fun _ d => Settled d) ?_ ?_ fun c d hcd => ?_
  · decide +kernel
  · decide +kernel
  · have := hcd.wide'
    exact ⟨hcd.common, by omega⟩

lemma isBlank_eq : ∀ d ∈ piece, isBlank d = isBlank c := by
  refine h.each (P := fun c d => isBlank d = isBlank c) ?_ ?_ fun c d hcd => hcd.blank
  · decide +kernel
  · decide +kernel

lemma eq_of_isBlank : isBlank c = true → piece = [c] := by
  refine h.elim ?_ ?_ fun c d hcd hc => by rw [hcd.kept hc]
  · decide +kernel
  · decide +kernel

lemma eq_of_isAsciiWord : Settled c → isAsciiWord c = true → piece = [c] := by
  refine h.elim ?_ ?_ fun c d hcd _ hword => ?_
  · decide +kernel
  · decide +kernel
  · have := toNat_of_isAsciiWord hword
    have := hcd.wide
    omega

lemma not_isAsciiWord (hc : Settled c) (hword : isAsciiWord c = false) :
    ∀ d ∈ piece, isAsciiWord d = false := by
  intro d hd
  refine h.each (P := fun c d => Settled c → isAsciiWord c = false → isAsciiWord d = false)
    ?_ ?_ (fun c d hcd _ _ => ?_) d hd hc hword
  · decide +kernel
  · decide +kernel
  · by_contra hd
    have := toNat_of_isAsciiWord (by simpa using hd)
    have := hcd.wide'
    omega

end Lowers

/-! ### Lower case of texts -/

/-- Characters are put into lower case one by one, each for the place where it stands. -/
inductive Lowered : List Char → List Char → Prop
  | nil : Lowered [] []
  | cons {c : Char} {piece cs ds : List Char} (one : Lowers c piece) (rest : Lowered cs ds) :
    Lowered (c :: cs) (piece ++ ds)

lemma lowered_lowerBehind (before cs : List Char) : Lowered cs (lowerBehind before cs) := by
  induction cs generalizing before with
  | nil => exact .nil
  | cons c cs ih => exact .cons (lowers_lowerBetween before c cs) (ih _)

example : lower "ΣΟΦΟΣ, ΟΔΟΣ." = "σοφος, οδος." := by decide +kernel

namespace Lowered

lemma settled (h : Lowered cs ds) : ∀ d ∈ ds, Settled d := by
  induction h with
  | nil => simp
  | cons one _ ih => exact List.forall_mem_append.mpr ⟨one.settled, ih⟩

lemma append (h : Lowered (front ++ cs) ds) :
    ∃ ds₁ ds₂, ds = ds₁ ++ ds₂ ∧ Lowered front ds₁ ∧ Lowered cs ds₂ := by
  induction front generalizing ds with
  | nil => exact ⟨[], ds, rfl, .nil, h⟩
  | cons c front ih =>
    obtain _ | ⟨one, rest⟩ := h
    obtain ⟨ds₁, ds₂, rfl, h₁, h₂⟩ := ih rest
    exact ⟨_, ds₂, (List.append_assoc _ _ _).symm, .cons one h₁, h₂⟩

lemma eq_of_blank (h : Lowered cs ds) (hcs : ∀ c ∈ cs, isBlank c = true) : ds = cs := by
  induction h with
  | nil => rfl
  | cons one _ ih =>
    rw [List.forall_mem_cons] at hcs
    rw [one.eq_of_isBlank hcs.1, ih hcs.2, List.singleton_append]

lemma head (h : Lowered cs ds) (hcs : ∀ c ∈ cs.head?, isBlank c = false) :
    ∀ d ∈ ds.head?, isBlank d = false := by
  cases h with
  | nil => simp
  | cons one _ =>
    intro d hd
    rw [List.head?_append_of_ne_nil _ one.ne_nil] at hd
    rw [one.isBlank_eq d (List.mem_of_mem_head? hd)]
    exact hcs _ rfl

lemma last (h : Lowered cs ds) (hcs : ∀ c ∈ cs.getLast?, isBlank c = false) :
    ∀ d ∈ ds.getLast?, isBlank d = false := by
  obtain rfl | ⟨init, c, rfl⟩ := List.eq_nil_or_concat' cs
  · cases h
    simp
  · obtain ⟨ds₁, ds₂, rfl, -, hlast⟩ := append h
    obtain _ | ⟨one, rest⟩ := hlast
    cases rest
    intro d hd
    rw [List.append_nil, List.getLast?_append_of_ne_nil _ one.ne_nil] at hd
    rw [one.isBlank_eq d (List.mem_of_mem_getLast? hd)]
    exact hcs c (by simp)

/-- **A text is put into lower case and trimmed in any order**, but for the places in which its
characters stand meanwhile. -/
lemma trim (h : Lowered cs ds) : Lowered (trimChars cs) (trimChars ds) := by
  obtain ⟨front, back, hframed⟩ := exists_framed cs
  obtain ⟨front', rest, rfl, hfront, hrest⟩ := append (hframed.eq ▸ h)
  obtain ⟨core, back', rfl, hcore, hback⟩ := append hrest
  have htrim : Framed front' core back' (front' ++ (core ++ back')) := by
    refine ⟨rfl, ?_, ?_, hcore.head hframed.head, hcore.last hframed.last⟩
    · rw [hfront.eq_of_blank hframed.front]
      exact hframed.front
    · rw [hback.eq_of_blank hframed.back]
      exact hframed.back
  rwa [htrim.trim_eq]

end Lowered

end BlockSuite.Text
