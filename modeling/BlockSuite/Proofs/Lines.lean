import BlockSuite.Proofs.Name
import BlockSuite.Text.Lines

/-!
The lines of a text. Lines that are joined by line feeds are found again, if none of them ends in
its middle. A line that does counts as two: a text has as many lines that are not blank as were
joined, and more where something of a line stands on both sides of an end of line in it.
-/

namespace BlockSuite.Text

variable {cs ds front back line rest : List Char} {c : Char}

/-- Something else than blanks. -/
def Filled (cs : List Char) : Prop := ∃ c ∈ cs, isBlank c = false

/-- A line that is none: it ends in its middle, with something on both sides. -/
def Torn (cs : List Char) : Prop := ∃ front c back, cs = front ++ c :: back ∧ isLineEnd c = true ∧
  Filled front ∧ Filled back

/-- How many lines of a text are not blank. -/
def filledLines (cs : List Char) : Nat := (linesFrom cs []).countP fun line => !line.all isBlank

lemma isBlank_of_isLineEnd (h : isLineEnd c = true) : isBlank c = true := by
  simp only [isLineEnd, Bool.or_eq_true, Bool.and_eq_true, decide_eq_true_eq, beq_iff_eq] at h
  simp only [isBlank, Bool.or_eq_true, Bool.and_eq_true, decide_eq_true_eq, beq_iff_eq]
  omega

lemma linesFrom_cons (hc : c ≠ '\r') (rest line : List Char) : linesFrom (c :: rest) line =
    if isLineEnd c then line.reverse :: linesFrom rest [] else linesFrom rest (c :: line) := by
  rw [linesFrom]
  rintro _ rfl
  exact absurd rfl hc

/-- Without carriage returns, what is behind an end of line does not matter in front of it. -/
lemma linesFrom_append (hfront : '\r' ∉ front) (hc : c ≠ '\r') (hend : isLineEnd c = true)
    (rest line : List Char) : linesFrom (front ++ c :: rest) line =
      linesFrom (front ++ [c]) line ++ linesFrom rest [] := by
  induction front generalizing line with
  | nil => simp [linesFrom_cons hc, hend]
  | cons d front ih =>
    have hd : d ≠ '\r' := fun h => hfront (h ▸ List.mem_cons_self)
    have hrest (line : List Char) := ih (fun h => hfront (List.mem_cons_of_mem _ h)) line
    rw [List.cons_append, List.cons_append, linesFrom_cons hd, linesFrom_cons hd, hrest, hrest]
    split <;> rfl

/-! ### Lines that are joined -/

lemma linesFrom_whole (h : ∀ c ∈ cs, isLineEnd c = false) (rest line : List Char) :
    linesFrom (cs ++ rest) line = linesFrom rest (cs.reverse ++ line) := by
  induction cs generalizing line with
  | nil => rfl
  | cons c cs ih =>
    obtain ⟨hc, hcs⟩ := List.forall_mem_cons.mp h
    have hreturn : c ≠ '\r' := by
      rintro rfl
      cases hc
    rw [List.cons_append, linesFrom_cons hreturn, if_neg (by simp [hc]), ih hcs]
    simp

/-- Lines that are joined by line feeds are found again. -/
lemma linesFrom_intercalate {css : List (List Char)} (filled : ∀ cs ∈ css, cs ≠ [])
    (whole : ∀ cs ∈ css, ∀ c ∈ cs, isLineEnd c = false) :
    linesFrom (['\n'].intercalate css) [] = css := by
  induction css with
  | nil => rfl
  | cons cs rest ih =>
    obtain ⟨hne, hfilled⟩ := List.forall_mem_cons.mp filled
    obtain ⟨hcs, hwhole⟩ := List.forall_mem_cons.mp whole
    cases rest with
    | nil =>
      obtain ⟨c, ds, hds⟩ := List.exists_cons_of_ne_nil (List.reverse_ne_nil_iff.mpr hne)
      have hlast := linesFrom_whole hcs [] []
      rw [List.append_nil, List.append_nil, hds, linesFrom, ← hds, List.reverse_reverse] at hlast
      · simpa using hlast
      · nofun
    | cons ds rest =>
      have hfeed := linesFrom_cons (c := '\n') (by decide) (['\n'].intercalate (ds :: rest))
        (cs.reverse ++ [])
      have hend : isLineEnd '\n' = true := rfl
      rw [if_pos hend, List.append_nil, List.reverse_reverse, ih hfilled hwhole] at hfeed
      rw [List.intercalate_cons_cons, List.append_assoc, List.singleton_append,
        linesFrom_whole hcs, List.append_nil, hfeed]

lemma lines_intercalate {ls : List String} (filled : ∀ l ∈ ls, l.toList ≠ [])
    (whole : ∀ l ∈ ls, ∀ c ∈ l.toList, isLineEnd c = false) :
    lines ("\n".intercalate ls) = ls := by
  have hlines : linesFrom (['\n'].intercalate (ls.map String.toList)) [] = ls.map String.toList :=
    linesFrom_intercalate (List.forall_mem_map.mpr filled) (List.forall_mem_map.mpr whole)
  have hfeed : "\n".toList = ['\n'] := by simp
  rw [lines, String.toList_intercalate, hfeed, hlines, List.map_map]
  exact List.map_id'' (fun _ => String.ofList_toList) ls

/-! ### Lines that are not blank -/

/-- What is no blank stands on some line. -/
lemma exists_filled (hreturn : '\r' ∉ cs) (h : Filled cs ∨ Filled line) :
    ∃ l ∈ linesFrom cs line, Filled l := by
  induction cs generalizing line with
  | nil =>
    obtain ⟨x, hx, hblank⟩ : Filled line := h.resolve_left fun ⟨_, hx, _⟩ => nomatch hx
    obtain ⟨c, rest, rfl⟩ := List.exists_cons_of_ne_nil (List.ne_nil_of_mem hx)
    exact ⟨_, List.mem_singleton_self _, x, List.mem_reverse.mpr hx, hblank⟩
  | cons c rest ih =>
    have hc : c ≠ '\r' := fun heq => hreturn (heq ▸ List.mem_cons_self)
    have hrest : '\r' ∉ rest := fun hmem => hreturn (List.mem_cons_of_mem _ hmem)
    rw [linesFrom_cons hc]
    split
    · next hend =>
      rcases h with ⟨x, hx, hblank⟩ | ⟨x, hx, hblank⟩
      · have hne : x ≠ c := by
          rintro rfl
          rw [isBlank_of_isLineEnd hend] at hblank
          cases hblank
        have hx := (List.mem_cons.mp hx).resolve_left hne
        have hbehind : Filled rest ∨ Filled [] := .inl ⟨x, hx, hblank⟩
        obtain ⟨l, hl, hfilled⟩ := ih hrest hbehind
        exact ⟨l, List.mem_cons_of_mem _ hl, hfilled⟩
      · exact ⟨_, List.mem_cons_self, x, List.mem_reverse.mpr hx, hblank⟩
    · refine ih hrest ?_
      rcases h with ⟨x, hx, hblank⟩ | ⟨x, hx, hblank⟩
      · rcases List.mem_cons.mp hx with rfl | hx
        · exact .inr ⟨x, List.mem_cons_self, hblank⟩
        · exact .inl ⟨x, hx, hblank⟩
      · exact .inr ⟨x, List.mem_cons_of_mem _ hx, hblank⟩

lemma filledLines_pos (hreturn : '\r' ∉ cs) (h : Filled cs) : 0 < filledLines cs := by
  have hline : Filled cs ∨ Filled [] := .inl h
  obtain ⟨l, hl, x, hx, hblank⟩ := exists_filled hreturn hline
  refine List.countP_pos_iff.mpr ⟨l, hl, ?_⟩
  rw [Bool.not_eq_true', List.all_eq_false]
  exact ⟨x, hx, by simp [hblank]⟩

lemma filledLines_append (hreturn : '\r' ∉ front ++ c :: rest) (hend : isLineEnd c = true) :
    filledLines (front ++ c :: rest) = filledLines (front ++ [c]) + filledLines rest := by
  obtain ⟨hfront, hc, -⟩ : '\r' ∉ front ∧ '\r' ≠ c ∧ '\r' ∉ rest := by simpa using hreturn
  rw [filledLines, linesFrom_append hfront hc.symm hend, List.countP_append]
  rfl

lemma Filled.of_piece (h : Filled cs) (hds : cs <:+: ds) : Filled ds := by
  obtain ⟨x, hx, hblank⟩ := h
  exact ⟨x, hds.subset hx, hblank⟩

lemma Filled.append (h : Filled cs) (rest : List Char) : Filled (cs ++ rest) :=
  h.of_piece (List.prefix_append _ _).isInfix

/-- A line is torn if a part of it is. -/
lemma Torn.of_piece (h : Torn cs) (hds : cs <:+: ds) : Torn ds := by
  obtain ⟨front, c, back, rfl, hend, hfront, hback⟩ := h
  obtain ⟨before, behind, rfl⟩ := hds
  refine ⟨before ++ front, c, back ++ behind, by simp, hend, ?_, hback.append behind⟩
  exact hfront.of_piece (List.suffix_append _ _).isInfix

/-- A line that is torn counts twice. -/
lemma Torn.counts_twice (h : Torn cs) (hreturn : '\r' ∉ cs) : 1 < filledLines cs := by
  obtain ⟨front, c, back, rfl, hend, hfront, hback⟩ := h
  obtain ⟨hr, hc, hback'⟩ : '\r' ∉ front ∧ '\r' ≠ c ∧ '\r' ∉ back := by simpa using hreturn
  have hfirst : 0 < filledLines (front ++ [c]) :=
    filledLines_pos (by simp [hr, hc]) (hfront.append [c])
  have hsecond := filledLines_pos hback' hback
  rw [filledLines_append hreturn hend]
  omega

/-- **A text has as many lines that are not blank as were joined, and more if one is torn.** -/
theorem filledLines_intercalate {css : List (List Char)} (hreturn : ∀ cs ∈ css, '\r' ∉ cs)
    (filled : ∀ cs ∈ css, Filled cs) :
    css.length ≤ filledLines (['\n'].intercalate css) ∧
      ((∃ cs ∈ css, Torn cs) → css.length < filledLines (['\n'].intercalate css)) := by
  induction css with
  | nil => exact ⟨Nat.zero_le _, fun ⟨_, hmem, _⟩ => nomatch hmem⟩
  | cons cs rest ih =>
    obtain ⟨hcs, hrest⟩ := List.forall_mem_cons.mp hreturn
    obtain ⟨hfilled, hall⟩ := List.forall_mem_cons.mp filled
    cases rest with
    | nil =>
      rw [List.intercalate_singleton]
      refine ⟨filledLines_pos hcs hfilled, fun ⟨ds, hds, htorn⟩ => ?_⟩
      obtain rfl := List.mem_singleton.mp hds
      exact htorn.counts_twice hcs
    | cons ds rest =>
      obtain ⟨hle, hlt⟩ := ih hrest hall
      have hjoined : '\r' ∉ ['\n'].intercalate (ds :: rest) :=
        not_mem_intercalate (by simp) hrest
      have hsplit : filledLines (cs ++ '\n' :: ['\n'].intercalate (ds :: rest)) =
          filledLines (cs ++ ['\n']) + filledLines (['\n'].intercalate (ds :: rest)) :=
        filledLines_append (by simp [hcs, hjoined]) rfl
      have hline : '\r' ∉ cs ++ ['\n'] := by simp [hcs]
      have hfirst := filledLines_pos hline (hfilled.append ['\n'])
      rw [List.intercalate_cons_cons, List.append_assoc, List.singleton_append, hsplit,
        List.length_cons]
      refine ⟨by omega, fun ⟨es, hes, htorn⟩ => ?_⟩
      rcases List.mem_cons.mp hes with rfl | hes
      · have htwice := (htorn.of_piece (List.prefix_append _ ['\n']).isInfix).counts_twice hline
        omega
      · have hmore := hlt ⟨es, hes, htorn⟩
        omega

end BlockSuite.Text
