import BlockSuite.Proofs.Path
import BlockSuite.Proofs.Placeholder
import BlockSuite.Proofs.Rendering

/-!
Filling texts and values. A placeholder becomes the text of the value its path leads to, and stays
where the path leads nowhere. It is no other text that is put in its place, and nothing is looked
for in what is put there. What keeps a text from being filled is a placeholder that is stuck: its path
comes upon a position that has too many digits, or its value has no text.
-/

namespace BlockSuite

namespace Template

variable {scopes : Scopes} {path t : String}

/-- How a placeholder is written. -/
def spelled (path : String) : String := "$\x7b" ++ path ++ "\x7d"

/-- What a placeholder becomes: the text of the value its path leads to, or itself where the path
leads nowhere. -/
inductive Becomes (scopes : Scopes) (path : String) : String → Prop
  | value {v : Value} {t : String} (found : lookup scopes path = .ok (some v))
    (text : v.toText = .ok t) : Becomes scopes path t
  | missing (missing : lookup scopes path = .ok none) : Becomes scopes path (spelled path)

/-- A placeholder cannot be filled: its path comes upon a position that has too many digits, or its
value has no text. -/
inductive Stuck (scopes : Scopes) (path : String) : Prop
  | position {p : Path} {v : Value} {key : String} (parsed : Path.ofText path = .ok p)
    (bound : scopes.binding? p.name = some v) (overruns : v.Overruns p.segments key)
  | value {v : Value} (found : lookup scopes path = .ok (some v)) (refused : v.Refused true)

/-! ### One placeholder -/

lemma becomes_iff : Becomes scopes path t ↔ fillPiece scopes (.placeholder path) = .ok t := by
  rw [fillPiece]
  constructor
  · rintro (⟨found, text⟩ | missing)
    · rw [found]
      exact text
    · rw [missing]
      rfl
  · intro h
    obtain ⟨found, hfound, h⟩ := except_bind_ok h
    cases found with
    | none =>
      cases h
      exact .missing hfound
    | some v => exact .value hfound h

/-- A stuck placeholder is not filled. -/
lemma Stuck.fails (h : Stuck scopes path) :
    ∃ f, fillPiece scopes (.placeholder path) = .error f := by
  rw [fillPiece]
  cases h with
  | @position p v key parsed bound overruns =>
    have hlookup : lookup scopes path = .error (.tooManyDigitsIn key.length) := by
      rw [lookup, parsed]
      exact (Scopes.lookup_of_binding bound).trans overruns.fails
    exact ⟨_, by rw [hlookup]; rfl⟩
  | @value v found refused =>
    rw [found]
    change ∃ f, v.toText = .error f
    cases htext : v.toText with
    | ok t => exact absurd refused (Value.toText_ok_iff.mp ⟨t, htext⟩)
    | error f => exact ⟨f, rfl⟩

/-- A path is looked up, unless it comes upon a position that has too many digits. -/
lemma lookup_or_stuck (scopes : Scopes) (path : String) :
    (∃ found, lookup scopes path = .ok found) ∨ Stuck scopes path := by
  rw [lookup]
  cases parsed : Path.ofText path with
  | error f => exact .inl ⟨none, rfl⟩
  | ok p =>
    dsimp only
    cases bound : scopes.binding? p.name with
    | none => exact .inl ⟨none, by rw [Scopes.lookup, bound]⟩
    | some v =>
      rw [Scopes.lookup_of_binding bound]
      rcases v.follow_cases p.segments with hfound | ⟨_, overruns, _⟩
      · exact .inl hfound
      · exact .inr (.position parsed bound overruns)

/-- **A placeholder is filled unless it is stuck.** -/
theorem becomes_or_stuck (scopes : Scopes) (path : String) :
    (∃ t, Becomes scopes path t) ∨ Stuck scopes path := by
  rcases lookup_or_stuck scopes path with ⟨found, hfound⟩ | hstuck
  · cases found with
    | none => exact .inl ⟨_, .missing hfound⟩
    | some v =>
      by_cases hv : v.Refused true
      · exact .inr (.value hfound hv)
      · obtain ⟨t, ht⟩ := Value.toText_ok_iff.mpr hv
        exact .inl ⟨t, .value hfound ht⟩
  · exact .inr hstuck

/-- What would stand in place of a placeholder that is left as it is also where it is stuck. -/
def tolerated (scopes : Scopes) (path : String) : String :=
  match lookup scopes path with
  | .ok (some v) =>
    match v.toText with
    | .ok t => t
    | .error _ => spelled path
  | _ => spelled path

lemma Becomes.tolerated (h : Becomes scopes path t) : tolerated scopes path = t := by
  rw [Template.tolerated]
  cases h with
  | value found text => rw [found]; dsimp only; rw [text]
  | missing missing => rw [missing]

/-- A text that is one placeholder. -/
lemma fill_spelled (h : IsPath path.toList) (scopes : Scopes) :
    fill scopes (spelled path) = fillPiece scopes (.placeholder path) := by
  have hpieces : pieces (spelled path).toList = [.placeholder path] := by
    have hopens : Opens (spelled path).toList path [] := ⟨h, by simp [spelled]⟩
    rw [pieces_placeholder (placeholder?_iff.mpr hopens), pieces_nil]
  rw [fill, hpieces, fillPieces]
  cases fillPiece scopes (.placeholder path) with
  | error f => rfl
  | ok t => exact congrArg Except.ok String.append_empty

/-! ### All placeholders -/

section Settled

variable {α β γ : Type} {ps qs : List String} {x : Except Fault α} {y : Except Fault β} {a : α}
  {b : β}

/-- What is computed by filling placeholders comes to a result, or fails as one of them is stuck. -/
def Settled (scopes : Scopes) (paths : List String) (x : Except Fault α) (a : α) : Prop :=
  (∀ path ∈ paths, ¬Stuck scopes path) ∧ x = .ok a ∨
    (∃ path ∈ paths, Stuck scopes path) ∧ ∃ f, x = .error f

lemma Settled.pure (a : α) : Settled scopes [] (.ok a) a := .inl ⟨nofun, rfl⟩

lemma Settled.map (h : Settled scopes ps x a) (f : α → β) :
    Settled scopes ps (do return f (← x)) (f a) := by
  rcases h with ⟨hfree, rfl⟩ | ⟨hstuck, e, rfl⟩
  · exact .inl ⟨hfree, rfl⟩
  · exact .inr ⟨hstuck, e, rfl⟩

lemma Settled.map₂ (h : Settled scopes ps x a) (h' : Settled scopes qs y b) (f : α → β → γ) :
    Settled scopes (ps ++ qs) (do
      let a ← x
      return f a (← y)) (f a b) := by
  rcases h with ⟨hfree, rfl⟩ | ⟨⟨path, hmem, hstuck⟩, e, rfl⟩
  · rcases h' with ⟨hfree', rfl⟩ | ⟨⟨path, hmem, hstuck⟩, e, rfl⟩
    · exact .inl ⟨List.forall_mem_append.mpr ⟨hfree, hfree'⟩, rfl⟩
    · exact .inr ⟨⟨path, List.mem_append_right _ hmem, hstuck⟩, e, rfl⟩
  · exact .inr ⟨⟨path, List.mem_append_left _ hmem, hstuck⟩, e, rfl⟩

lemma Settled.ok_iff (h : Settled scopes ps x a) :
    x = .ok a ↔ ∀ path ∈ ps, ¬Stuck scopes path := by
  rcases h with ⟨hfree, rfl⟩ | ⟨⟨path, hmem, hstuck⟩, e, rfl⟩
  · exact iff_of_true rfl hfree
  · exact iff_of_false nofun fun hfree => hfree path hmem hstuck

lemma Settled.error_iff (h : Settled scopes ps x a) :
    (∃ f, x = .error f) ↔ ∃ path ∈ ps, Stuck scopes path := by
  rcases h with ⟨hfree, rfl⟩ | ⟨hstuck, hfail⟩
  · exact iff_of_false nofun fun ⟨path, hmem, hstuck⟩ => hfree path hmem hstuck
  · exact iff_of_true hfail hstuck

end Settled

lemma settled_placeholder (scopes : Scopes) (path : String) :
    Settled scopes [path] (fillPiece scopes (.placeholder path)) (tolerated scopes path) := by
  rcases becomes_or_stuck scopes path with ⟨t, ht⟩ | hstuck
  · rw [ht.tolerated]
    refine .inl ⟨List.forall_mem_singleton.mpr fun hstuck => ?_, becomes_iff.mp ht⟩
    obtain ⟨f, hf⟩ := hstuck.fails
    rw [becomes_iff.mp ht] at hf
    cases hf
  · exact .inr ⟨⟨path, List.mem_singleton_self path, hstuck⟩, hstuck.fails⟩

/-- A text whose placeholders are filled, those left as they are that lead nowhere or have no
text. -/
def filled (scopes : Scopes) (s : String) : String :=
  String.join ((pieces s.toList).map fun
    | .literal c => c.toString
    | .placeholder path => tolerated scopes path)

/-- **A text is filled unless a placeholder in it is stuck.** -/
theorem settled_fill (scopes : Scopes) (s : String) :
    Settled scopes (paths s) (fill scopes s) (filled scopes s) := by
  unfold fill paths filled
  induction pieces s.toList with
  | nil => exact .pure ""
  | cons p ps ih =>
    rw [List.map_cons, String.join_cons]
    cases p with
    | literal c => exact (Settled.pure c.toString).map₂ ih (· ++ ·)
    | placeholder path => exact (settled_placeholder scopes path).map₂ ih (· ++ ·)

end Template

namespace Value

mutual

/-- Changes every text in a value, keys and members of sets aside. -/
def mapTexts (f : String → String) : Value → Value
  | .text s => .text (f s)
  | .list xs => .list (mapTextsAll f xs)
  | .tuple xs => .tuple (mapTextsAll f xs)
  | .dict es => .dict (mapTextsEntries f es)
  | v => v

def mapTextsAll (f : String → String) : List Value → List Value
  | [] => []
  | x :: xs => mapTexts f x :: mapTextsAll f xs

def mapTextsEntries (f : String → String) : List (Value × Value) → List (Value × Value)
  | [] => []
  | (k, v) :: rest => (k, mapTexts f v) :: mapTextsEntries f rest

end

end Value

namespace Template

variable {scopes : Scopes}

mutual

/-- **A value is filled unless a placeholder in it is stuck.** -/
theorem settled_fillValue (scopes : Scopes) : (v : Value) →
    Settled scopes (pathsIn v) (fillValue scopes v) (v.mapTexts (filled scopes))
  | .text s => (settled_fill scopes s).map Value.text
  | .list xs => (settled_fillAll scopes xs).map Value.list
  | .tuple xs => (settled_fillAll scopes xs).map Value.tuple
  | .dict es => (settled_fillEntries scopes es).map Value.dict
  | .null | .bool _ | .int _ | .float _ | .bytes _ | .date _ | .moment _ | .duration _ | .set _
  | .handle _ | .inner .. => .pure _

theorem settled_fillAll (scopes : Scopes) : (xs : List Value) →
    Settled scopes (pathsInAll xs) (fillAll scopes xs) (Value.mapTextsAll (filled scopes) xs)
  | [] => .pure []
  | x :: xs => (settled_fillValue scopes x).map₂ (settled_fillAll scopes xs) (· :: ·)

theorem settled_fillEntries (scopes : Scopes) : (es : List (Value × Value)) →
    Settled scopes (pathsInEntries es) (fillEntries scopes es)
      (Value.mapTextsEntries (filled scopes) es)
  | [] => .pure []
  | (k, v) :: rest =>
    (settled_fillValue scopes v).map₂ (settled_fillEntries scopes rest) fun y ys => (k, y) :: ys

end

/-- **Filling fails for stuck placeholders and for nothing else.** Where none is stuck, a
placeholder that leads nowhere stays as it is; in texts and in values. -/
theorem filling_fails_iff_stuck (scopes : Scopes) :
    (∀ s, (fill scopes s = .ok (filled scopes s) ↔ ∀ path ∈ paths s, ¬Stuck scopes path) ∧
      ((∃ f, fill scopes s = .error f) ↔ ∃ path ∈ paths s, Stuck scopes path)) ∧
    ∀ v, (fillValue scopes v = .ok (v.mapTexts (filled scopes)) ↔
        ∀ path ∈ pathsIn v, ¬Stuck scopes path) ∧
      ((∃ f, fillValue scopes v = .error f) ↔ ∃ path ∈ pathsIn v, Stuck scopes path) :=
  ⟨fun s => ⟨(settled_fill scopes s).ok_iff, (settled_fill scopes s).error_iff⟩,
    fun v => ⟨(settled_fillValue scopes v).ok_iff, (settled_fillValue scopes v).error_iff⟩⟩

/-- The number of visits to each place, by its coordinates. -/
def visits : Scopes := [[("visits", .dict [(.tuple [.int 1, .int 2], .text "x")])]]

/-- A mapping with a pair as its key is found, and the text is not left as it is. -/
theorem filling_fails_for_pairs :
    lookup visits "visits" = .ok (some (.dict [(.tuple [.int 1, .int 2], .text "x")])) ∧
      fill visits "$\x7bvisits\x7d" =
        .error (.type "keys must be str, int, float, bool or None, not tuple") := by
  have hname : Name.isIdentifier "visits".toList = true := by decide
  have hlookup : lookup visits "visits" =
      .ok (some (.dict [(.tuple [.int 1, .int 2], .text "x")])) :=
    lookup_bound hname rfl (by simp)
  refine ⟨hlookup, ?_⟩
  change fill visits (spelled "visits") = _
  rw [fill_spelled ⟨_, [], hname, nofun, by simp [dotted]⟩, fillPiece, hlookup]
  rfl

/-! ### Texts as they are cut -/

variable {cs literal last rest : List Char} {path t : String}
  {segments : List (List Char × String)}

lemma fillPieces_behind (literal : List Char) (ps : List Piece) :
    fillPieces scopes (literal.map .literal ++ ps) = do
      return String.ofList literal ++ (← fillPieces scopes ps) := by
  induction literal with
  | nil =>
    rw [List.map_nil, List.nil_append]
    cases fillPieces scopes ps with
    | error f => rfl
    | ok t => exact congrArg Except.ok (by simp)
  | cons c literal ih =>
    rw [List.map_cons, List.cons_append, fillPieces, ih]
    cases fillPieces scopes ps with
    | error f => rfl
    | ok t => exact congrArg Except.ok (String.toList_injective (by simp))

/-- A text up to a placeholder, this placeholder and what is behind it are filled one by one. -/
lemma fillPieces_segment {ps : List Piece} :
    fillPieces scopes (literal.map .literal ++ .placeholder path :: ps) = .ok t ↔
      ∃ u v, Becomes scopes path u ∧ fillPieces scopes ps = .ok v ∧
        t = String.ofList literal ++ u ++ v := by
  rw [fillPieces_behind, fillPieces]
  simp only [becomes_iff]
  cases fillPiece scopes (.placeholder path) with
  | error f => exact iff_of_false (by rintro ⟨⟩) (by rintro ⟨_, _, ⟨⟩, _⟩)
  | ok u =>
    cases fillPieces scopes ps with
    | error f => exact iff_of_false (by rintro ⟨⟩) (by rintro ⟨_, _, _, ⟨⟩, _⟩)
    | ok v =>
      constructor
      · rintro ⟨⟩
        exact ⟨u, v, rfl, rfl, (String.append_assoc).symm⟩
      · rintro ⟨_, _, ⟨⟩, ⟨⟩, rfl⟩
        exact congrArg Except.ok (String.append_assoc).symm

/-- **A text is filled segment by segment**: what stands before each placeholder stays, and so does
what stands behind the last one. -/
theorem fill_cut (h : Cut cs segments last) : fillPieces scopes (pieces cs) = .ok t ↔
    ∃ ts, List.Forall₂ (fun segment u => Becomes scopes segment.2 u) segments ts ∧
      t = String.join (segments.zipWith (fun segment u => String.ofList segment.1 ++ u) ts) ++
        String.ofList last := by
  induction h generalizing t with
  | last clear =>
    rw [pieces_last clear, fillPieces_literals]
    constructor
    · rintro ⟨⟩
      exact ⟨[], .nil, by simp⟩
    · rintro ⟨_, ⟨⟩, rfl⟩
      simp
  | @next literal cs rest last path segments clear opens _ ih =>
    rw [pieces_clear clear, pieces_placeholder (placeholder?_iff.mpr opens), fillPieces_segment]
    constructor
    · rintro ⟨u, v, hu, hv, rfl⟩
      obtain ⟨ts, hts, rfl⟩ := ih.mp hv
      refine ⟨u :: ts, .cons hu hts, ?_⟩
      rw [List.zipWith_cons_cons, String.join_cons, String.append_assoc, String.append_assoc,
        String.append_assoc]
    · rintro ⟨_, hts, rfl⟩
      cases hts with
      | @cons _ u _ ts hu hts =>
        refine ⟨u, _, hu, ih.mpr ⟨ts, hts, rfl⟩, ?_⟩
        rw [List.zipWith_cons_cons, String.join_cons, String.append_assoc, String.append_assoc]

/-- The paths of the placeholders that a text is cut at. -/
lemma paths_cut {s : String} (h : Cut s.toList segments last) :
    paths s = segments.map Prod.snd := by
  rw [paths]
  generalize s.toList = cs at h
  induction h with
  | last clear =>
    rw [pieces_last clear]
    simp [List.filterMap_map]
  | next clear opens _ ih =>
    rw [pieces_clear clear, pieces_placeholder (placeholder?_iff.mpr opens)]
    simp [List.filterMap_map, ih]

/-- **Filling a text.** A text is cut in one way, and filling keeps what stands between placeholders
and puts one text in place of each. It fails for a stuck placeholder and for nothing else. A text
without a placeholder stays as it is, and so does one in which none begins, filled or not. -/
theorem filling_is_exact (scopes : Scopes) (s : String) :
    ∃ segments last,
      (∀ segments' last', Cut s.toList segments' last' ↔ segments' = segments ∧ last' = last) ∧
      (∀ t, fill scopes s = .ok t ↔
        ∃ ts, List.Forall₂ (fun segment u => Becomes scopes segment.2 u) segments ts ∧
          t = String.join (segments.zipWith (fun segment u => String.ofList segment.1 ++ u) ts) ++
            String.ofList last) ∧
      ((∃ f, fill scopes s = .error f) ↔ ∃ path ∈ segments.map Prod.snd, Stuck scopes path) ∧
      (hasPlaceholder s = true ↔ segments ≠ []) ∧
      (hasPlaceholder s = false → fill scopes s = .ok s) ∧
      (if Text.contains s "$\x7b" then fill scopes s else .ok s) = fill scopes s := by
  obtain ⟨segments, last, hgather⟩ : ∃ segments last, gather (pieces s.toList) = (segments, last) :=
    ⟨_, _, rfl⟩
  have hcut : Cut s.toList segments last := cut_iff.mpr hgather
  refine ⟨segments, last, fun segments' last' => ?_, fun t => fill_cut hcut, ?_, ?_, ?_, ?_⟩
  · rw [cut_iff, hgather, Prod.mk.injEq, eq_comm, @eq_comm _ last]
  · rw [(settled_fill scopes s).error_iff, paths_cut hcut]
  · rw [hasPlaceholder, paths_cut hcut]
    simp
  · intro h
    refine fill_unresolved fun path hpath => ?_
    rw [hasPlaceholder, Bool.not_eq_false', List.isEmpty_iff] at h
    rw [h] at hpath
    cases hpath
  · cases h : Text.contains s "$\x7b" with
    | true => rfl
    | false => exact (fill_plain h scopes).symm

/-- A position that has too many digits is not left as it is in a text. -/
lemma fill_overlong {x key : String} {v : Value} (hx : Name.isIdentifier x.toList = true)
    (hkey : IsWord key.toList) (hlong : Value.Overlong key) (bound : scopes.binding? x = some v)
    (hv : v.isSequence = true) :
    fill scopes ("$\x7b" ++ x ++ "." ++ key ++ "\x7d") = .error (.tooManyDigitsIn key.length) := by
  have hwords : ∀ word ∈ [key.toList], IsWord word := List.forall_mem_singleton.mpr hkey
  have hspelled : "$\x7b" ++ x ++ "." ++ key ++ "\x7d" =
      spelled (String.ofList (x.toList ++ dotted [key.toList])) :=
    String.toList_injective (by simp [spelled, dotted])
  have hpath := ofText_dotted hx hwords
  rw [List.map_singleton, String.ofList_toList] at hpath
  rw [hspelled, fill_spelled ⟨_, _, hx, hwords, String.toList_ofList⟩, fillPiece, lookup, hpath]
  dsimp only
  rw [Scopes.lookup_of_binding bound, (Value.Overruns.here hv hlong []).fails]
  rfl

/-- A position of more digits than are read. -/
def farPosition : String := String.ofList (List.replicate 4301 '1')

lemma toList_farPosition : farPosition.toList = List.replicate 4301 '1' := String.toList_ofList

lemma length_farPosition : farPosition.length = 4301 := by
  rw [← String.length_toList, toList_farPosition, List.length_replicate]

lemma isWord_farPosition : IsWord farPosition.toList := by
  rw [toList_farPosition]
  refine ⟨mt (List.replicate_eq_nil_iff _).mp (by decide), fun c hc => ?_⟩
  rw [List.eq_of_mem_replicate hc]
  decide

lemma overlong_farPosition : Value.Overlong farPosition := by
  refine ⟨?_, by rw [length_farPosition]; decide⟩
  rw [toList_farPosition, List.all_eq_true]
  intro c hc
  rw [List.eq_of_mem_replicate hc]
  decide

/-- A list is shown, and the placeholder of a far position in it is not left as it is. -/
theorem filling_fails_for_far_positions :
    (∃ t, (Value.list [.int 1]).toText = .ok t) ∧
      fill [[("xs", .list [.int 1])]] ("$\x7b" ++ "xs" ++ "." ++ farPosition ++ "\x7d") =
        .error (.tooManyDigitsIn 4301) := by
  refine ⟨Value.toText_ok_iff.mpr fun h => ?_, ?_⟩
  · rw [Value.refused_list] at h
    obtain ⟨x, hx, hrefused⟩ := h
    obtain rfl := List.mem_singleton.mp hx
    exact absurd (Value.refused_int.mp hrefused) (by decide)
  · rw [← length_farPosition]
    exact fill_overlong (by decide) isWord_farPosition overlong_farPosition rfl rfl

end Template

end BlockSuite
