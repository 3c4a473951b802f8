import BlockSuite.Proofs.Action
import BlockSuite.Proofs.Name
import BlockSuite.Template

/-!
Filling texts with placeholders. A text in which no placeholder begins is cut into its characters and
stays as it is. What a value becomes depends on nothing but what its placeholders lead to.
-/

namespace BlockSuite

namespace Template

variable {scopes scopes' : Scopes} {cs rest : List Char}

/-! ### Cutting a text -/

lemma pieces_literal {c : Char} (h : placeholder? (c :: rest) = none) :
    pieces (c :: rest) = .literal c :: pieces rest := by
  rw [pieces]
  split
  · next path tail hp =>
    rw [h] at hp
    cases hp
  · rfl

lemma pieces_placeholder {path : String} {tail : List Char}
    (h : placeholder? cs = some (path, tail)) : pieces cs = .placeholder path :: pieces tail := by
  cases cs with
  | nil => cases h
  | cons c rest =>
    rw [pieces]
    split
    · next path' tail' hp =>
      rw [h] at hp
      cases hp
      rfl
    · next hp =>
      rw [h] at hp
      cases hp

lemma placeholder?_of_ne {c : Char} (h : c ≠ '$') : placeholder? (c :: rest) = none := by
  unfold placeholder?
  split
  · next hc => exact absurd (List.cons.inj hc).1 h
  · rfl

/-- Text without a dollar sign is literal. -/
lemma pieces_append (h : '$' ∉ cs) (rest : List Char) :
    pieces (cs ++ rest) = cs.map .literal ++ pieces rest := by
  induction cs with
  | nil => rfl
  | cons c cs ih =>
    rw [List.mem_cons, not_or] at h
    rw [List.cons_append, pieces_literal (placeholder?_of_ne (Ne.symm h.1)), ih h.2]
    rfl

/-- Text in which no placeholder begins is literal. -/
lemma pieces_of_plain (h : Text.hasInfix ['$', '\x7b'] cs = false) :
    pieces cs = cs.map .literal := by
  induction cs with
  | nil => simp
  | cons c cs ih =>
    obtain ⟨hstart, hrest⟩ : Text.startsWith (c :: cs) ['$', '\x7b'] = false ∧
        Text.hasInfix ['$', '\x7b'] cs = false := by
      simpa [Text.hasInfix] using h
    have hnone : placeholder? (c :: cs) = none := by
      unfold placeholder?
      split
      · next hc =>
        cases hc
        simp [Text.startsWith] at hstart
      · rfl
    rw [pieces_literal hnone, ih hrest]
    rfl

lemma pathTail?_words {acc : List Char} {dot : Bool} (h : ∀ c ∈ cs, Text.isAsciiWord c = true) :
    pathTail? acc dot (cs ++ '\x7d' :: rest) =
      pathTail? (cs.reverse ++ acc) (dot && cs.isEmpty) ('\x7d' :: rest) := by
  induction cs generalizing acc dot with
  | nil => simp
  | cons c cs ih =>
    have hrest (x) (hx : x ∈ cs) := h x (List.mem_cons_of_mem _ hx)
    rw [List.cons_append, pathTail?, if_pos (h c List.mem_cons_self), ih hrest]
    simp

/-- The placeholder of an identifier. -/
lemma placeholder?_identifier (h : Name.isIdentifier cs = true) (rest : List Char) :
    placeholder? ('$' :: '\x7b' :: (cs ++ '\x7d' :: rest)) = some (String.ofList cs, rest) := by
  cases cs with
  | nil => cases h
  | cons c cs =>
    obtain ⟨hhead, hwords⟩ : Name.isHead c = true ∧ ∀ x ∈ cs, Text.isAsciiWord x = true := by
      simpa [Name.isIdentifier, Name.isIdentifierOf] using h
    have hclose : Text.isAsciiWord '\x7d' = false := by decide
    rw [List.cons_append, placeholder?, if_pos hhead, pathTail?_words hwords]
    simp [pathTail?, hclose]

/-! ### Filling -/

lemma fillPieces_literals (cs : List Char) (scopes : Scopes) :
    fillPieces scopes (cs.map .literal) = .ok (String.ofList cs) := by
  induction cs with
  | nil => rfl
  | cons c cs ih =>
    rw [List.map_cons, fillPieces, ih]
    change Except.ok (c.toString ++ String.ofList cs) = _
    simp

lemma fillPieces_append {ps qs : List Piece} {s t : String} (hs : fillPieces scopes ps = .ok s)
    (ht : fillPieces scopes qs = .ok t) : fillPieces scopes (ps ++ qs) = .ok (s ++ t) := by
  induction ps generalizing s with
  | nil =>
    cases hs
    simpa using ht
  | cons p ps ih =>
    obtain ⟨a, ha, hs⟩ := except_bind_ok hs
    obtain ⟨b, hb, hs⟩ := except_bind_ok hs
    cases hs
    rw [List.cons_append, fillPieces, ha, ih hb]
    change Except.ok (a ++ (b ++ t)) = _
    rw [String.append_assoc]

/-- **A text in which no placeholder begins stays as it is.** -/
theorem fill_plain {s : String} (h : Text.contains s "$\x7b" = false) (scopes : Scopes) :
    fill scopes s = .ok s := by
  rw [fill, pieces_of_plain h, fillPieces_literals, String.ofList_toList]

mutual

/-- Whether no placeholder begins in any text in a value, keys and members of sets aside. -/
def isPlain : Value → Bool
  | .text s => !Text.contains s "$\x7b"
  | .list xs => isPlainAll xs
  | .tuple xs => isPlainAll xs
  | .dict es => isPlainEntries es
  | _ => true

def isPlainAll : List Value → Bool
  | [] => true
  | x :: xs => isPlain x && isPlainAll xs

def isPlainEntries : List (Value × Value) → Bool
  | [] => true
  | (_, v) :: rest => isPlain v && isPlainEntries rest

end

/-- No placeholder begins in a text without the character that it begins with. -/
lemma isPlain_of_not_mem {s : String} (h : '$' ∉ s.toList) : isPlain (.text s) = true := by
  have hnone {cs : List Char} (h : '$' ∉ cs) : Text.hasInfix ['$', '\x7b'] cs = false := by
    induction cs with
    | nil => rfl
    | cons c cs ih =>
      rw [List.mem_cons, not_or] at h
      have hc : (c == '$') = false := by simpa using Ne.symm h.1
      rw [Text.hasInfix, Text.startsWith, hc, ih h.2]
      rfl
  rw [isPlain, Text.contains]
  exact congrArg (!·) (hnone h)

mutual

/-- **A value in which no placeholder begins stays as it is.** -/
theorem fillValue_plain (scopes : Scopes) :
    (v : Value) → isPlain v = true → fillValue scopes v = .ok v
  | .text s, h => by
    rw [isPlain, Bool.not_eq_true'] at h
    rw [fillValue, fill_plain h]
    rfl
  | .list xs, h => by
    rw [fillValue, fillAll_plain scopes xs h]
    rfl
  | .tuple xs, h => by
    rw [fillValue, fillAll_plain scopes xs h]
    rfl
  | .dict es, h => by
    rw [fillValue, fillEntries_plain scopes es h]
    rfl
  | .null, _ | .bool _, _ | .int _, _ | .float _, _ | .bytes _, _ | .date _, _ | .moment _, _
  | .duration _, _ | .set _, _ | .handle _, _ | .inner .., _ => rfl

theorem fillAll_plain (scopes : Scopes) :
    (xs : List Value) → isPlainAll xs = true → fillAll scopes xs = .ok xs
  | [], _ => rfl
  | x :: xs, h => by
    rw [isPlainAll, Bool.and_eq_true] at h
    rw [fillAll, fillValue_plain scopes x h.1, fillAll_plain scopes xs h.2]
    rfl

theorem fillEntries_plain (scopes : Scopes) :
    (es : List (Value × Value)) → isPlainEntries es = true → fillEntries scopes es = .ok es
  | [], _ => rfl
  | (k, v) :: rest, h => by
    rw [isPlainEntries, Bool.and_eq_true] at h
    rw [fillEntries, fillValue_plain scopes v h.1, fillEntries_plain scopes rest h.2]
    rfl

end

/-- A mapping with texts as keys is as plain as its values. -/
lemma isPlain_record {d : Dict Value} (h : ∀ e ∈ d, isPlain e.2 = true) :
    isPlain (.record d) = true := by
  rw [Value.record, isPlain]
  induction d with
  | nil => rfl
  | cons e rest ih =>
    rw [List.map_cons, isPlainEntries, h e List.mem_cons_self,
      ih fun x hx => h x (List.mem_cons_of_mem _ hx)]
    rfl

/-! ### Placeholders that lead nowhere -/

lemma pathTail?_split {acc : List Char} {dot : Bool} {path : String}
    (h : pathTail? acc dot cs = some (path, rest)) :
    acc.reverse ++ cs = path.toList ++ '\x7d' :: rest := by
  induction cs generalizing acc dot with
  | nil => cases h
  | cons c cs ih =>
    rw [pathTail?] at h
    split at h
    · simpa using ih h
    · split at h
      · cases h
      · split at h
        · simpa using ih h
        · split at h
          · next hclose =>
            cases h
            simp [beq_iff_eq.mp hclose]
          · cases h

/-- A placeholder is spelled by its path. -/
lemma placeholder?_split {path : String} (h : placeholder? cs = some (path, rest)) :
    cs = '$' :: '\x7b' :: (path.toList ++ '\x7d' :: rest) := by
  unfold placeholder? at h
  split at h
  · split at h
    · rw [← pathTail?_split h]
      rfl
    · cases h
  · cases h

/-- **A text whose placeholders lead nowhere stays as it is.** -/
theorem fill_unresolved {s : String} (h : ∀ path ∈ paths s, lookup scopes path = .ok none) :
    fill scopes s = .ok s := by
  have hpieces (cs : List Char) (hcs : ∀ path, .placeholder path ∈ pieces cs →
      lookup scopes path = .ok none) : fillPieces scopes (pieces cs) = .ok (String.ofList cs) := by
    induction cs using pieces.induct with
    | case1 => simp
    | case2 c rest path tail hp ih =>
      -- A placeholder that leads nowhere is written as it is spelled.
      rw [pieces_placeholder hp] at hcs ⊢
      have hpath : fillPiece scopes (.placeholder path) = .ok ("$\x7b" ++ path ++ "\x7d") := by
        rw [fillPiece, hcs path List.mem_cons_self]
        rfl
      rw [fillPieces, hpath, ih fun q hq => hcs q (List.mem_cons_of_mem _ hq),
        placeholder?_split hp]
      refine congrArg Except.ok (String.toList_injective ?_)
      simp
    | case3 c rest hp ih =>
      rw [pieces_literal hp] at hcs ⊢
      rw [fillPieces, ih fun q hq => hcs q (List.mem_cons_of_mem _ hq)]
      refine congrArg Except.ok (String.toList_injective ?_)
      simp
  rw [fill, hpieces, String.ofList_toList]
  intro path hp
  exact h path (List.mem_filterMap.mpr ⟨_, hp, rfl⟩)

/-! ### Variables -/

/-- What is bound to a name in some scopes is found under it. -/
lemma lookup_bound {x : String} (h : Name.isIdentifier x.toList = true) {v : Value}
    (hv : scopes.binding? x = some v) (hnull : v ≠ .null) : lookup scopes x = .ok (some v) := by
  rw [lookup, Path.ofText_identifier h]
  dsimp only
  rw [Scopes.lookup, hv]
  cases v with
  | null => exact absurd rfl hnull
  | _ => rfl

/-- The placeholder of a name is filled with the text of what is bound to it. -/
lemma fill_bound {x : String} (h : Name.isIdentifier x.toList = true) {v : Value}
    (hv : scopes.binding? x = some v) (hnull : v ≠ .null) {s : String} (hs : v.toText = .ok s) :
    fill scopes ("$\x7b" ++ x ++ "\x7d") = .ok s := by
  have hpieces : pieces ("$\x7b" ++ x ++ "\x7d").toList = [.placeholder x] := by
    have hchars : ("$\x7b" ++ x ++ "\x7d").toList = '$' :: '\x7b' :: (x.toList ++ '\x7d' :: []) := by
      simp
    rw [hchars, pieces_placeholder (placeholder?_identifier h []), String.ofList_toList, pieces_nil]
  have hvalue : fillPiece scopes (.placeholder x) = .ok s := by
    rw [fillPiece, lookup_bound h hv hnull]
    exact hs
  rw [fill, hpieces, fillPieces, hvalue, fillPieces]
  exact congrArg Except.ok String.append_empty

lemma binding?_variable {v : String} {bindings : Dict Value} {s : String}
    (hv : bindings.get? v = some (.text s)) :
    Scopes.binding? [bindings] v = some (.text s) := by
  simp [Scopes.binding?, hv]

/-- A variable is found under its name. -/
lemma lookup_variable {v : String} (h : Name.isIdentifier v.toList = true) {bindings : Dict Value}
    {s : String} (hv : bindings.get? v = some (.text s)) :
    lookup [bindings] v = .ok (some (.text s)) :=
  lookup_bound h (binding?_variable hv) (by simp)

/-- The placeholder of a variable is filled with its text. -/
lemma fill_variable {v : String} (h : Name.isIdentifier v.toList = true) {bindings : Dict Value}
    {s : String} (hv : bindings.get? v = some (.text s)) :
    fill [bindings] ("$\x7b" ++ v ++ "\x7d") = .ok s :=
  fill_bound h (binding?_variable hv) (by simp) rfl

/-! ### What filling depends on -/

mutual

/-- The paths of the placeholders in the texts of a value, keys and members of sets aside. -/
def pathsIn : Value → List String
  | .text s => paths s
  | .list xs => pathsInAll xs
  | .tuple xs => pathsInAll xs
  | .dict es => pathsInEntries es
  | _ => []

def pathsInAll : List Value → List String
  | [] => []
  | x :: xs => pathsIn x ++ pathsInAll xs

def pathsInEntries : List (Value × Value) → List String
  | [] => []
  | (_, v) :: rest => pathsIn v ++ pathsInEntries rest

end

/-- What a member of a mapping refers to, the mapping does. -/
lemma mem_pathsIn {es : List (Value × Value)} {e : Value × Value} (he : e ∈ es) {path : String}
    (h : path ∈ pathsIn e.2) : path ∈ pathsIn (.dict es) := by
  rw [pathsIn]
  induction es with
  | nil => cases he
  | cons e' rest ih =>
    obtain ⟨k, v⟩ := e'
    rw [pathsInEntries, List.mem_append]
    rcases List.mem_cons.mp he with rfl | he
    · exact .inl h
    · exact .inr (ih he)

/-- In two scopes some paths lead to the same. -/
def LookAlike (scopes scopes' : Scopes) (paths : List String) : Prop :=
  ∀ path ∈ paths, lookup scopes path = lookup scopes' path

lemma LookAlike.left {ps qs : List String} (h : LookAlike scopes scopes' (ps ++ qs)) :
    LookAlike scopes scopes' ps := fun path hp => h path (List.mem_append_left _ hp)

lemma LookAlike.right {ps qs : List String} (h : LookAlike scopes scopes' (ps ++ qs)) :
    LookAlike scopes scopes' qs := fun path hq => h path (List.mem_append_right _ hq)

/-- Paths lead to the same where their names are bound alike. -/
lemma LookAlike.of_binding {paths : List String} (h : ∀ path ∈ paths, ∀ p,
    Path.ofText path = .ok p → scopes.binding? p.name = scopes'.binding? p.name) :
    LookAlike scopes scopes' paths := by
  intro path hmem
  unfold lookup Scopes.lookup
  split
  · next p hp => rw [h path hmem p hp]
  · rfl

lemma fill_congr {s : String} (h : LookAlike scopes scopes' (paths s)) :
    fill scopes s = fill scopes' s := by
  unfold fill
  unfold paths at h
  generalize pieces s.toList = ps at h
  induction ps with
  | nil => rfl
  | cons p ps ih =>
    cases p with
    | literal c =>
      rw [fillPieces, fillPieces, ih h]
      rfl
    | placeholder path =>
      have hpath : fillPiece scopes (.placeholder path) = fillPiece scopes' (.placeholder path) := by
        rw [fillPiece, fillPiece, h path List.mem_cons_self]
      rw [fillPieces, fillPieces, hpath, ih fun q hq => h q (List.mem_cons_of_mem _ hq)]

mutual

/-- **What a value becomes depends on nothing but what its placeholders lead to.** -/
theorem fillValue_congr :
    (v : Value) → LookAlike scopes scopes' (pathsIn v) → fillValue scopes v = fillValue scopes' v
  | .text s, h => by rw [fillValue, fillValue, fill_congr h]
  | .list xs, h => by rw [fillValue, fillValue, fillAll_congr xs h]
  | .tuple xs, h => by rw [fillValue, fillValue, fillAll_congr xs h]
  | .dict es, h => by rw [fillValue, fillValue, fillEntries_congr es h]
  | .null, _ | .bool _, _ | .int _, _ | .float _, _ | .bytes _, _ | .date _, _ | .moment _, _
  | .duration _, _ | .set _, _ | .handle _, _ | .inner .., _ => rfl

theorem fillAll_congr :
    (xs : List Value) → LookAlike scopes scopes' (pathsInAll xs) →
      fillAll scopes xs = fillAll scopes' xs
  | [], _ => rfl
  | x :: xs, h => by rw [fillAll, fillAll, fillValue_congr x h.left, fillAll_congr xs h.right]

theorem fillEntries_congr :
    (es : List (Value × Value)) → LookAlike scopes scopes' (pathsInEntries es) →
      fillEntries scopes es = fillEntries scopes' es
  | [], _ => rfl
  | (k, v) :: rest, h => by
    rw [fillEntries, fillEntries, fillValue_congr v h.left, fillEntries_congr rest h.right]

end

end Template

end BlockSuite
