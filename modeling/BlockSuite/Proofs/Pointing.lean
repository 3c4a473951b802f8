import Mathlib.Data.List.Basic
import Mathlib.Tactic.Common
import BlockSuite.Check.Located

/-!
Where the error of a document points to. The path of a remark is walked from the document: a key
that is there leads to what is under it, and a key that a container lacks is passed over. What holds
nothing ends the walk, and where keys are left it leads nowhere. So the walk follows some of the
keys, in their order, and what it comes to is what these keys lead to by themselves.
-/

namespace BlockSuite

namespace Value

/-- What is under a key: an item of a sequence, or the value of a member of a mapping. -/
def under : Value → Key → Option Value
  | list xs, .index i | tuple xs, .index i => if 0 ≤ i then xs[i.toNat]? else none
  | dict es, key => (es.find? fun e => same e.1 key.toValue).map (·.2)
  | _, _ => none

/-- Whether a value has others under keys, or could have. -/
def isContainer : Value → Bool
  | list _ | tuple _ | dict _ => true
  | _ => false

/-- What is at the end of a path, if all of its keys are there. -/
def at? (v : Value) (path : List Key) : Option Value := path.foldlM under v

/-- A value alone under its key, in a container like the one it is from. -/
def alone (container : Value) (key : Key) (v : Value) : Value :=
  match container with
  | dict _ => dict [(key.toValue, v)]
  | _ => list [v]

end Value

namespace Invalid

variable {v w x doc : Value} {k : Key} {path ks : List Key} {r : Remark}

/-- A walk along a path, with the keys that it follows and the value that it comes to. -/
inductive Walk : Value → List Key → List Key → Value → Prop
  | done (v : Value) : Walk v [] [] v
  | follow {v w x : Value} {k : Key} {path ks : List Key} (there : v.under k = some w)
    (next : Walk w path ks x) : Walk v (k :: path) (k :: ks) x
  | skip {v x : Value} {k : Key} {path ks : List Key} (container : v.isContainer = true)
    (lacks : v.under k = none) (next : Walk v path ks x) : Walk v (k :: path) ks x

/-- A remark can be located: the walk along its path follows a key, and there is something said in
it. -/
structure Locatable (doc : Value) (r : Remark) : Prop where
  walk : ∃ ks x, ks ≠ [] ∧ Walk doc r.path ks x
  line : ∃ line ∈ Text.lines r.message, Text.isBlankText line = false

/-- What an error is about that points to a remark: the first line that says something, and the
value that the walk comes to, under the last key that it follows. -/
structure PointsTo (doc : Value) (r : Remark) (message : Value) (element : Option Value) :
    Prop where
  line : ∃ blanks line rest, Text.lines r.message = blanks ++ line :: rest ∧
    (∀ b ∈ blanks, Text.isBlankText b = true) ∧ Text.isBlankText line = false ∧
    message = .text (Text.trim line)
  part : ∃ ks k container x, Walk doc r.path (ks ++ [k]) x ∧ (ks ++ [k]).Sublist r.path ∧
    doc.at? ks = some container ∧ doc.at? (ks ++ [k]) = some x ∧
    element = some (container.alone k x) ∧ ∀ y, doc.at? r.path = some y → x = y

/-! ### Walks -/

lemma at?_cons (there : v.under k = some w) (path : List Key) : v.at? (k :: path) = w.at? path := by
  rw [Value.at?, List.foldlM_cons, there]
  rfl

namespace Walk

variable (h : Walk v path ks x)
include h

/-- The keys that are followed stand in the path in this order. -/
lemma sublist : ks.Sublist path := by
  induction h with
  | done => exact .slnil
  | follow _ _ ih => exact ih.cons_cons _
  | skip _ _ _ ih => exact ih.cons _

/-- They lead to the same value by themselves. -/
lemma at? : v.at? ks = some x := by
  induction h with
  | done => rfl
  | follow there _ ih => rw [at?_cons there, ih]
  | skip _ _ _ ih => exact ih

/-- Where the whole path is there, the walk comes to its end. -/
lemma eq_of_at? {y : Value} (hy : v.at? path = some y) : x = y := by
  induction h with
  | done => exact Option.some.inj hy
  | follow there _ ih => exact ih (by rwa [at?_cons there] at hy)
  | skip _ lacks _ _ =>
    rw [Value.at?, List.foldlM_cons, lacks] at hy
    cases hy

end Walk

/-! ### Following a path -/

/-- The first match of a search by position is that of the search itself. -/
lemma findIdx?_find? {α β : Type} (p : α → Bool) (f : Nat → α → β) (xs : List α) :
    (∃ i a, xs.find? p = some a ∧ ((xs.findIdx? p).bind fun i => xs[i]?.map (f i)) = some (f i a)) ∨
      xs.find? p = none ∧ ((xs.findIdx? p).bind fun i => xs[i]?.map (f i)) = none := by
  cases hfind : xs.findIdx? p with
  | none =>
    rw [List.findIdx?_eq_none_iff] at hfind
    exact .inr ⟨List.find?_eq_none.mpr fun x hx => by simp [hfind x hx], rfl⟩
  | some i =>
    obtain ⟨hi, hp, hbefore⟩ := List.findIdx?_eq_some_iff_getElem.mp hfind
    refine .inl ⟨i, xs[i], List.find?_eq_some_iff_getElem.mpr ⟨hp, i, hi, rfl, ?_⟩, ?_⟩
    · exact fun j hj => by simpa using hbefore j hj
    · rw [Option.bind_some, List.getElem?_eq_getElem hi]
      rfl

/-- A step along a path leads to what is under the key, stays where a container lacks the key, and
leads nowhere from what holds nothing. -/
lemma step?_cases (p : Part) (k : Key) :
    (∃ w o, p.1.under k = some w ∧ step? p k = some (some (w, o))) ∨
      (p.1.isContainer = true ∧ p.1.under k = none ∧ step? p k = some none) ∨
      p.1.isContainer = false ∧ p.1.under k = none ∧ step? p k = none := by
  obtain ⟨v, o⟩ := p
  have hitem (xs : List Value) (i : Int) :
      (∃ w o', (if 0 ≤ i then xs[i.toNat]? else none) = some w ∧
        (if 0 ≤ i then (xs[i.toNat]?).map (·, o.part i.toNat) else none) = some (w, o')) ∨
      (if 0 ≤ i then xs[i.toNat]? else none) = none ∧
        (if 0 ≤ i then (xs[i.toNat]?).map (·, o.part i.toNat) else none) = none := by
    split
    · cases xs[i.toNat]? with
      | none => exact .inr ⟨rfl, rfl⟩
      | some w => exact .inl ⟨w, _, rfl, rfl⟩
    · exact .inr ⟨rfl, rfl⟩
  cases v with
  | list xs | tuple xs =>
    cases k with
    | name s => exact .inr (.inl ⟨rfl, rfl, rfl⟩)
    | index i =>
      rcases hitem xs i with ⟨w, o', hw, hs⟩ | ⟨hw, hs⟩
      · exact .inl ⟨w, o', hw, congrArg some hs⟩
      · exact .inr (.inl ⟨rfl, hw, congrArg some hs⟩)
  | dict es =>
    rcases findIdx?_find? (fun e => Value.same e.1 k.toValue)
      (fun i e => (e.2, o.part (2 * i + 1))) es with ⟨i, e, hfind, hs⟩ | ⟨hfind, hs⟩
    · exact .inl ⟨e.2, _, by rw [Value.under, hfind]; rfl, congrArg some hs⟩
    · exact .inr (.inl ⟨rfl, by rw [Value.under, hfind]; rfl, congrArg some hs⟩)
  | _ => exact .inr (.inr ⟨rfl, rfl, rfl⟩)

/-- A path that is followed to its end was walked. -/
lemma walk_of_follow {a b : Reach} (h : follow a path = some b) :
    ∃ ks, Walk a.part.1 path ks b.part.1 := by
  induction path generalizing a with
  | nil =>
    cases h
    exact ⟨[], .done _⟩
  | cons k path ih =>
    rw [follow] at h
    rcases step?_cases a.part k with ⟨w, o, there, hs⟩ | ⟨container, lacks, hs⟩ | ⟨-, -, hs⟩
    · rw [hs] at h
      obtain ⟨ks, next⟩ := ih h
      exact ⟨k :: ks, .follow there next⟩
    · rw [hs] at h
      obtain ⟨ks, next⟩ := ih h
      exact ⟨ks, .skip container lacks next⟩
    · rw [hs] at h
      cases h

/-- How far a walk leads: it stays at its start, or it comes to its value from the one that the keys
before the last one lead to. -/
inductive Leads (a : Reach) (ks : List Key) (b : Reach) : Prop
  | stays (nothing : ks = []) (same : b = a) : Leads a ks b
  | last (init : List Key) (k : Key) (keys : ks = init ++ [k]) (key : b.key = some k)
    (container : a.part.1.at? init = some b.container) : Leads a ks b

/-- What is walked is followed to its end. -/
lemma follow_of_walk {a : Reach} (h : Walk a.part.1 path ks x) :
    ∃ b, follow a path = some b ∧ b.part.1 = x ∧ Leads a ks b := by
  generalize hv : a.part.1 = v at h
  induction h generalizing a with
  | done v => exact ⟨a, rfl, hv, .stays rfl rfl⟩
  | @follow v w x k path ks there next ih =>
    subst hv
    rcases step?_cases a.part k with ⟨w', o, there', hs⟩ | ⟨-, lacks, -⟩ | ⟨-, lacks, -⟩
    · obtain rfl := Option.some.inj (there'.symm.trans there)
      obtain ⟨b, hb, hx, hleads⟩ := ih (a := ⟨a.part.1, (w', o), some k⟩) rfl
      refine ⟨b, by rw [follow, hs]; exact hb, hx, ?_⟩
      cases hleads with
      | stays nothing same =>
        subst nothing same
        exact .last [] k rfl rfl rfl
      | last init k' keys key container =>
        subst keys
        exact .last (k :: init) k' rfl key (by rw [at?_cons there, container])
    · rw [there] at lacks
      cases lacks
    · rw [there] at lacks
      cases lacks
  | @skip v x k path ks container lacks next ih =>
    subst hv
    rcases step?_cases a.part k with ⟨w, o, there, -⟩ | ⟨-, -, hs⟩ | ⟨holds, -, -⟩
    · rw [there] at lacks
      cases lacks
    · obtain ⟨b, hb, hleads⟩ := ih rfl
      exact ⟨b, by rw [follow, hs]; exact hb, hleads⟩
    · rw [holds] at container
      cases container

/-! ### Remarks -/

/-- Some line of a message says something, or it has no first line. -/
lemma firstLine?_cases (message : String) :
    (∃ blanks line rest, Text.lines message = blanks ++ line :: rest ∧
      (∀ b ∈ blanks, Text.isBlankText b = true) ∧ Text.isBlankText line = false ∧
      firstLine? message = some (Text.trim line)) ∨
      (∀ line ∈ Text.lines message, Text.isBlankText line = true) ∧ firstLine? message = none := by
  unfold firstLine?
  cases h : (Text.lines message).find? fun line => !Text.isBlankText line with
  | none => exact .inr ⟨fun line hline => by simpa using List.find?_eq_none.mp h line hline, rfl⟩
  | some line =>
    obtain ⟨hline, blanks, rest, hlines, hblanks⟩ := List.find?_eq_some_iff_append.mp h
    exact .inl ⟨blanks, line, rest, hlines, fun b hb => by simpa using hblanks b hb,
      by simpa using hline, rfl⟩

/-- A remark that can be located gives what the error is about. -/
lemma Locatable.locate? (h : Locatable doc r) (o : Origins) : ∃ message element,
    locate? (doc, o) r = some (message, element) ∧
      PointsTo doc r (.text message) (some element.1) := by
  obtain ⟨ks, x, hne, hwalk⟩ := h.walk
  obtain ⟨b, hb, rfl, hleads⟩ := follow_of_walk (a := ⟨doc, (doc, o), none⟩) hwalk
  cases hleads with
  | stays nothing => exact absurd nothing hne
  | last init k keys key container =>
    subst keys
    rcases firstLine?_cases r.message with ⟨blanks, line, rest, hline⟩ | ⟨hblank, -⟩
    swap
    · obtain ⟨line, hline, hsays⟩ := h.line
      rw [hblank line hline] at hsays
      cases hsays
    obtain ⟨hlines, hblanks, hsays, hfirst⟩ := hline
    have hpoints : PointsTo doc r (.text (Text.trim line)) (some (b.container.alone k b.part.1)) :=
      ⟨⟨blanks, line, rest, hlines, hblanks, hsays, rfl⟩, init, k, b.container, b.part.1, hwalk,
        hwalk.sublist, container, hwalk.at?, rfl, fun y hy => hwalk.eq_of_at? hy⟩
    have hlocate : ∃ o', Invalid.locate? (doc, o) r =
        some (Text.trim line, b.container.alone k b.part.1, o') := by
      simp only [Invalid.locate?, hb, key, hfirst, Option.bind_eq_bind, Option.bind_some]
      generalize b.container = v
      cases v <;> exact ⟨_, rfl⟩
    obtain ⟨o', hlocate⟩ := hlocate
    exact ⟨_, _, hlocate, hpoints⟩

/-- No other remark gives anything. -/
lemma locatable_of_locate? {o : Origins} {p : String × Part}
    (h : locate? (doc, o) r = some p) : Locatable doc r := by
  simp only [Invalid.locate?, Option.bind_eq_bind, Option.bind_eq_some_iff] at h
  obtain ⟨b, hb, k, key, line, hfirst, -⟩ := h
  obtain ⟨ks, hwalk⟩ := walk_of_follow hb
  refine ⟨⟨ks, b.part.1, ?_, hwalk⟩, ?_⟩
  · obtain ⟨b', hb', -, hleads⟩ := follow_of_walk (a := ⟨doc, (doc, o), none⟩) hwalk
    obtain rfl := Option.some.inj (hb.symm.trans hb')
    rintro rfl
    cases hleads with
    | stays nothing same =>
      rw [same] at key
      cases key
    | last init k keys => simp at keys
  · rcases firstLine?_cases r.message with ⟨blanks, line', rest, hlines, -, hsays, -⟩ | ⟨-, hnone⟩
    · exact ⟨line', by simp [hlines], hsays⟩
    · rw [hnone] at hfirst
      cases hfirst

/-- **Errors point into the document.** The error of a document that has members, whatever is
remarked about it, is about the first remark that can be located: its message is what that says
first, and it shows what the keys of its path lead to as far as they are there. If no remark can be
located, the whole document is shown. -/
theorem errors_point_into_document (e : Value × Value) (es : List (Value × Value))
    (remarks : List Remark) (origins : Origins) (filename : Option String) :
    (pointed remarks (.dict (e :: es), origins) filename).reason = .schema ∧
      (pointed remarks (.dict (e :: es), origins) filename).place.filename =
        some (.ofText? filename) ∧
      ((∀ r ∈ remarks, ¬Locatable (.dict (e :: es)) r) →
        (pointed remarks (.dict (e :: es), origins) filename).message = .text "Validation error" ∧
          (pointed remarks (.dict (e :: es), origins) filename).place.element =
            some (.dict (e :: es))) ∧
      ∀ before r after, remarks = before ++ r :: after →
        (∀ q ∈ before, ¬Locatable (.dict (e :: es)) q) → Locatable (.dict (e :: es)) r →
          PointsTo (.dict (e :: es)) r
            (pointed remarks (.dict (e :: es), origins) filename).message
            (pointed remarks (.dict (e :: es), origins) filename).place.element := by
  have hnone (rs : List Remark) (h : ∀ r ∈ rs, ¬Locatable (.dict (e :: es)) r) :
      rs.findSome? (locate? (.dict (e :: es), origins)) = none := by
    refine List.findSome?_eq_none_iff.mpr fun r hr => ?_
    by_contra hsome
    obtain ⟨p, hp⟩ := Option.ne_none_iff_exists'.mp hsome
    exact h r hr (locatable_of_locate? hp)
  refine ⟨?_, ?_, fun h => ?_, fun before r after hremarks hbefore hr => ?_⟩
  · unfold pointed
    dsimp only
    split <;> rfl
  · unfold pointed
    dsimp only
    split <;> rfl
  · simp only [pointed, hnone remarks h, and_self]
  · obtain ⟨message, element, hlocate, hpoints⟩ := hr.locate? origins
    have hfirst : remarks.findSome? (locate? (.dict (e :: es), origins)) =
        some (message, element) := by
      rw [hremarks, List.findSome?_append, hnone before hbefore, List.findSome?_cons, hlocate]
      rfl
    simpa only [pointed, hfirst] using hpoints

/-- A document of one test with a step that lacks its type. -/
def unfinished : List (Value × Value) :=
  [(.text "tests", .list [.dict [(.text "steps", .list [.dict [(.text "id", .text "a")]])]])]

/-- A remark about nothing that the document has. -/
def astray : Remark := ⟨[.index 0, .name "name"], "Field required"⟩

/-- A remark about the step, in words that begin on a second line. -/
def typeless : Remark :=
  ⟨[.name "tests", .index 0, .name "steps", .index 0, .name "type"], "\n Field required"⟩

theorem errors_point_into_document_unfinished :
    ¬Locatable (.dict unfinished) astray ∧ Locatable (.dict unfinished) typeless ∧
      PointsTo (.dict unfinished) typeless (.text "Field required")
        (some (.list [.dict [(.text "id", .text "a")]])) := by
  have hastray : ¬Locatable (.dict unfinished) astray := fun h => by
    obtain ⟨message, element, hlocate, -⟩ := h.locate? .unknown
    have hnone : locate? (.dict unfinished, .unknown) astray = none := rfl
    rw [hnone] at hlocate
    cases hlocate
  have htypeless : Locatable (.dict unfinished) typeless := by
    have hsome : (locate? (.dict unfinished, .unknown) typeless).isSome = true := rfl
    obtain ⟨p, hp⟩ := Option.isSome_iff_exists.mp hsome
    exact locatable_of_locate? hp
  have hpoints := (errors_point_into_document _ _ [astray, typeless] .unknown none).2.2.2
    [astray] typeless [] rfl (fun q hq => List.mem_singleton.mp hq ▸ hastray) htypeless
  have hmessage : (pointed [astray, typeless] (.dict unfinished, .unknown) none).message =
      .text "Field required" := rfl
  have helement : (pointed [astray, typeless] (.dict unfinished, .unknown) none).place.element =
      some (.list [.dict [(.text "id", .text "a")]]) := rfl
  rw [← hmessage, ← helement]
  exact ⟨hastray, htypeless, hpoints⟩

end Invalid

end BlockSuite
