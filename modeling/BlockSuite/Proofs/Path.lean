import BlockSuite.Proofs.Action
import BlockSuite.Proofs.Name

/-!
Following paths. A path is followed segment by segment, so that one in two parts is followed by
following the second part from where the first one leads. A path never leads to null. Nothing keeps
it from being followed but a position in a list or a tuple that has too many digits to be read. The
text of a path is its name just where it is an identifier.
-/

namespace BlockSuite

namespace Text

variable {c sep : Char} {cs name : List Char} {rest : List (List Char)}

/-! ### Names of paths -/

lemma trimRight_sublist (cs : List Char) : (trimRight cs).Sublist cs := by
  simpa [trimRight] using (List.dropWhile_sublist isBlank (l := cs.reverse)).reverse

lemma trimChars_sublist (cs : List Char) : (trimChars cs).Sublist cs :=
  (trimRight_sublist _).trans (List.dropWhile_sublist isBlank)

/-- A trimmed text does not end with a blank. -/
lemma isBlank_of_getLast? (h : (trimChars cs).getLast? = some c) : isBlank c = false := by
  rw [trimChars, trimRight, List.getLast?_reverse] at h
  have hnot := List.head?_dropWhile_not isBlank (trimLeft cs).reverse
  rw [h] at hnot
  simpa using hnot

/-- The first piece of a text begins it. -/
lemma prefix_of_splitChars (h : splitChars sep cs = name :: rest) : name <+: cs := by
  induction cs generalizing name rest with
  | nil =>
    cases h
    exact List.nil_prefix
  | cons c cs ih =>
    rw [splitChars] at h
    split at h
    · cases h
      exact List.nil_prefix
    · split at h
      · next hnil => exact absurd hnil (splitChars_ne_nil sep cs)
      · next piece pieces hpieces =>
        cases h
        exact List.cons_prefix_cons.mpr ⟨rfl, ih hpieces⟩

end Text

/-- **A text that is the name of the path it spells is an identifier.** -/
theorem Path.identifier_of_name {s : String} {p : Path} (h : Path.ofText s = .ok p)
    (hname : p.name = s) : Name.isIdentifier s.toList = true := by
  rw [Path.ofText, Text.splitAt] at h
  cases hpieces : Text.splitChars '.' (Text.trim s).toList with
  | nil => exact absurd hpieces (Text.splitChars_ne_nil _ _)
  | cons name rest =>
    rw [hpieces, List.map_cons] at h
    dsimp only at h
    split at h
    · next hmatch =>
      cases h
      obtain rfl : String.ofList name = s := hname
      have hprefix := Text.prefix_of_splitChars hpieces
      rw [Text.trim, String.toList_ofList, String.toList_ofList] at hprefix
      -- The name is no longer than the trimmed text, so that nothing is trimmed.
      have htrim : Text.trimChars name = name :=
        (Text.trimChars_sublist name).antisymm hprefix.sublist
      have hfeed : Text.dropLineFeed name = name := by
        rw [Text.dropLineFeed, if_neg]
        intro hlast
        rw [← htrim] at hlast
        exact absurd (Text.isBlank_of_getLast? hlast) (by decide)
      rw [Name.matchVariable?, String.toList_ofList, hfeed] at hmatch
      by_contra hnot
      rw [String.toList_ofList] at hnot
      rw [if_neg hnot] at hmatch
      cases hmatch
    · cases h

/-! ### Positions -/

namespace Text

variable {c : Char} {cs : List Char}

/-- A decimal digit of any script is no blank. -/
lemma isBlank_of_isDecimal (h : isDecimal c = true) : isBlank c = false := by
  by_contra hblank
  rw [Bool.not_eq_false] at hblank
  rw [isDecimal, digitValue?, Option.isSome_map] at h
  obtain ⟨z, hz⟩ := Option.isSome_iff_exists.mp h
  by_cases hc : 0x80 ≤ c.toNat
  · have hwide : ∀ n ∈ wideBlanks, zeros.find? (fun z => z ≤ n && n < z + 10) = none := by
      decide +kernel
    rw [hwide _ (mem_wideBlanks hblank hc)] at hz
    cases hz
  · have hnarrow : ∀ z ∈ zeros, z < 0x80 → z = 0x30 := by decide +kernel
    have hbounds := List.find?_some hz
    simp only [Bool.and_eq_true, decide_eq_true_eq] at hbounds
    obtain rfl := hnarrow z (List.mem_of_find?_eq_some hz) (by omega)
    simp only [isBlank, Bool.or_eq_true, Bool.and_eq_true, decide_eq_true_eq, beq_iff_eq] at hblank
    omega

end Text

namespace Number

variable {cs : List Char} {key : String}

/-- Decimal digits are read one by one. -/
lemma digitsOf?_decimals (hne : cs ≠ []) (h : ∀ c ∈ cs, Text.isDecimal c = true) :
    ∃ ds, digitsOf? cs = some ds ∧ ds.length = cs.length := by
  induction cs with
  | nil => exact absurd rfl hne
  | cons c rest ih =>
    obtain ⟨d, hd⟩ := Option.isSome_iff_exists.mp (h c List.mem_cons_self)
    cases rest with
    | nil => exact ⟨[d], by rw [digitsOf?, hd]; rfl, rfl⟩
    | cons c' rest =>
      obtain ⟨ds, hds, hlength⟩ := ih (by simp) fun x hx => h x (List.mem_cons_of_mem _ hx)
      refine ⟨d :: ds, ?_, congrArg (· + 1) hlength⟩
      rw [digitsOf?, hd, hds]
      · rfl
      · simp
      · rintro rest' heq
        have hscore := h '_' (by rw [heq]; simp)
        exact absurd hscore (by decide)

/-- Decimal digits are read as a whole number, unless they are too many. -/
lemma readInt_decimals (hne : key ≠ "") (h : key.toList.all Text.isDecimal = true) :
    (maxDigits < key.length ∧ readInt key = .error (.tooLong key.length)) ∨
      ¬maxDigits < key.length ∧ ∃ i, readInt key = .ok i := by
  rw [List.all_eq_true] at h
  have hcs : key.toList ≠ [] := by simpa using hne
  obtain ⟨ds, hds, hlength⟩ := digitsOf?_decimals hcs h
  have hsign : takeSign key.toList = (false, key.toList) := by
    rw [takeSign]
    · intro rest heq
      exact absurd (h '-' (by rw [heq]; simp)) (by decide)
    · intro rest heq
      exact absurd (h '+' (by rw [heq]; simp)) (by decide)
  rw [readInt, Text.trimChars_of_not_blank fun c hc => Text.isBlank_of_isDecimal (h c hc), hsign]
  dsimp only
  rw [hds]
  dsimp only
  rw [hlength, String.length_toList]
  split
  · next hlong => exact .inl ⟨hlong, rfl⟩
  · next hshort => exact .inr ⟨hshort, _, rfl⟩

end Number

namespace Value

variable {v w : Value} {key : String} {segments : List String}

/-- Lists and tuples, which have positions. -/
def isSequence : Value → Bool
  | list _ | tuple _ => true
  | _ => false

/-- A position that has too many digits to be read. -/
def Overlong (key : String) : Prop :=
  key.toList.all Text.isDecimal = true ∧ Number.maxDigits < key.length

instance (key : String) : Decidable (Overlong key) := inferInstanceAs (Decidable (_ ∧ _))

lemma itemAt?_cases (items : List Value) (hne : key ≠ "") :
    (Overlong key ∧ itemAt? items key = .error (.tooManyDigitsIn key.length)) ∨
      ¬Overlong key ∧ ∃ found, itemAt? items key = .ok found := by
  by_cases hdigits : key.toList.all Text.isDecimal = true
  · rcases Number.readInt_decimals hne hdigits with ⟨hlong, hread⟩ | ⟨hshort, i, hread⟩
    · exact .inl ⟨⟨hdigits, hlong⟩, by rw [itemAt?, if_pos hdigits, hread]⟩
    · exact .inr ⟨fun h => hshort h.2, _, by rw [itemAt?, if_pos hdigits, hread]⟩
  · exact .inr ⟨fun h => hdigits h.1, none, by rw [itemAt?, if_neg hdigits]⟩

/-- A segment leads somewhere or nowhere, unless it is a position that is not read. -/
lemma child?_cases (v : Value) (key : String) :
    (v.isSequence = true ∧ Overlong key ∧ v.child? key = .error (.tooManyDigitsIn key.length)) ∨
      ¬(v.isSequence = true ∧ Overlong key) ∧ ∃ found, v.child? key = .ok found := by
  by_cases hne : key = ""
  · subst hne
    exact .inr ⟨fun h => absurd h.2.2 (by decide), none, rfl⟩
  · have hempty : key.isEmpty = false := by simpa using hne
    unfold child?
    rw [hempty]
    cases v with
    | list items | tuple items =>
      rcases itemAt?_cases items hne with ⟨hlong, hitem⟩ | ⟨hshort, found, hitem⟩
      · exact .inl ⟨rfl, hlong, hitem⟩
      · exact .inr ⟨fun h => hshort h.2, found, hitem⟩
    | _ => exact .inr ⟨fun h => (nomatch h.1), _, rfl⟩

/-! ### Paths in parts -/

lemma follow_cons (hv : v ≠ .null) (key : String) (rest : List String) :
    v.follow (key :: rest) = (do
      match ← v.child? key with
      | none => return none
      | some next => next.follow rest) := by
  cases v with
  | null => exact absurd rfl hv
  | _ => rfl

lemma follow_nil (hv : v ≠ .null) : v.follow [] = .ok (some v) := by
  cases v with
  | null => exact absurd rfl hv
  | _ => rfl

/-- **A path in two parts is followed part by part.** -/
theorem follow_append (v : Value) (first second : List String) :
    v.follow (first ++ second) = (do
      match ← v.follow first with
      | none => return none
      | some w => w.follow second) := by
  induction first generalizing v with
  | nil =>
    by_cases hv : v = .null
    · subst hv
      rw [follow_null, follow_null]
      rfl
    · rw [follow_nil hv]
      rfl
  | cons key rest ih =>
    by_cases hv : v = .null
    · subst hv
      rw [follow_null, follow_null]
      rfl
    · rw [List.cons_append, follow_cons hv, follow_cons hv]
      rcases child?_cases v key with ⟨-, -, hchild⟩ | ⟨-, found, hchild⟩
      · rw [hchild]
        rfl
      · rw [hchild]
        cases found with
        | none => rfl
        | some next => exact ih next

/-- A path never leads to null. -/
lemma follow_ne_null (v : Value) (segments : List String) :
    v.follow segments ≠ .ok (some .null) := by
  induction segments generalizing v with
  | nil =>
    by_cases hv : v = .null
    · subst hv
      simp
    · rw [follow_nil hv]
      simpa using hv
  | cons key rest ih =>
    by_cases hv : v = .null
    · subst hv
      simp
    · rw [follow_cons hv]
      intro h
      obtain ⟨found, -, h⟩ := except_bind_ok h
      cases found with
      | none => cases h
      | some next => exact ih next h

/-- A path comes upon a position that is not read, in a list or a tuple that its part before this
position leads to. -/
inductive Overruns (v : Value) (segments : List String) : String → Prop
  | mk {before after : List String} {key : String} {w : Value}
    (parts : segments = before ++ key :: after) (reached : v.follow before = .ok (some w))
    (sequence : w.isSequence = true) (overlong : Overlong key) : Overruns v segments key

lemma Overruns.here (hv : v.isSequence = true) (hkey : Overlong key) (rest : List String) :
    v.Overruns (key :: rest) key := by
  have hnull : v ≠ .null := by
    rintro rfl
    cases hv
  have hparts : key :: rest = [] ++ key :: rest := rfl
  exact ⟨hparts, follow_nil hnull, hv, hkey⟩

lemma Overruns.behind {next : Value} {k : String} (hv : v ≠ .null)
    (hchild : v.child? key = .ok (some next)) (h : next.Overruns segments k) :
    v.Overruns (key :: segments) k := by
  obtain @⟨before, after, k, w, rfl, reached, sequence, overlong⟩ := h
  have hparts : key :: (before ++ k :: after) = (key :: before) ++ k :: after := rfl
  refine ⟨hparts, ?_, sequence, overlong⟩
  rw [follow_cons hv, hchild]
  exact reached

/-- A path is followed to its end, unless it comes upon a position that is not read. -/
lemma follow_cases (v : Value) (segments : List String) :
    (∃ found, v.follow segments = .ok found) ∨
      ∃ key, v.Overruns segments key ∧
        v.follow segments = .error (.tooManyDigitsIn key.length) := by
  induction segments generalizing v with
  | nil =>
    by_cases hv : v = .null
    · subst hv
      exact .inl ⟨none, rfl⟩
    · exact .inl ⟨some v, follow_nil hv⟩
  | cons key rest ih =>
    by_cases hv : v = .null
    · subst hv
      exact .inl ⟨none, rfl⟩
    · rw [follow_cons hv]
      rcases child?_cases v key with ⟨hseq, hkey, hchild⟩ | ⟨-, found, hchild⟩
      · exact .inr ⟨key, .here hseq hkey rest, by rw [hchild]; rfl⟩
      · rw [hchild]
        cases found with
        | none => exact .inl ⟨none, rfl⟩
        | some next =>
          rcases ih next with hdone | ⟨k, hk, hfail⟩
          · exact .inl hdone
          · exact .inr ⟨k, hk.behind hv hchild, hfail⟩

/-- Where a path comes upon a position that is not read, following it fails. -/
lemma Overruns.fails (h : v.Overruns segments key) :
    v.follow segments = .error (.tooManyDigitsIn key.length) := by
  obtain @⟨before, after, key, w, rfl, reached, sequence, overlong⟩ := h
  have hw : w ≠ .null := by
    rintro rfl
    cases sequence
  rw [follow_append, reached]
  change w.follow (key :: after) = _
  rw [follow_cons hw]
  rcases child?_cases w key with ⟨-, -, hchild⟩ | ⟨hnot, -⟩
  · rw [hchild]
    rfl
  · exact absurd ⟨sequence, overlong⟩ hnot

/-- **A path is followed to its end just if no position keeps it from that.** -/
theorem follow_ok_iff : (∃ found, v.follow segments = .ok found) ↔
    ∀ key, ¬v.Overruns segments key := by
  constructor
  · rintro ⟨found, hfound⟩ key h
    rw [h.fails] at hfound
    cases hfound
  · intro h
    rcases follow_cases v segments with hdone | ⟨key, hkey, -⟩
    · exact hdone
    · exact absurd hkey (h key)

lemma Overruns.mem (h : v.Overruns segments key) : key ∈ segments ∧ Overlong key := by
  obtain ⟨rfl, -, -, overlong⟩ := h
  exact ⟨by simp, overlong⟩

end Value

/-! ### Scopes -/

/-- A scope that binds a name to nothing but null, if at all. -/
def Dict.Unbound (scope : Dict Value) (name : String) : Prop :=
  ∀ v, scope.get? name = some v → v = .null

namespace Scopes

variable {scopes : Scopes} {scope : Dict Value} {name : String} {v : Value}

lemma binding?_cons_unbound (h : scope.Unbound name) (rest : Scopes) :
    binding? (scope :: rest) name = binding? rest name := by
  unfold binding?
  rw [List.findSome?_cons]
  cases hget : scope.get? name with
  | none => rfl
  | some w =>
    obtain rfl := h w hget
    rfl

lemma binding?_cons_bound (h : scope.get? name = some v) (hv : v ≠ .null) (rest : Scopes) :
    binding? (scope :: rest) name = some v := by
  unfold binding?
  rw [List.findSome?_cons, h]
  cases v with
  | null => exact absurd rfl hv
  | _ => rfl

/-- A name is looked up in the first scope that binds it to something. -/
lemma binding?_first {before : Scopes} (h : ∀ d ∈ before, d.Unbound name)
    (hscope : scope.get? name = some v) (hv : v ≠ .null) (after : Scopes) :
    binding? (before ++ scope :: after) name = some v := by
  induction before with
  | nil => exact binding?_cons_bound hscope hv after
  | cons d rest ih =>
    rw [List.cons_append, binding?_cons_unbound (h d List.mem_cons_self)]
    exact ih fun x hx => h x (List.mem_cons_of_mem _ hx)

lemma binding?_unbound (h : ∀ d ∈ scopes, d.Unbound name) : binding? scopes name = none := by
  induction scopes with
  | nil => rfl
  | cons d rest ih =>
    rw [binding?_cons_unbound (h d List.mem_cons_self)]
    exact ih fun x hx => h x (List.mem_cons_of_mem _ hx)

/-- Some scope is the first that binds a name to something, or none does. -/
lemma unbound_or_first (scopes : Scopes) (name : String) :
    (∀ d ∈ scopes, d.Unbound name) ∨ ∃ before scope after v, scopes = before ++ scope :: after ∧
      (∀ d ∈ before, d.Unbound name) ∧ scope.get? name = some v ∧ v ≠ .null := by
  induction scopes with
  | nil => exact .inl nofun
  | cons d rest ih =>
    by_cases hd : d.Unbound name
    · rcases ih with hrest | ⟨before, scope, after, v, rfl, hbefore, hscope, hv⟩
      · exact .inl (List.forall_mem_cons.mpr ⟨hd, hrest⟩)
      · exact .inr ⟨d :: before, scope, after, v, rfl, List.forall_mem_cons.mpr ⟨hd, hbefore⟩,
          hscope, hv⟩
    · simp only [Dict.Unbound, not_forall] at hd
      obtain ⟨v, hscope, hv⟩ := hd
      exact .inr ⟨[], d, rest, v, rfl, nofun, hscope, hv⟩

lemma lookup_of_binding {p : Path} (h : scopes.binding? p.name = some v) :
    scopes.lookup p = v.follow p.segments := by
  rw [lookup, h]

lemma lookup_unbound {p : Path} (h : ∀ d ∈ scopes, d.Unbound p.name) :
    scopes.lookup p = .ok none := by
  rw [lookup, binding?_unbound h]

/-- **Looking a path up.** The first scope that binds its name to something decides: the rest of
the path is followed from there, and scopes behind it change nothing, even where the path leads
nowhere in it. The path is followed part by part, and never leads to null. -/
theorem lookups_are_compositional {p : Path} (short : ∀ key ∈ p.segments, ¬Value.Overlong key) :
    (∀ scopes : Scopes, ∃ found, scopes.lookup p = .ok found ∧ found ≠ some .null) ∧
    (∀ scopes : Scopes, (∀ d ∈ scopes, d.Unbound p.name) → scopes.lookup p = .ok none) ∧
    (∀ (before after : Scopes) (scope : Dict Value) (v : Value),
      (∀ d ∈ before, d.Unbound p.name) → scope.get? p.name = some v → v ≠ .null →
        Scopes.lookup (before ++ scope :: after) p = v.follow p.segments) ∧
    (∀ (v : Value) (first second : List String), v.follow (first ++ second) = (do
      match ← v.follow first with
      | none => return none
      | some w => w.follow second)) ∧
    ∀ scopes more : Scopes, (∃ d ∈ scopes, ¬d.Unbound p.name) →
      Scopes.lookup (scopes ++ more) p = scopes.lookup p := by
  have hfirst (before after : Scopes) (scope : Dict Value) (v : Value)
      (hbefore : ∀ d ∈ before, d.Unbound p.name) (hscope : scope.get? p.name = some v)
      (hv : v ≠ .null) : Scopes.lookup (before ++ scope :: after) p = v.follow p.segments :=
    lookup_of_binding (binding?_first hbefore hscope hv after)
  refine ⟨fun scopes => ?_, fun scopes => lookup_unbound, hfirst, Value.follow_append,
    fun scopes more hbound => ?_⟩
  · rcases unbound_or_first scopes p.name with hnone |
      ⟨before, scope, after, v, rfl, hbefore, hscope, hv⟩
    · exact ⟨none, lookup_unbound hnone, by simp⟩
    · rw [hfirst before after scope v hbefore hscope hv]
      obtain ⟨found, hfound⟩ := Value.follow_ok_iff.mpr
        fun key (h : v.Overruns p.segments key) => short key h.mem.1 h.mem.2
      refine ⟨found, hfound, ?_⟩
      rintro rfl
      exact Value.follow_ne_null v _ hfound
  · rcases unbound_or_first scopes p.name with hnone |
      ⟨before, scope, after, v, rfl, hbefore, hscope, hv⟩
    · obtain ⟨d, hd, hbound⟩ := hbound
      exact absurd (hnone d hd) hbound
    · rw [List.append_assoc, List.cons_append, hfirst before _ scope v hbefore hscope hv,
        hfirst before _ scope v hbefore hscope hv]

/-- A user with two tags. -/
def profile : Value := .record [("tags", .list [.text "new", .text "paid"])]

/-- The second tag is found behind a scope that binds the user to null, and a scope behind it, which
binds the user to a number, is not asked for the city that is missing. -/
theorem lookups_are_compositional_profile :
    (∀ key ∈ ["tags", "1"], ¬Value.Overlong key) ∧ (∀ key ∈ ["city"], ¬Value.Overlong key) ∧
      Scopes.lookup [[("user", .null)], [("user", profile)]] ⟨"user", ["tags", "1"]⟩ =
        .ok (some (.text "paid")) ∧
      Scopes.lookup [[("user", profile)], [("user", .record [("city", .text "Oslo")])]]
        ⟨"user", ["city"]⟩ = .ok none := by
  have htags : ∀ key ∈ ["tags", "1"], ¬Value.Overlong key := by decide
  have hcity : ∀ key ∈ ["city"], ¬Value.Overlong key := by decide
  obtain ⟨-, -, hfirst, -⟩ := lookups_are_compositional (p := ⟨"user", ["tags", "1"]⟩) htags
  obtain ⟨-, -, -, -, hstable⟩ := lookups_are_compositional (p := ⟨"user", ["city"]⟩) hcity
  have hnull : ∀ d ∈ [[("user", Value.null)]], Dict.Unbound d "user" := by
    intro d hd v hv
    obtain rfl := List.mem_singleton.mp hd
    exact (Option.some.inj hv).symm
  refine ⟨htags, hcity, ?_, ?_⟩
  · have hprofile : profile ≠ .null := by simp [profile, Value.record]
    rw [← List.singleton_append, hfirst [[("user", .null)]] [] _ profile hnull rfl hprofile]
    rfl
  · have hbound : ∃ d ∈ [[("user", profile)]], ¬Dict.Unbound d "user" :=
      ⟨_, List.mem_singleton_self _, fun h => nomatch h profile rfl⟩
    rw [← List.singleton_append, hstable [[("user", profile)]] _ hbound]
    rfl

end Scopes

end BlockSuite
